import HopTrace.Proofs.Trace.Completion
import HopTrace.Proofs.Trace.Firing

/-!
# When the main loop stops

The main loop begins one hop after the other. A probe that records an answer of
the destination enters it into the table and then raises the signal. Only the
main loop takes the wake, at its check before the next hop, by which it stops.
So no hop is begun any more once both has been done, and on one thread once the
answer is in the table. For no other reason does the main loop stop before the
last hop.
-/

namespace HopTrace

@[simp] theorem Signal.pending_raise (s : Signal) : s.raise.1.pending = true := by
  unfold raise
  split
  next h => exact h
  next => rfl

namespace Trace

variable {t t' : Trace} {e : TraceEvent} {ttl : UInt16} {events : List TraceEvent} {i : Nat}
  {p : Probe} {q : Probe.Phase}

/-- The main loop will stop at its next check, or has stopped. -/
def Warned (t : Trace) : Prop := t.stage.Probing → t.arrival.pending = true

theorem MainMove.warned (move : MainMove t t') (h : t.Warned) : t'.Warned := by
  cases move with
  | beginHop stage quiet =>
    have hraised : t.arrival.pending = true := h (by rw [stage]; trivial)
    simp [hraised] at quiet
  | request stage | grant stage | join stage | spawn stage | pause stage =>
    exact fun _ => h (by rw [stage]; trivial)
  | nextHop passed =>
    refine fun _ => h ?_
    rcases passed with ⟨hs, -⟩ | ⟨wake, -, hs⟩ <;> rw [hs] <;> trivial
  | stop | lastHop | release | reap | miss | leave | fail | succeed => exact fun hp => hp.elim

theorem ProbeMove.warned (move : ProbeMove t i p e q t') (h : t.Warned) : t'.Warned := by
  unfold Warned
  rw [move.stage]
  intro hp
  cases move with
  | signal => exact Signal.pending_raise _
  | _ => exact h hp

theorem Move.warned (move : Move t e t') (h : t.Warned) : t'.Warned := by
  cases move with
  | main move => exact move.warned h
  | probe found move => exact move.warned h
  | dispatch move => cases move <;> exact h
  | loop => exact h
  | clock => exact h

variable {setup : TraceSetup} {plugins : PluginSet}

/-- An arrival has been recorded and is about to be signalled. -/
def Signalling (t : Trace) : Prop := ∃ s ∈ t.standings, ∃ o news, s.2 = .settled o true news

theorem noted_or_signalling {s : ProbeKey × Probe.Phase} {h : Hop} (hs : s ∈ t.standings)
    (ho : s.2.outcome? = some (.recorded h)) (hreached : h.reached t.setup.destination = true) :
    t.Noted ∨ t.Signalling := by
  obtain ⟨key, phase⟩ := s
  cases phase with
  | settled o arrived news =>
    cases arrived with
    | true => exact .inr ⟨_, hs, o, news, rfl⟩
    | false =>
      obtain rfl := Option.some.inj ho
      exact .inl ⟨_, hs, h, rfl, hreached⟩
  | released o | ended o =>
    obtain rfl := Option.some.inj ho
    exact .inl ⟨_, hs, h, rfl, hreached⟩
  | _ => cases ho

/-- An answer of the destination that is in the table has been recorded for good, or its arrival
is about to be signalled. -/
theorem arrived_iff (hr : (start setup plugins).run events = some t) :
    (∃ h ∈ (start setup plugins).recorded events, h.From setup.destination) ↔
      t.Noted ∨ t.Signalling := by
  have hset := setup_of_start hr
  have mem {h : Hop} := mem_recorded_iff (h := h) (start_empty setup plugins).1 hr
  constructor
  · rintro ⟨h, hm, hfrom⟩
    obtain ⟨s, hs, ho⟩ := mem.mp hm
    exact noted_or_signalling hs ho (hset ▸ Hop.reached_iff.mpr hfrom)
  · rintro (⟨s, hs, h, hnoted, hreached⟩ | ⟨s, hs, o, news, hphase⟩)
    · exact ⟨h, mem.mpr ⟨s, hs, Probe.Phase.outcome_of_noted hnoted⟩,
        Hop.reached_iff.mp (hset ▸ hreached)⟩
    · obtain ⟨h, rfl, hreached⟩ := candid_of_run hr s hs o news hphase
      exact ⟨h, mem.mpr ⟨s, hs, by rw [hphase]; rfl⟩, Hop.reached_iff.mp (hset ▸ hreached)⟩

structure Itinerary (setup : TraceSetup) (opened : List UInt16) (t : Trace) : Prop where
  /-- They are the hops from the first one on, in that order. -/
  contiguous : opened.map UInt16.toNat = List.range' setup.params.beginHop.toNat opened.length
  within : ∀ ttl ∈ opened, ttl ≤ setup.params.maxHops
  /-- None lacks a probe but the hop in progress. -/
  probes : ∀ ttl, t.keys.countP (·.ttl = ttl) +
      (if t.stage.hop? = some ttl then t.stage.due else 0) =
    if ttl ∈ opened then setup.params.numMeasurements.toNat else 0

theorem itinerary_of_run (valid : setup.params.Valid)
    (hr : (start setup plugins).run events = some t) :
    Itinerary setup ((start setup plugins).opened events) t := by
  have hbegun := begun_of_run valid hr
  have h := schedule_of_run valid hr
  refine ⟨?_, fun ttl hm => ?_, fun ttl => ?_⟩
  · have hhops := h.hops
    rwa [hbegun, List.map_reverse, List.length_reverse, List.reverse_inj] at hhops
  · exact le_maxHops_of_begun valid hr ((mem_opened_iff valid hr).mp hm)
  · have hshare := h.share ttl
    simpa only [hbegun, List.mem_reverse] using hshare

/-- The main loop was about to begin a hop, and by then an answer of the destination had been
recorded and signalled. -/
def StopsBefore (t : Trace) (events : List TraceEvent) (next : Nat) : Prop :=
  ∃ early late s ttl, events = early ++ .main :: late ∧ t.run early = some s ∧
    s.stage = .checking ttl ∧ ttl.toNat = next ∧ s.Noted ∧
    ∃ h ∈ t.recorded early, h.From t.setup.destination

theorem StopsBefore.append {next : Nat} (h : t.StopsBefore events next) (more : List TraceEvent) :
    t.StopsBefore (events ++ more) next := by
  obtain ⟨early, late, s, ttl, rfl, hs⟩ := h
  exact ⟨early, late ++ more, s, ttl, by simp, hs⟩

/-- By a move of the main loop that ends its loop over the hops, it is through or was told to
stop. -/
theorem MainMove.ending (scheduled : t.Scheduled) (move : MainMove t t') (before : t.stage.Probing)
    (after : ¬ t'.stage.Probing) :
    t.setup.params.beginHop.toNat + t.begun.length = t.setup.params.maxHops.toNat + 1 ∨
      ∃ ttl, t.stage = .checking ttl ∧ t.arrival.pending = true := by
  cases move with
  | stop stage raised => exact .inr ⟨_, stage, raised⟩
  | lastHop passed last => exact .inl (scheduled.through passed last)
  | beginHop | request | grant | join | spawn | pause | nextHop => exact absurd trivial after
  | release stage | reap stage | miss stage | leave stage | fail stage | succeed stage =>
    rw [stage] at before
    exact before.elim

end Trace

end HopTrace
