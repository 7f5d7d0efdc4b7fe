import HopTrace.Proofs.Trace.Conclusion
import HopTrace.Proofs.Trace.OneThread
import HopTrace.Proofs.Trace.Readiness

/-!
# Probes in flight

No more probes hold an admission than the parameters allow. The units of gate
and group are those of the probes, and one more of each for the probe that the
main loop is about to spawn; each probe gives back one of both before its end, so
neither ever complains, and nothing is left of them in the end.
-/

namespace HopTrace

/-- The places in a list at which something holds are as many as the entries of which it holds. -/
theorem length_filter_range {α : Type} (f : α → Bool) (l : List α) :
    ((List.range l.length).filter fun i => l[i]?.any f).length = l.countP f := by
  induction l using List.reverseRecOn with
  | nil => rfl
  | append_singleton l a ih =>
    have hold : ((List.range l.length).filter fun i => (l ++ [a])[i]?.any f) =
        (List.range l.length).filter fun i => l[i]?.any f :=
      List.filter_congr fun i hi => by rw [List.getElem?_append_left (List.mem_range.mp hi)]
    rw [List.length_append, List.length_singleton, List.range_succ, List.filter_append,
      List.length_append, hold, ih, List.countP_append]
    cases hf : f a <;> simp [hf]

variable {stage : Trace.Stage} {held live : Nat}

namespace Gate

variable {g : Gate}

/-- A unit given back by a probe is freed or handed to the main loop, neither of which is logged. -/
theorem Balanced.log_finished (h : g.Balanced (held + 1) stage) :
    g.finished.2.filterMap (·.log?) = [] := by
  have free (hline : g.line = []) (hunits : 0 < g.admitted) :
      g.finished.2.filterMap (·.log?) = [] := by
    have hbusy : g.admitted ≠ 0 := by omega
    simp [Gate.finished, hline, handOver, hbusy]
  obtain ⟨-, howes⟩ := h
  cases stage with
  | queued ttl left ticket =>
    rcases howes with ⟨-, hline, hunits⟩ | ⟨⟨parked, hreq⟩, hline, -⟩
    · exact free hline (by omega)
    · cases parked <;> simp [Gate.finished, hline, handOver, hreq, GateEvent.log?]
  | admitted ttl left | joined ttl left => exact free howes.1 (by have := howes.2; omega)
  | _ => exact free howes.1 (by have := howes.2; omega)

end Gate

namespace Barrier

variable {b : Barrier}

theorem Balanced.busy (h : b.Balanced (live + 1) stage) : b.outstanding ≠ 0 := by
  cases stage with
  | joined ttl left =>
    have hunits := h.1
    omega
  | draining ticket =>
    have hunits := h.2.1
    omega
  | closing | joining | concluding | done result => exact absurd h.2 (by omega)
  | _ =>
    have hunits := h.1
    omega

/-- A unit that is outstanding is completed without a complaint. -/
theorem log_done (busy : b.outstanding ≠ 0) : b.done.2.filterMap (·.log?) = [] := by
  rcases b.units_cases with idle | last | more
  · exact absurd idle busy
  · rw [done_of_last last]
    exact (releaseAll_frame _ _).2.2.2
  · rw [done_of_more more]
    rfl

end Barrier

namespace Trace

variable {t t' : Trace} {e : TraceEvent} {i : Nat} {p : Probe} {q : Probe.Phase}

/-- The probes that hold their admission, by number. -/
def inFlight (t : Trace) : List Nat :=
  (List.range t.probes.size).filter fun i => t.probes[i]?.any (·.phase.isAdmitted)

theorem length_live (t : Trace) : t.live.length = t.liveCount := by
  have hlive : (fun s : ProbeKey × Probe.Phase => s.2.isLive) ∘ Probe.standing = Probe.isLive :=
    funext fun p => (Probe.isLive_eq p).symm
  have hcount : t.live.length = t.probes.countP Probe.isLive := by
    simpa [live] using length_filter_range Probe.isLive t.probes.toList
  unfold liveCount count standings
  rw [hcount, Array.countP_map, hlive]

theorem length_inFlight (t : Trace) : t.inFlight.length = t.admittedCount := by
  have hcount : t.inFlight.length = t.probes.countP (·.phase.isAdmitted) := by
    simpa [inFlight] using length_filter_range (·.phase.isAdmitted) t.probes.toList
  unfold admittedCount count standings
  rw [hcount, Array.countP_map]
  rfl

theorem mem_live_of_mem_inFlight (h : i ∈ t.inFlight) : i ∈ t.live := by
  obtain ⟨hi, hany⟩ := List.mem_filter.mp h
  obtain ⟨p, found, admitted⟩ := (Option.any_eq_true ..).mp hany
  refine List.mem_filter.mpr ⟨hi, (Option.any_eq_true ..).mpr ⟨p, found, ?_⟩⟩
  rw [Probe.isLive_eq]
  exact Probe.Phase.isLive_of_isAdmitted admitted

/-- Unless a probe is midway, those that are live hold their admission too. -/
theorem live_eq_inFlight (settled : t.midway = []) : t.live = t.inFlight := by
  refine List.filter_congr fun i _ => ?_
  cases found : t.probes[i]? with
  | none => rfl
  | some p =>
    have hno : p.phase.isMidway = false := by
      rw [Bool.eq_false_iff]
      intro hmidway
      have hmem : i ∈ t.midway := mem_midway_iff.mpr ⟨p, found, hmidway⟩
      rw [settled] at hmem
      cases hmem
    rw [Option.any_some, Option.any_some, Probe.isLive_eq]
    cases hphase : p.phase with
    | settled | released => simp [hphase, Probe.Phase.isMidway] at hno
    | _ => rfl

theorem ProbeMove.complaints (h : t.Balanced) (found : t.probes[i]? = some p)
    (move : ProbeMove t i p e q t') : t'.complaints = t.complaints := by
  obtain ⟨hgate, hgroup⟩ := h
  cases move with
  | giveBack phase =>
    obtain ⟨n, hn⟩ := Nat.exists_eq_add_of_lt (admittedCount_pos found (by rw [phase]; rfl))
    rw [Nat.zero_add] at hn
    rw [hn] at hgate
    simp only [Trace.giveBack, putProbe, hgate.log_finished, List.append_nil]
  | leave phase =>
    obtain ⟨n, hn⟩ := Nat.exists_eq_add_of_lt (liveCount_pos found (by rw [phase]; rfl))
    rw [Nat.zero_add] at hn
    rw [hn] at hgroup
    simp only [Trace.leave, putProbe, Barrier.log_done hgroup.busy, List.append_nil]
  | _ => rfl

theorem Move.complaints (h : t.Balanced) (move : Move t e t') :
    t'.complaints = t.complaints := by
  cases move with
  | main move => cases move <;> rfl
  | probe found move => exact move.complaints h found
  | dispatch move => cases move <;> rfl
  | loop => rfl
  | clock => rfl

theorem complaints_of_run {setup : TraceSetup} (valid : setup.params.Valid) {plugins : PluginSet}
    {events : List TraceEvent} (hr : (start setup plugins).run events = some t) :
    t.complaints = [] := by
  refine run_induction (P := fun _ s => s.complaints = []) ?_ ?_ hr
  · obtain ⟨plugins', fired, log, listening, -, hs⟩ := start_of_valid valid plugins
    rw [hs]
  · intro events s e s' hr' ih hs
    exact ((move_of_step hs).complaints (balanced_of_run valid hr')).trans ih

def holdsAdmission (t : Trace) : Bool :=
  match t.stage with
  | .queued _ _ ticket => t.gate.requests[ticket]? = some .granted
  | .admitted _ _ => true
  | .joined _ _ => true
  | _ => false

def Stage.isJoined : Stage → Bool
  | .joined _ _ => true
  | _ => false

theorem Balanced.admitted_eq (h : t.Balanced) :
    t.gate.admitted = t.admittedCount + t.holdsAdmission.toNat := by
  obtain ⟨-, howes⟩ := h.1
  unfold holdsAdmission
  cases hs : t.stage with
  | queued ttl left ticket =>
    rw [hs] at howes
    rcases howes with ⟨hreq, -, hunits⟩ | ⟨⟨parked, hreq⟩, -, hunits, -⟩
    · simp [hreq, hunits]
    · simp [hreq, hunits]
  | _ =>
    rw [hs] at howes
    exact howes.2

theorem Balanced.outstanding_eq (h : t.Balanced) :
    t.group.outstanding = t.liveCount + t.stage.isJoined.toNat := by
  have hgroup := h.2
  cases hs : t.stage with
  | draining ticket =>
    rw [hs] at hgroup
    exact hgroup.2.1
  | closing | joining | concluding | done result =>
    rw [hs] at hgroup
    simp [hgroup.1, hgroup.2, Stage.isJoined]
  | _ =>
    rw [hs] at hgroup
    exact hgroup.1

theorem Balanced.line_of_done (h : t.Balanced) {result : Except TraceError HopTable}
    (done : t.stage = .done result) : t.gate.line = [] := by
  have hgate := h.1.2
  rw [done] at hgate
  exact hgate.1

variable {setup : TraceSetup} {plugins : PluginSet} {events : List TraceEvent}

/-- At any moment the admissions handed out are those that probes hold, and one that the main loop
has been granted for the next; the units of the group are those of the live probes, and one for the
next that is about to be spawned. So no more probes are in flight than may be, neither gate nor
group ever complains, and in the end both are empty. A probe is live without being in flight only
midway, after it has given back the one and before it does the other. -/
theorem in_flight (valid : setup.params.Valid)
    (hr : (start setup plugins).run events = some t) :
    t.inFlight.length ≤ setup.params.parallelRequests.toNat ∧
      t.gate.admitted = t.inFlight.length + t.holdsAdmission.toNat ∧
      t.group.outstanding = t.live.length + t.stage.isJoined.toNat ∧
      (t.midway = [] → t.live = t.inFlight) ∧
      t.complaints = [] ∧
      ∀ result, t.stage = .done result →
        t.gate.admitted = 0 ∧ t.gate.line = [] ∧ t.group.outstanding = 0 := by
  have hbalanced := balanced_of_run valid hr
  have hroom := hbalanced.1.1
  rw [capacity_of_run valid hr] at hroom
  rw [length_live, length_inFlight]
  refine ⟨?_, hbalanced.admitted_eq, hbalanced.outstanding_eq, live_eq_inFlight,
    complaints_of_run valid hr, ?_⟩
  · calc t.admittedCount ≤ t.gate.admitted := by
          rw [hbalanced.admitted_eq]
          exact Nat.le_add_right ..
      _ ≤ setup.params.parallelRequests.toNat := hroom
  · intro result done
    have hnone : t.liveCount = 0 := hbalanced.liveCount_eq_zero (by rw [done]; trivial)
    have hfree : t.admittedCount = 0 := by
      have hle := t.admittedCount_le
      omega
    refine ⟨?_, hbalanced.line_of_done done, ?_⟩
    · rw [hbalanced.admitted_eq, hfree]
      simp [holdsAdmission, done]
    · rw [hbalanced.outstanding_eq, hnone, done]
      rfl

def narrow : TraceSetup where
  destination := .v4 ⟨192, 0, 2, 1⟩
  params := { maxHops := 1, numMeasurements := 2, parallelRequests := 1 }
  recognise := recogniseKey

/-- The main loop waits for the first probe, whose attempt to send crashes. It is granted the
admission of that probe before the unit of the group has come back. -/
def crashingRun : List TraceEvent :=
  List.replicate 6 .main ++ [.probe 0, .sendEnds 0 .crashed, .probe 0]

theorem in_flight_handed_over : ∃ t, (start narrow {}).run crashingRun = some t ∧
    t.inFlight.length = 0 ∧ t.live.length = 1 ∧ t.holdsAdmission = true ∧ t.gate.admitted = 1 ∧
      t.group.outstanding = 1 ∧ t.complaints = [] := by
  have valid : narrow.params.Valid := by decide
  obtain ⟨t, hr, hflight, hlive, hheld, hstage⟩ : ∃ t,
      (start narrow {}).run crashingRun = some t ∧ t.inFlight.length = 0 ∧ t.live.length = 1 ∧
        t.holdsAdmission = true ∧ t.stage.isJoined = false :=
    ⟨_, rfl, rfl, rfl, rfl, rfl⟩
  obtain ⟨-, hgate, hgroup, -, hquiet, -⟩ := in_flight valid hr
  rw [hflight, hheld] at hgate
  rw [hlive, hstage] at hgroup
  exact ⟨t, hr, hflight, hlive, hheld, hgate, hgroup, hquiet⟩

end Trace

end HopTrace
