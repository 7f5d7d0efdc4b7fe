import HopTrace.Proofs.Trace.Completion
import Mathlib.Logic.Relation

/-!
# No dead end

However sends and reads end, a trace can go on from each of its states to a
result, as long as they end and no read outlasts its deadline. First the read in
flight ends, then time passes until main loop or a probe has a move. Once the
main loop waits for the listener, whoever has a move makes it.
-/

namespace HopTrace

variable {t t' : Trace} {e : TraceEvent}

structure Outside where
  /-- By the number of the probe. -/
  sendEnd : Nat → SendEnd
  /-- By the number of attempts begun. -/
  readEnd : Nat → ReadEnd
  /-- Why an attempt gets no deadline, if it gets none, by the number of those before it. -/
  refusal : Nat → Option String

namespace Outside

/-- Whether an event agrees with what sends and reads come to. No read outlasts its deadline. -/
def Allows (o : Outside) (t : Trace) : TraceEvent → Prop
  | .sendEnds i r => r = o.sendEnd i
  | .readEnds r => r = o.readEnd t.listener.attempts
  | .loop => t.listener.loop = .ready → t.listener.tries t.now = true →
      o.refusal t.listener.attempts = none
  | .refuse cause => o.refusal t.listener.attempts = some cause
  | .passTime now => ∀ deadline, t.listener.loop = .reading deadline → now ≤ deadline
  | _ => True

def Next (o : Outside) (t t' : Trace) : Prop := ∃ e, o.Allows t e ∧ t.step e = some t'

def Leads (o : Outside) : Trace → Trace → Prop := Relation.ReflTransGen o.Next

end Outside

/-! ## Whoever can act can do so in accord with the outside -/

theorem Listener.LoopMove.read {l l' : Listener} {now : Nat} {r : ReadEnd}
    (move : l.LoopMove now (.readEnds r) l') :
    (∃ deadline, l.loop = .reading deadline) ∧ ∀ deadline, l'.loop ≠ .reading deadline := by
  cases move with
  | crash loop | hold loop => exact ⟨⟨_, loop⟩, fun _ => nofun⟩

namespace Trace

theorem isSome_sendEnds? {i since : Nat} {p : Probe} (found : t.probes[i]? = some p)
    (phase : p.phase = .sending since) (r : SendEnd) : (t.sendEnds? i r).isSome = true := by
  cases r <;> simp [sendEnds?, found, phase]

theorem isSome_readEnds {deadline : Nat} (loop : t.listener.loop = .reading deadline)
    (r : ReadEnd) : (t.step (.readEnds r)).isSome = true := by
  simpa [step] using Listener.Session.isSome_finish? loop r

theorem ProbeMove.sending {i : Nat} {p : Probe} {q : Probe.Phase} {r : SendEnd}
    (move : ProbeMove t i p (.sendEnds i r) q t') : ∃ since, p.phase = .sending since := by
  cases move with
  | sent phase | refused phase | crash phase => exact ⟨_, phase⟩

/-- An attempt is begun or refused, as the outside has it. -/
theorem exists_attempt (o : Outside) (loop : t.listener.loop = .ready)
    (tries : t.listener.tries t.now = true) :
    ∃ e, e.party? = some .loop ∧ o.Allows t e ∧ (t.step e).isSome = true := by
  cases hrefusal : o.refusal t.listener.attempts with
  | none =>
    have hbegins := Listener.Session.isSome_begin? loop t.now
    exact ⟨.loop, rfl, fun _ _ => hrefusal, by simp [step, hbegins]⟩
  | some cause =>
    exact ⟨.refuse cause, rfl, hrefusal, by simp [step, Listener.refuse?, loop, tries]⟩

end Trace

theorem Party.CanAct.allowed {x : Party} (h : x.CanAct t) (o : Outside) :
    ∃ e, e.party? = some x ∧ o.Allows t e ∧ (t.step e).isSome = true := by
  obtain ⟨e, hx, he⟩ := h
  obtain ⟨t', hs⟩ := Option.isSome_iff_exists.mp he
  cases e with
  | main | probe i | dispatch => exact ⟨_, hx, trivial, he⟩
  | sendEnds i r =>
    obtain ⟨p, q, found, move⟩ := Trace.probeMove_of_sendEnds hs
    obtain ⟨since, phase⟩ := move.sending
    exact ⟨.sendEnds i (o.sendEnd i), hx, rfl, Trace.isSome_sendEnds? found phase _⟩
  | readEnds r =>
    cases Trace.move_of_step hs with
    | probe found move => cases move
    | loop move =>
      obtain ⟨deadline, loop⟩ := move.read.1
      exact ⟨.readEnds (o.readEnd t.listener.attempts), hx, rfl, Trace.isSome_readEnds loop _⟩
  | loop =>
    obtain rfl := Option.some.inj hx
    by_cases hbegins : t.listener.loop = .ready ∧ t.listener.tries t.now = true
    · exact Trace.exists_attempt o hbegins.1 hbegins.2
    · exact ⟨.loop, rfl, fun loop tries => absurd ⟨loop, tries⟩ hbegins, he⟩
  | refuse cause =>
    obtain rfl := Option.some.inj hx
    cases Trace.move_of_step hs with
    | probe found move => cases move
    | loop move =>
      cases move with
      | refuse loop goesOn fit =>
        exact Trace.exists_attempt o loop (Listener.tries_iff.mpr ⟨goesOn, fit⟩)
  | passTime now => cases hx

namespace Trace

/-! ## From each state to a result -/

structure Viable (t : Trace) : Prop where
  balanced : t.Balanced
  attended : t.Attended
  room : 0 < t.gate.capacity

theorem Move.viable (h : t.Viable) (move : Move t e t') : t'.Viable where
  balanced := move.balanced h.balanced
  attended := move.attended h.attended
  room := by
    rw [move.capacity]
    exact h.room

theorem viable_of_run {setup : TraceSetup} (valid : setup.params.Valid) {plugins : PluginSet}
    {events : List TraceEvent} (hr : (start setup plugins).run events = some t) : t.Viable where
  balanced := balanced_of_run valid hr
  attended := attended_of_run valid hr
  room := by
    rw [capacity_of_run valid hr]
    exact valid.parallelRequests_pos

theorem Viable.leads {o : Outside} (h : t.Viable) (leads : o.Leads t t') : t'.Viable := by
  induction leads with
  | refl => exact h
  | tail _ next ih =>
    obtain ⟨e, -, hs⟩ := next
    exact (move_of_step hs).viable ih

/-- The read in flight, if there is one, ends. -/
theorem exists_still (o : Outside) (t : Trace) :
    ∃ s, o.Leads t s ∧ t.Rests s ∧ ∀ deadline, s.listener.loop ≠ .reading deadline := by
  by_cases hreads : ∃ deadline, t.listener.loop = .reading deadline
  · obtain ⟨deadline, loop⟩ := hreads
    obtain ⟨s, hs⟩ := Option.isSome_iff_exists.mp
      (isSome_readEnds loop (o.readEnd t.listener.attempts))
    have move := move_of_step hs
    refine ⟨s, .single ⟨.readEnds _, rfl, hs⟩, move.rests rfl, ?_⟩
    cases move with
    | probe found move => cases move
    | loop move => exact move.read.2
  · exact ⟨t, .refl, ⟨rfl, rfl, rfl, rfl, rfl⟩, fun deadline loop => hreads ⟨deadline, loop⟩⟩

/-- Until the result is there, main loop and probes get less to do, or they rest and receive loop
and dispatcher do. -/
theorem Viable.advances (h : t.Viable) (o : Outside) (unfinished : t.result? = none) :
    ∃ s, o.Leads t s ∧
      (s.effort < t.effort ∨ s.effort = t.effort ∧ s.mailEffort < t.mailEffort) := by
  by_cases drained : t.stage.Drained
  · obtain ⟨x, can⟩ := canAct_of_drained h.attended drained unfinished
    obtain ⟨e, hx, allowed, he⟩ := (can t ⟨t.now, rfl⟩).allowed o
    obtain ⟨s, hs⟩ := Option.isSome_iff_exists.mp he
    have move := move_of_step hs
    refine ⟨s, .single ⟨e, allowed, hs⟩, ?_⟩
    cases hwork : e.isWork with
    | true => exact .inl (move.effort_lt hwork)
    | false =>
      rcases move.mailEffort (h.attended.stopped drained) hwork with ⟨hnone, -⟩ | hlt
      · simp [hx] at hnone
      · exact .inr ⟨(move.rests hwork).effort, hlt⟩
  · obtain ⟨x, works, due, can⟩ := ready_of_not_drained h.balanced h.room drained
    obtain ⟨s, hleads, rests, still⟩ := exists_still o t
    -- Now that nothing is read, time may pass.
    have hpass : o.Next s { s with now := max due s.now } :=
      ⟨.passTime (max due s.now), fun deadline loop => absurd loop (still deadline),
        if_pos (Nat.le_max_right ..)⟩
    have rests' : t.Rests { s with now := max due s.now } :=
      rests.trans ⟨rfl, rfl, rfl, rfl, rfl⟩
    obtain ⟨e, hx, allowed, he⟩ := (can _ rests' (Nat.le_max_left ..)).allowed o
    obtain ⟨u, hu⟩ := Option.isSome_iff_exists.mp he
    refine ⟨u, (hleads.tail hpass).tail ⟨e, allowed, hu⟩, .inl ?_⟩
    have hwork := TraceEvent.isWork_of_party hx
    rw [← rests'.effort]
    exact (move_of_step hu).effort_lt (hwork.trans works)

/-- From each state there is a way to a result, whatever sends and reads come to. -/
theorem Viable.exists_result {t : Trace} (h : t.Viable) (o : Outside) :
    ∃ t' result, o.Leads t t' ∧ t'.result? = some result := by
  cases hresult : t.result? with
  | some result => exact ⟨t, result, .refl, hresult⟩
  | none =>
    obtain ⟨s, hleads, hless⟩ := h.advances o hresult
    obtain ⟨t', result, hrest, hdone⟩ := (h.leads hleads).exists_result o
    exact ⟨t', result, hleads.trans hrest, hdone⟩
termination_by (t.effort, t.mailEffort)
decreasing_by exact Prod.lex_def.mpr hless

end Trace

end HopTrace
