import HopTrace.Proofs.Trace.Standing
import HopTrace.Trace.Clock

/-!
# The virtual clock

Time passes only while nobody can take a turn, and not beyond a deadline. Whoever
can take a turn in a simulation has come into its queue, and time moves when that
is empty, to the next moment for which somebody waits. So whatever is simulated
is a timely run.
-/

namespace HopTrace

def Probe.Phase.deadline? : Probe.Phase → Option Nat
  | .awaiting _ deadline => some deadline
  | _ => none

namespace Trace

variable {t t' t'' : Trace} {e : TraceEvent} {i : Nat} {p : Probe}
  {events more : List TraceEvent}

/-! ## Timely runs -/

def Idle (t : Trace) : Prop :=
  t.mainStep?.isNone ∧ (t.step .loop).isNone ∧ t.dispatchStep?.isNone ∧
    ∀ i < t.probes.size, (t.probeStep? i).isNone

instance (t : Trace) : Decidable t.Idle := inferInstanceAs (Decidable (_ ∧ _ ∧ _ ∧ _))

theorem Idle.probeStep? (h : t.Idle) (found : t.probes[i]? = some p) : t.probeStep? i = none :=
  Option.isNone_iff_eq_none.mp (h.2.2.2 i (Array.getElem?_eq_some_iff.mp found).choose)

def deadlines (t : Trace) : List Nat := t.probes.toList.filterMap (·.phase.deadline?)

theorem mem_deadlines {since deadline : Nat} (found : t.probes[i]? = some p)
    (phase : p.phase = .awaiting since deadline) : deadline ∈ t.deadlines := by
  apply List.mem_filterMap.mpr
  refine ⟨p, Array.mem_toList_iff.mpr (Array.mem_of_getElem? found), ?_⟩
  rw [phase]
  rfl

/-- Time passes only while nobody can take a turn, and not beyond a deadline. -/
def OnTime (t : Trace) : TraceEvent → Prop
  | .passTime now => t.Idle ∧ ∀ deadline ∈ t.deadlines, now ≤ deadline
  | _ => True

instance (t : Trace) : DecidablePred t.OnTime
  | .passTime _ => inferInstanceAs (Decidable (_ ∧ _))
  | .main | .probe _ | .sendEnds _ _ | .loop | .refuse _ | .readEnds _ | .dispatch => isTrue trivial

def Timely (t : Trace) (events : List TraceEvent) : Prop := t.Along OnTime events

instance (t : Trace) (events : List TraceEvent) : Decidable (t.Timely events) :=
  inferInstanceAs (Decidable (t.Along OnTime events))

/-- The clock moves, and nothing else, or it stands still. -/
theorem Move.time_cases (move : Move t e t') :
    (∃ now, e = .passTime now ∧ t.now ≤ now ∧ t' = { t with now }) ∨ t'.now = t.now := by
  cases move with
  | main move => exact .inr (by cases move <;> rfl)
  | probe found move => exact .inr (by cases move <;> rfl)
  | dispatch move => exact .inr (by cases move <;> rfl)
  | loop => exact .inr rfl
  | clock later => exact .inl ⟨_, rfl, later, rfl⟩

def GoesTo (t t' : Trace) : Prop := ∃ events, t.run events = some t' ∧ t.Timely events

theorem GoesTo.refl (t : Trace) : t.GoesTo t := ⟨[], rfl, trivial⟩

theorem GoesTo.step (hs : t.step e = some t') (onTime : t.OnTime e) : t.GoesTo t' := by
  refine ⟨[e], ?_, onTime, fun s _ => trivial⟩
  rw [run_cons, hs]
  rfl

theorem GoesTo.trans (h : t.GoesTo t') (h' : t'.GoesTo t'') : t.GoesTo t'' := by
  obtain ⟨events, hr, timely⟩ := h
  obtain ⟨more, hr', timely'⟩ := h'
  refine ⟨events ++ more, ?_, (along_append_iff hr).mpr ⟨timely, timely'⟩⟩
  rw [run_append, hr]
  exact hr'

end Trace

namespace Simulation

variable {s s' : Simulation} {e : TraceEvent} {task : Task}

/-! ## Turns -/

theorem goesTo_of_happens {u : Simulation} (h : u.happens e = some s') (same : u.trace = s.trace)
    (onTime : s.trace.OnTime e) : s.trace.GoesTo s'.trace := by
  obtain ⟨trace, hs, rfl⟩ := Option.map_eq_some_iff.mp h
  rw [same] at hs
  exact .step hs onTime

theorem isSome_happens (s : Simulation) (e : TraceEvent) :
    (s.happens e).isSome = (s.trace.step e).isSome := by
  simp [happens]

theorem goesTo_of_receiverTurn (h : s.receiverTurn? = some s') : s.trace.GoesTo s'.trace := by
  unfold receiverTurn? at h
  dsimp only at h
  split at h
  · obtain ⟨⟨r, arrivals⟩, -, hr⟩ := Option.bind_eq_some_iff.mp h
    exact goesTo_of_happens hr rfl trivial
  · split at h
    · exact goesTo_of_happens h rfl trivial
    · split at h <;> exact goesTo_of_happens h rfl trivial
  · exact goesTo_of_happens h rfl trivial

theorem goesTo_of_probeTurn {i : Nat} (h : s.probeTurn? i = some s') : s.trace.GoesTo s'.trace := by
  obtain ⟨p, -, hp⟩ := Option.bind_eq_some_iff.mp h
  split at hp
  · exact goesTo_of_happens hp rfl trivial
  · obtain ⟨⟨time, r⟩, -, hr⟩ := Option.bind_eq_some_iff.mp hp
    obtain ⟨-, hr⟩ := Option.ite_none_right_eq_some.mp hr
    exact goesTo_of_happens hr rfl trivial
  · exact goesTo_of_happens hp rfl trivial

/-- A turn is an event other than the passing of time. -/
theorem goesTo_of_turn (h : s.turn? task = some s') : s.trace.GoesTo s'.trace := by
  cases task with
  | main | dispatcher => exact goesTo_of_happens h rfl trivial
  | receiver => exact goesTo_of_receiverTurn h
  | probe i => exact goesTo_of_probeTurn h

/-- Whether a task can run does not depend on the queue. -/
theorem canRun_requeue (s : Simulation) (queue : List Task) :
    { s with queue }.canRun = s.canRun := by
  funext task
  cases task with
  | main | dispatcher => simp [canRun, turn?, isSome_happens]
  | receiver =>
    simp only [canRun, turn?, receiverTurn?]
    split
    next deadline hloop =>
      have hend : readEnd? { s with queue } deadline = s.readEnd? deadline := rfl
      rw [hend]
      cases s.readEnd? deadline with
      | none => rfl
      | some r => simp [isSome_happens]
    · split
      · simp [isSome_happens]
      · split <;> simp [isSome_happens]
    · simp [isSome_happens]
  | probe i =>
    simp only [canRun, turn?, probeTurn?]
    cases s.trace.probes[i]? with
    | none => rfl
    | some p =>
      simp only [Option.bind_eq_bind, Option.bind_some]
      split
      · simp [isSome_happens, launch]
      · cases s.sends.lookup i with
        | none => rfl
        | some r =>
          simp only [Option.bind_some]
          split <;> simp [isSome_happens]
      · simp [isSome_happens]

/-! ## The queue -/

/-- Whoever can take a turn, the main loop aside, is in the queue. -/
def Attentive (s : Simulation) : Prop := ∀ task ≠ .main, s.canRun task = true → task ∈ s.queue

theorem mem_live_of_canRun {i : Nat} (h : s.canRun (.probe i) = true) : i ∈ s.trace.live := by
  obtain ⟨s', hs⟩ := Option.isSome_iff_exists.mp h
  obtain ⟨p, found, hp⟩ := Option.bind_eq_some_iff.mp hs
  have hlive : p.isLive = true := by
    rw [Probe.isLive_eq]
    cases hphase : p.phase with
    | ended o => simp [hphase, happens, Trace.step, Trace.probeStep?, found] at hp
    | _ => rfl
  have hi := (Array.getElem?_eq_some_iff.mp found).choose
  exact List.mem_filter.mpr ⟨List.mem_range.mpr hi, by simp [found, hlive]⟩

theorem attentive_enqueue (s : Simulation) : s.enqueue.Attentive := by
  intro task hmain hcan
  have hcan' : s.canRun task = true := by
    rw [← hcan]
    exact (congrFun (canRun_requeue s _) task).symm
  by_cases hin : task ∈ s.queue
  · simp [enqueue, hin]
  · cases task with
    | main => exact absurd rfl hmain
    | receiver => simp [enqueue, hin, hcan']
    | dispatcher => simp [enqueue, hin, hcan']
    | probe i => simp [enqueue, hin, hcan', mem_live_of_canRun hcan', List.mem_mergeSort]

/-! ## Time -/

theorem isNone_loop (still : s.canRun .receiver = false) : (s.trace.step .loop).isNone := by
  have hstill := Option.isSome_eq_false_iff.mp still
  unfold turn? receiverTurn? at hstill
  dsimp only at hstill
  split at hstill
  next deadline hloop =>
    simp [Trace.step, Listener.begin?, Listener.publish?, hloop]
  next hloop =>
    split at hstill
    next => simpa [happens] using hstill
    next hgoes =>
      split at hstill
      next =>
        have htries : s.trace.listener.tries s.trace.now = true := by simpa using hgoes
        simp [happens, Trace.step, Listener.refuse?, hloop, htries] at hstill
      all_goals simpa [happens] using hstill
  next => simpa [happens] using hstill

theorem isNone_probeStep {i : Nat} (still : s.canRun (.probe i) = false) :
    (s.trace.probeStep? i).isNone := by
  have hstill := Option.isSome_eq_false_iff.mp still
  unfold turn? probeTurn? at hstill
  cases found : s.trace.probes[i]? with
  | none => simp [Trace.probeStep?, found]
  | some p =>
    simp only [found, Option.bind_eq_bind, Option.bind_some] at hstill
    split at hstill
    next => simpa [happens, Trace.step, launch] using hstill
    next since hphase => simp [Trace.probeStep?, found, hphase]
    next => simpa [happens, Trace.step] using hstill

/-- If nobody can run in the simulation, nobody can take a turn in the trace. -/
theorem idle_of_still (still : ∀ task, s.canRun task = false) : s.trace.Idle := by
  refine ⟨?_, isNone_loop (still _), ?_, fun i _ => isNone_probeStep (still _)⟩
  · simpa [canRun, turn?, happens, Trace.step] using still .main
  · simpa [canRun, turn?, happens, Trace.step] using still .dispatcher

theorem mem_alarms {deadline : Nat} (h : deadline ∈ s.trace.deadlines) : deadline ∈ s.alarms := by
  obtain ⟨p, hmem, hp⟩ := List.mem_filterMap.mp h
  obtain ⟨i, hi, rfl⟩ := Array.mem_iff_getElem.mp (Array.mem_toList_iff.mp hmem)
  have found := Array.getElem?_eq_getElem hi
  generalize s.trace.probes[i] = p at hp found
  cases hphase : p.phase with
  | awaiting since moment =>
    obtain rfl : moment = deadline := by simpa [hphase, Probe.Phase.deadline?] using hp
    have hlive : i ∈ s.trace.live := by
      refine List.mem_filter.mpr ⟨List.mem_range.mpr hi, ?_⟩
      simp [found, Probe.isLive_eq, hphase, Probe.Phase.isLive]
    refine List.mem_append_right _ (List.mem_filterMap.mpr ⟨i, hlive, ?_⟩)
    simp [probeAlarm?, found, hphase]
  | _ => simp [hphase, Probe.Phase.deadline?] at hp

theorem goesTo_of_tick (still : ∀ task, s.canRun task = false) (h : s.tick? = some s') :
    s.trace.GoesTo s'.trace ∧ s'.Attentive := by
  obtain ⟨now, hnow, h⟩ := Option.bind_eq_some_iff.mp h
  obtain ⟨u, hu, h⟩ := Option.bind_eq_some_iff.mp h
  obtain rfl := Option.some.inj h
  have honTime : s.trace.OnTime (.passTime now) := by
    refine ⟨idle_of_still still, fun deadline hmem => ?_⟩
    exact (List.min?_eq_some_iff.mp hnow).2 deadline (mem_alarms hmem)
  have hgoes : s.trace.GoesTo u.trace := goesTo_of_happens hu rfl honTime
  exact ⟨hgoes, attentive_enqueue _⟩

/-! ## Runs -/

def Ready (s : Simulation) : Prop := s.Attentive ∨ s.queue = [.main] ∧ s.canRun .main = true

theorem Attentive.dismiss {rest : List Task} (h : s.Attentive) (queue : s.queue = task :: rest)
    (still : s.turn? task = none) : Attentive { s with queue := rest } := by
  intro other hmain hcan
  rw [canRun_requeue] at hcan
  have hmem := h other hmain hcan
  rw [queue] at hmem
  rcases List.mem_cons.mp hmem with rfl | hrest
  · simp [canRun, still] at hcan
  · exact hrest

theorem goesTo_of_next (ready : s.Ready) (h : s.next? = some s') :
    s.trace.GoesTo s'.trace ∧ s'.Attentive := by
  unfold next? at h
  cases hq : s.queue with
  | cons task rest =>
    rw [hq] at h
    dsimp only at h
    cases hturn : s.turn? task with
    | some u =>
      rw [hturn] at h
      obtain rfl := Option.some.inj h
      have hgoes : s.trace.GoesTo u.trace := goesTo_of_turn hturn
      exact ⟨hgoes, attentive_enqueue u⟩
    | none =>
      rw [hturn] at h
      obtain rfl := Option.some.inj h
      rcases ready with attentive | ⟨hmain, hcan⟩
      · exact ⟨.refl _, attentive.dismiss hq hturn⟩
      · obtain ⟨rfl, -⟩ := List.cons.inj (hq.symm.trans hmain)
        simp [canRun, hturn] at hcan
  | nil =>
    rw [hq] at h
    have attentive : s.Attentive := by
      rcases ready with attentive | ⟨hmain, -⟩
      · exact attentive
      · simp [hq] at hmain
    have others : ∀ task ≠ .main, s.canRun task = false := by
      intro task hmain
      rw [Bool.eq_false_iff]
      intro hcan
      simpa [hq] using attentive task hmain hcan
    dsimp only at h
    split at h
    next =>
      obtain rfl := Option.some.inj h
      refine ⟨.refl _, fun task hmain hcan => ?_⟩
      rw [canRun_requeue, others task hmain] at hcan
      cases hcan
    next hstill =>
      apply goesTo_of_tick _ h
      intro task
      by_cases hmain : task = .main
      · simpa [hmain] using hstill
      · exact others task hmain

theorem goesTo_of_runFor (ready : s.Ready) (n : Nat) : s.trace.GoesTo (s.runFor n).trace := by
  induction n generalizing s with
  | zero => exact .refl _
  | succ n ih =>
    unfold runFor
    split
    · exact .refl _
    · cases hnext : s.next? with
      | none => exact .refl _
      | some s' =>
        obtain ⟨hgoes, attentive⟩ := goesTo_of_next ready hnext
        exact hgoes.trans (ih (.inl attentive))

end Simulation

/-- On the virtual clock, over any network and for any number of turns, a trace takes its course by
events on time. -/
theorem goesTo_of_simulated (network : Network) (setup : TraceSetup) (plugins : PluginSet)
    (n : Nat) : (Trace.start setup plugins).GoesTo
      ((Simulation.start network (.start setup plugins)).runFor n).trace := by
  cases hf : setup.params.fault? with
  | none =>
    have ready : (Simulation.start network (.start setup plugins)).Ready := by
      obtain ⟨plugins', fired, log, listening, -, hstart⟩ := Trace.start_of_valid hf plugins
      refine .inr ⟨rfl, ?_⟩
      rw [hstart]
      rfl
    exact Simulation.goesTo_of_runFor ready n
  | some fault =>
    -- The result is there at once.
    have hresult : (Trace.start setup plugins).result?.isSome = true := by
      rw [Trace.start_of_fault hf]
      rfl
    have hover : (Simulation.start network (.start setup plugins)).runFor n =
        Simulation.start network (.start setup plugins) := by
      cases n with
      | zero => rfl
      | succ n => exact if_pos hresult
    rw [hover]
    exact .refl _

end HopTrace
