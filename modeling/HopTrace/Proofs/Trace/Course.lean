import HopTrace.Proofs.Trace.Indifference
import HopTrace.Replay
import HopTrace.Trace.Clock

/-!
# The course of a trace under any plugins

On the virtual clock too, nothing depends on the plugins: whose turn it is, what
is on its way, and when time moves follow from what two traces that are alike
have in common. Nor does the route that a recorded table is cut down to.
-/

namespace HopTrace

inductive Simulation.Alike (s : Simulation) : Simulation → Prop
  | intro {trace : Trace} (h : s.trace.Alike trace) : Alike s { s with trace }

namespace Simulation

variable {s s' : Simulation}

theorem Alike.happens (h : s.Alike s') (e : TraceEvent) :
    Option.Rel Alike (s.happens e) (s'.happens e) := by
  obtain ⟨h⟩ := h
  unfold Simulation.happens
  rw [Option.map_eq_bind, Option.map_eq_bind]
  exact rel_bind (h.step e) fun _ _ h => .some ⟨h⟩

/-! ## Turns -/

theorem Alike.receiverTurn (h : s.Alike s') :
    Option.Rel Alike s.receiverTurn? s'.receiverTurn? := by
  obtain ⟨⟨plugins, fired, heard⟩⟩ := h
  have alike (arrivals : List Network.Arrival) (fault : Option ReadEnd) :
      Alike { s with arrivals, fault }
        { s with arrivals, fault, trace := { s.trace with plugins, fired } } :=
    ⟨⟨plugins, fired, heard⟩⟩
  unfold receiverTurn?
  dsimp only
  cases s.trace.listener.loop with
  | reading deadline =>
    have hend : readEnd? { s with trace := { s.trace with plugins, fired } } deadline =
        s.readEnd? deadline := rfl
    dsimp only
    rw [hend]
    cases s.readEnd? deadline with
    | none => exact .none
    | some ending => exact (alike _ _).happens _
  | ready =>
    dsimp only
    split
    · exact (alike _ _).happens _
    · cases s.network.faults.lookup s.trace.listener.attempts with
      | none => exact (alike _ _).happens _
      | some fault => cases fault <;> exact (alike _ _).happens _
  | _ => exact (alike s.arrivals s.fault).happens .loop

theorem Alike.launch (h : s.Alike s') (i : Nat) (key : ProbeKey) :
    (s.launch i key).Alike (s'.launch i key) := by
  obtain ⟨⟨plugins, fired, heard⟩⟩ := h
  exact ⟨⟨plugins, fired, heard⟩⟩

theorem Alike.probeTurn (h : s.Alike s') (i : Nat) :
    Option.Rel Alike (s.probeTurn? i) (s'.probeTurn? i) := by
  have hhappens := h.happens
  have hlaunch := h.launch i
  obtain ⟨⟨plugins, fired, heard⟩⟩ := h
  unfold probeTurn?
  dsimp only
  cases s.trace.probes[i]? with
  | none => exact .none
  | some p =>
    simp only [Option.bind_eq_bind, Option.bind_some]
    cases p.phase with
    | spawned => exact (hlaunch p.key).happens _
    | sending since =>
      dsimp only
      cases s.sends.lookup i with
      | none => exact .none
      | some send =>
        dsimp only [Option.bind_some]
        split
        · exact hhappens _
        · exact .none
    | _ => exact hhappens _

theorem Alike.turn (h : s.Alike s') (task : Task) :
    Option.Rel Alike (s.turn? task) (s'.turn? task) := by
  cases task with
  | main => exact h.happens .main
  | receiver => exact h.receiverTurn
  | dispatcher => exact h.happens .dispatch
  | probe i => exact h.probeTurn i

theorem Alike.canRun (h : s.Alike s') : s'.canRun = s.canRun := by
  funext task
  exact isSome_of_rel (h.turn task)

theorem Alike.enqueue (h : s.Alike s') : s.enqueue.Alike s'.enqueue := by
  have hcan := h.canRun
  obtain ⟨⟨plugins, fired, heard⟩⟩ := h
  unfold Simulation.enqueue
  rw [hcan]
  exact ⟨⟨plugins, fired, heard⟩⟩

/-! ## Time -/

theorem Alike.alarms (h : s.Alike s') : s'.alarms = s.alarms := by
  obtain ⟨⟨plugins, fired, heard⟩⟩ := h
  rfl

theorem Alike.tick (h : s.Alike s') : Option.Rel Alike s.tick? s'.tick? := by
  unfold tick?
  rw [h.alarms]
  cases s.alarms.min? with
  | none => exact .none
  | some moment =>
    simp only [Option.bind_eq_bind, Option.bind_some]
    refine rel_bind (h.happens (.passTime moment)) fun a b hab => ?_
    have hcan := hab.canRun
    obtain ⟨hab⟩ := hab
    rw [hcan]
    exact .some (Alike.enqueue ⟨hab⟩)

theorem Alike.next (h : s.Alike s') : Option.Rel Alike s.next? s'.next? := by
  have hqueue : s'.queue = s.queue := by
    obtain ⟨h⟩ := h
    rfl
  have hrequeue (queue : List Task) : Alike { s with queue } { s' with queue } := by
    obtain ⟨h⟩ := h
    exact ⟨h⟩
  unfold next?
  rw [hqueue, h.canRun]
  cases s.queue with
  | nil =>
    dsimp only
    split
    · exact .some (hrequeue _)
    · exact h.tick
  | cons task rest =>
    have hturn := h.turn task
    dsimp only
    generalize s.turn? task = x, s'.turn? task = y at hturn ⊢
    cases hturn with
    | none => exact .some (hrequeue _)
    | some hnext => exact .some hnext.enqueue

/-! ## Runs -/

theorem Alike.runFor (h : s.Alike s') (n : Nat) : (s.runFor n).Alike (s'.runFor n) := by
  induction n generalizing s s' with
  | zero => exact h
  | succ n ih =>
    have hresult : s'.trace.result? = s.trace.result? := by
      obtain ⟨plugins, fired, heard⟩ := h
      rfl
    have hnext := h.next
    unfold Simulation.runFor
    rw [hresult]
    split
    · exact h
    · generalize s.next? = x, s'.next? = y at hnext ⊢
      cases hnext with
      | none => exact h
      | some hnext => exact ih hnext

theorem Alike.run (h : s.Alike s') : s.run.Alike s'.run := by
  have hbudget : s'.budget = s.budget := by
    obtain ⟨plugins, fired, heard⟩ := h
    rfl
  unfold Simulation.run
  rw [hbudget]
  exact h.runFor s.budget

theorem Alike.outcome (h : s.Alike s') : s.trace.Alike s'.trace := by
  obtain ⟨h⟩ := h
  exact h

end Simulation

/-- Simulated over one network, a trace goes on in the same way whatever its plugins are. -/
theorem alike_trace (network : Network) (setup : TraceSetup) (a b : PluginSet) :
    (network.trace setup a).Alike (network.trace setup b) := by
  have hstart : (Simulation.start network (.start setup a)).Alike
      (Simulation.start network (.start setup b)) := ⟨Trace.alike_start setup a b⟩
  exact hstart.run.outcome

/-- Two traces that have sent the same probes at the same times and come to the same result, if to
any, at the same time. -/
structure Trace.SameCourse (t t' : Trace) : Prop where
  sent : t'.sent = t.sent
  result : t'.result? = t.result?
  now : t'.now = t.now

theorem Trace.Alike.sameCourse {t t' : Trace} (h : t.Alike t') : t.SameCourse t' := by
  obtain ⟨plugins, fired, heard⟩ := h
  exact ⟨rfl, rfl, rfl⟩

theorem result_reduceText (text : String) (destination : Address) (maxHops : UInt16)
    (a b : PluginSet) :
    (reduceText text destination maxHops b).result =
      (reduceText text destination maxHops a).result := by
  unfold reduceText
  cases HopTable.load text <;> rfl

/-- Plugins observe and never steer. Whatever two sets of plugins do when they are told of a hook,
the same events are possible under both, with the same probes sent at the same times and the same
result; over one network both traces take the same course; and a recorded table is cut down to the
same route. -/
theorem plugins_never_steer (a b : PluginSet) :
    (∀ setup events, Option.Rel Trace.SameCourse ((Trace.start setup a).run events)
      ((Trace.start setup b).run events)) ∧
    (∀ (network : Network) (setup : TraceSetup),
      (network.trace setup a).SameCourse (network.trace setup b)) ∧
    ∀ text destination maxHops, (reduceText text destination maxHops b).result =
      (reduceText text destination maxHops a).result := by
  refine ⟨fun setup events => ?_, fun network setup => (alike_trace network setup a b).sameCourse,
    fun text destination maxHops => result_reduceText text destination maxHops a b⟩
  exact rel_mono ((Trace.alike_start setup a b).run events) fun _ _ h => h.sameCourse

end HopTrace
