import HopTrace.Proofs.Trace.Move
import Mathlib.Data.Option.Basic

/-!
# Plugins do not steer

Two traces are alike if they differ at most in their plugins and in what these
leave behind. What can happen to one of them can happen to the other, and then
they are alike again: a trace tells its plugins the hooks and takes nothing back.
-/

namespace HopTrace

/-- Both parts of an optional computation agree, or neither gives anything. -/
theorem rel_bind {α β γ δ : Type} {r : α → β → Prop} {r' : γ → δ → Prop} {x : Option α}
    {y : Option β} {f : α → Option γ} {g : β → Option δ} (h : Option.Rel r x y)
    (hf : ∀ a b, r a b → Option.Rel r' (f a) (g b)) : Option.Rel r' (x.bind f) (y.bind g) := by
  cases h with
  | none => exact .none
  | some h => exact hf _ _ h

theorem rel_mono {α β : Type} {r r' : α → β → Prop} {x : Option α} {y : Option β}
    (h : Option.Rel r x y) (hr : ∀ a b, r a b → r' a b) : Option.Rel r' x y := by
  cases h with
  | none => exact .none
  | some h => exact .some (hr _ _ h)

theorem isSome_of_rel {α β : Type} {r : α → β → Prop} {x : Option α} {y : Option β}
    (h : Option.Rel r x y) : y.isSome = x.isSome := by
  cases h <;> rfl

namespace Trace

variable {t t' : Trace} {e : TraceEvent} {plugins : PluginSet} {fired : List Firing}

def told (f : Firing) : Nat × Hook := (f.time, f.hook)

/-- The same trace with other plugins, which have been told the same hooks at the same times. -/
inductive Alike (t : Trace) : Trace → Prop
  | intro (plugins : PluginSet) (fired : List Firing) (heard : fired.map told = t.fired.map told) :
      Alike t { t with plugins, fired }

/-! ## What fires hooks -/

theorem told_firings (now : Nat) (plugins : PluginSet) (hooks : List Hook) :
    (firings now plugins hooks).map told = (hooks.map (now, ·)).reverse := by
  induction hooks generalizing plugins with
  | nil => rfl
  | cons h hs ih => simp [firings, ih, told]

theorem Alike.check (h : t.Alike t') (ttl : UInt16) : (t.check ttl).Alike (t'.check ttl) := by
  obtain ⟨plugins, fired, heard⟩ := h
  unfold Trace.check Signal.tryTake
  dsimp only
  split
  · exact ⟨plugins, fired, heard⟩
  · exact ⟨_, _, congrArg ((t.now, Hook.ttlChange ttl) :: ·) heard⟩

theorem Alike.fire (h : t.Alike t') (hook : Hook) : (t.fire hook).Alike (t'.fire hook) := by
  obtain ⟨plugins, fired, heard⟩ := h
  exact ⟨_, _, congrArg ((t.now, hook) :: ·) heard⟩

/-! ## What does not -/

theorem Alike.advance (h : t.Alike t') (ttl : UInt16) :
    (t.advance ttl).Alike (t'.advance ttl) := by
  obtain ⟨plugins, fired, heard⟩ := h
  unfold Trace.advance
  dsimp only
  split <;> exact ⟨plugins, fired, heard⟩

theorem Alike.putProbe (h : t.Alike t') (i : Nat) (p : Probe) :
    (t.putProbe i p).Alike (t'.putProbe i p) := by
  obtain ⟨plugins, fired, heard⟩ := h
  exact ⟨plugins, fired, heard⟩

theorem Alike.conclude (h : t.Alike t') : t.conclude.Alike t'.conclude := by
  obtain ⟨plugins, fired, heard⟩ := h
  unfold Trace.conclude
  dsimp only
  cases t.sendError <;> exact ⟨plugins, fired, heard⟩

/-! ## Steps -/

theorem Alike.mainStep (h : t.Alike t') : Option.Rel Alike t.mainStep? t'.mainStep? := by
  have hcheck := h.check
  have hadvance := h.advance
  have hconclude := h.conclude
  obtain ⟨plugins, fired, heard⟩ := h
  unfold mainStep?
  dsimp only
  cases t.stage with
  | checking ttl => exact .some (hcheck ttl)
  | requesting ttl left =>
    cases left with
    | zero =>
      dsimp only
      split
      · exact .some (hadvance ttl)
      · exact .some ⟨plugins, fired, heard⟩
    | succ left => exact .some ⟨plugins, fired, heard⟩
  | queued ttl left ticket =>
    dsimp only
    split
    · exact .some ⟨plugins, fired, heard⟩
    · exact .none
  | admitted | joined => exact .some ⟨plugins, fired, heard⟩
  | pausing ttl wake =>
    dsimp only
    split
    · exact .some (hadvance ttl)
    · exact .none
  | draining ticket =>
    dsimp only
    split
    · exact .some ⟨plugins, fired, heard⟩
    · exact .none
  | closing =>
    cases t.dispatcher with
    | finished | crashed => exact .some ⟨plugins, fired, heard⟩
    | receiving | delivering => exact .none
  | joining =>
    dsimp only
    split
    · exact .some ⟨plugins, fired, heard⟩
    · exact .none
  | concluding => exact .some hconclude
  | done result => exact .none

theorem Alike.probeStep (h : t.Alike t') (i : Nat) :
    Option.Rel Alike (t.probeStep? i) (t'.probeStep? i) := by
  have hfire := h.fire
  obtain ⟨plugins, fired, heard⟩ := h
  unfold probeStep?
  dsimp only
  cases t.probes[i]? with
  | none => exact .none
  | some p =>
    simp only [Option.bind_eq_bind, Option.bind_some]
    cases p.phase with
    | spawned =>
      simp only [expect, atWaiting_eq]
      exact .some ⟨plugins, fired, heard⟩
    | sending | ended => exact .none
    | withdrawing | failing | expired | recording | released =>
      exact .some ⟨plugins, fired, heard⟩
    | awaiting since deadline =>
      cases p.slot with
      | answered | abandoned => exact .some ⟨plugins, fired, heard⟩
      | empty =>
        dsimp only
        split
        · exact .some ⟨plugins, fired, heard⟩
        · exact .none
    | settled o arrived news =>
      cases arrived with
      | true => exact .some ⟨plugins, fired, heard⟩
      | false =>
        cases news with
        | nil => exact .some ⟨plugins, fired, heard⟩
        | cons n news => exact .some ((hfire n.hook).putProbe i _)

theorem Alike.sendEnds (h : t.Alike t') (i : Nat) (r : SendEnd) :
    Option.Rel Alike (t.sendEnds? i r) (t'.sendEnds? i r) := by
  obtain ⟨plugins, fired, heard⟩ := h
  unfold sendEnds?
  dsimp only
  cases t.probes[i]? with
  | none => exact .none
  | some p =>
    simp only [Option.bind_eq_bind, Option.bind_some]
    cases p.phase with
    | sending since => cases r <;> exact .some ⟨plugins, fired, heard⟩
    | _ => exact .none

theorem Alike.dispatchStep (h : t.Alike t') :
    Option.Rel Alike t.dispatchStep? t'.dispatchStep? := by
  obtain ⟨plugins, fired, heard⟩ := h
  unfold dispatchStep?
  dsimp only
  cases t.dispatcher with
  | receiving =>
    dsimp only
    cases t.listener.receive? with
    | none =>
      dsimp only
      split
      · exact .some ⟨plugins, fired, heard⟩
      · exact .none
    | some received =>
      obtain ⟨m, listener⟩ := received
      cases m with
      | error => exact .some ⟨plugins, fired, heard⟩
      | ok d =>
        dsimp only
        cases t.setup.recognise d <;> exact .some ⟨plugins, fired, heard⟩
  | delivering key sender =>
    simp only [deliver, atWaiting_eq]
    exact .some ⟨plugins, fired, heard⟩
  | finished | crashed => exact .none

/-- What can happen to a trace can happen to one that is alike, and leaves the two alike. -/
theorem Alike.step (h : t.Alike t') (e : TraceEvent) :
    Option.Rel Alike (t.step e) (t'.step e) := by
  have listening (change : Option Listener) :
      Option.Rel Alike (change.map fun listener => { t with listener })
        (change.map fun listener => { t' with listener }) := by
    obtain ⟨plugins, fired, heard⟩ := h
    cases change with
    | none => exact .none
    | some listener => exact .some ⟨plugins, fired, heard⟩
  cases e with
  | main => exact h.mainStep
  | probe i => exact h.probeStep i
  | sendEnds i r => exact h.sendEnds i r
  | dispatch => exact h.dispatchStep
  | loop =>
    have hl := listening (t.listener.begin? t.now <|> t.listener.publish?)
    obtain ⟨plugins, fired, heard⟩ := h
    exact hl
  | refuse cause =>
    have hl := listening (t.listener.refuse? t.now cause)
    obtain ⟨plugins, fired, heard⟩ := h
    exact hl
  | readEnds r =>
    have hl := listening (t.listener.finish? r)
    obtain ⟨plugins, fired, heard⟩ := h
    exact hl
  | passTime now =>
    obtain ⟨plugins, fired, heard⟩ := h
    unfold Trace.step
    dsimp only
    split
    · exact .some ⟨plugins, fired, heard⟩
    · exact .none

theorem Alike.run (h : t.Alike t') (events : List TraceEvent) :
    Option.Rel Alike (t.run events) (t'.run events) := by
  induction events generalizing t t' with
  | nil => exact .some h
  | cons e rest ih =>
    rw [run_cons, run_cons]
    exact rel_bind (h.step e) fun _ _ h => ih h

theorem alike_start (setup : TraceSetup) (a b : PluginSet) :
    (start setup a).Alike (start setup b) := by
  unfold start
  dsimp only
  cases setup.params.fault? with
  | some e => exact ⟨b, [], rfl⟩
  | none =>
    simp only [fireAll_eq]
    exact ⟨_, _, by simp [told_firings, Trace.say]⟩

end Trace

end HopTrace
