import HopTrace.Plugin.Recorder
import HopTrace.Proofs.Plugin.Calls
import HopTrace.Proofs.Plugin.Named

/-!
# Every plugin gets every hook

Hooks are fired, or invoked by name, one after the other. Each invocation calls
every plugin once and in order, and no plugin notices the others: how it stands
at its calls depends on the hooks alone, whoever else is called and whichever
calls fail.
-/

namespace HopTrace

namespace PluginSet

inductive Invocation
  | typed (h : Hook)
  | named (name : String) (args : List HookArg)
  deriving DecidableEq, Repr

def Invocation.Means : Invocation → Hook → Prop
  | .typed h, h' => h = h'
  | .named name args, h => h.InvokedBy name args

variable {s : PluginSet} {i : Invocation} {h : Hook} {invocations : List Invocation}
  {hooks : List Hook}

def invoke (s : PluginSet) : Invocation → PluginSet × Effects
  | .typed h => s.fire h
  | .named name args => s.fireNamed name args

def invokeAll (s : PluginSet) : List Invocation → PluginSet × Effects
  | [] => (s, {})
  | i :: rest =>
    let (s, first) := s.invoke i
    let (s, others) := s.invokeAll rest
    (s, first ++ others)

theorem invoke_of_means (means : i.Means h) (s : PluginSet) : s.invoke i = s.fire h := by
  cases i with
  | typed h' => exact congrArg s.fire means
  | named name args => exact fireNamed_of_invoked means s

theorem invokeAll_of_means (means : List.Forall₂ Invocation.Means invocations hooks)
    (s : PluginSet) : s.invokeAll invocations = s.fireAll hooks := by
  induction means generalizing s with
  | nil => rfl
  | cons first _ ih => simp only [invokeAll, fireAll, invoke_of_means first, ih]

/-- The calls made by invocations of hooks are one of each plugin, in order, for each hook in turn:
a plugin has been called with these hooks in the end, and the calls leave behind what they come to,
one after the other, with a warning for each that fails. A plugin is called alike wherever it stands
in whatever set. -/
theorem broadcast_isolated (means : List.Forall₂ Invocation.Means invocations hooks)
    (s : PluginSet) :
    let run := s.invokeAll invocations
    (s.calls hooks).map (fun c => (c.place, c.hook)) =
        hooks.flatMap (fun h => (List.range s.size).map (·, h)) ∧
      run = (s.told hooks, Effects.join ((s.calls hooks).map Plugin.Call.effects)) ∧
      run.2.log.filter (·.level = .warn) = (s.calls hooks).flatMap (fun c =>
        c.reaction.effects.log.filter (·.level = .warn) ++ c.warnings) ∧
      ∀ (s' : PluginSet) (i j : Nat), s'.plugins[j]? = s.plugins[i]? →
        s'.callsAt j hooks = s.callsAt i hooks ∧
          (s'.invokeAll invocations).1.plugins[j]? = run.1.plugins[i]? := by
  intro run
  have hrun : run = (s.told hooks, Effects.join ((s.calls hooks).map Plugin.Call.effects)) := by
    rw [← fireAll_eq, ← fireAll_effects]
    exact invokeAll_of_means means s
  refine ⟨s.places_calls hooks, hrun, ?_, fun s' i j same => ⟨callsAt_congr same hooks, ?_⟩⟩
  · rw [hrun]
    simp only [Effects.join, List.flatMap_map, List.filter_flatMap, Plugin.Call.filter_warnings]
  · rw [invokeAll_of_means means s', hrun, fireAll_eq, getElem?_told, getElem?_told, same]

def refusing : PluginSet :=
  ⟨[({ name := "a", refuses := ["OnTTLChange"] } : Recorder).plugin,
    ({ name := "b" } : Recorder).plugin]⟩

def announcing : List Invocation :=
  [.typed (.ttlChange 2), .named "OnIPFound" [.address (.v4 ⟨10, 0, 0, 1⟩)]]

def announced : List Hook := [.ttlChange 2, .newIpFound (.v4 ⟨10, 0, 0, 1⟩)]

theorem broadcast_isolated_refused :
    List.Forall₂ Invocation.Means announcing announced ∧
      (refusing.invokeAll announcing).2.notes =
        announced.flatMap (fun h => [⟨"a", h⟩, ⟨"b", h⟩]) ∧
      ((refusing.invokeAll announcing).2.log.filter (·.level = .warn)).map (·.message) =
        ["Plugin hook failed"] ∧
      ((⟨[({ name := "b" } : Recorder).plugin]⟩ : PluginSet).invokeAll announcing).1.plugins[0]? =
        (refusing.invokeAll announcing).1.plugins[1]? := by
  have means : List.Forall₂ Invocation.Means announcing announced :=
    .cons rfl (.cons ⟨.older, rfl⟩ .nil)
  obtain ⟨-, hrun, hwarnings, alone⟩ := broadcast_isolated means refusing
  refine ⟨means, (congrArg (·.2.notes) hrun).trans rfl, ?_, (alone _ 1 0 rfl).2⟩
  rw [hwarnings]
  rfl

end PluginSet

end HopTrace
