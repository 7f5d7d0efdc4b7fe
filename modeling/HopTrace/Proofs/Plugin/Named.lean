import HopTrace.Proofs.Plugin.Calls
import Mathlib.Tactic.SplitIfs

/-!
# Hooks invoked by name

A name and a list of arguments invoke at most one hook: the one that may be
spelled like this and has just these arguments. Then every plugin gets the hook
as if it had been fired; otherwise every plugin is skipped with the same
warning.
-/

namespace HopTrace

/-! ## Names -/

inductive HookName.Spelled : String → HookName → Prop
  | own (n : HookName) : Spelled n.text n
  | older : Spelled "OnIPFound" .newIpFound

namespace HookName

variable {s : String} {n : HookName}

theorem ofText_of_spelled (h : Spelled s n) : ofText s = .ok n := by
  cases h with
  | own => cases n <;> rfl
  | older => rfl

theorem spelled_of_ofText (h : ofText s = .ok n) : Spelled s n := by
  unfold ofText at h
  split_ifs at h with dns ip ttl completed
  · cases h
    exact dns ▸ .own .dnsResolve
  · cases h
    rcases ip with new | older
    · exact new ▸ .own .newIpFound
    · exact older ▸ .older
  · cases h
    exact ttl ▸ .own .ttlChange
  · cases h
    exact completed ▸ .own .ttlCompleted

theorem eq_unknownHook_of_ofText {e : PluginError} (h : ofText s = .error e) :
    e = .unknownHook s := by
  unfold ofText at h
  split_ifs at h
  cases h
  rfl

theorem ofText_of_not_spelled (h : ∀ n, ¬ Spelled s n) : ofText s = .error (.unknownHook s) := by
  cases hs : ofText s with
  | ok n => exact absurd (spelled_of_ofText hs) (h n)
  | error e => rw [eq_unknownHook_of_ofText hs]

end HookName

/-! ## Arguments -/

structure Hook.InvokedBy (name : String) (args : List HookArg) (h : Hook) : Prop where
  spelled : h.name.Spelled name
  fits : args = h.args

namespace Hook

variable {n : HookName} {args : List HookArg} {h : Hook}

theorem ofArgs_args (h : Hook) : ofArgs h.name h.args = .ok h := by
  cases h <;> rfl

theorem fits_of_ofArgs (hargs : ofArgs n args = .ok h) : h.name = n ∧ args = h.args := by
  unfold ofArgs at hargs
  split at hargs
  all_goals cases hargs
  all_goals exact ⟨rfl, rfl⟩

theorem eq_badArguments_of_ofArgs {e : PluginError} (hargs : ofArgs n args = .error e) :
    e = .badArguments n := by
  unfold ofArgs at hargs
  split at hargs
  all_goals cases hargs
  rfl

theorem ofArgs_of_not_fits (unfit : ∀ h : Hook, h.name = n → args ≠ h.args) :
    ofArgs n args = .error (.badArguments n) := by
  cases hargs : ofArgs n args with
  | ok h =>
    obtain ⟨hname, hfits⟩ := fits_of_ofArgs hargs
    exact absurd hfits (unfit h hname)
  | error e => rw [eq_badArguments_of_ofArgs hargs]

end Hook

/-! ## Invocations -/

/-- Why an invocation is refused: no hook has the name, or the one that has it takes other
arguments. -/
inductive Hook.Refused (name : String) (args : List HookArg) : PluginError → Prop
  | unknown (unknown : ∀ n, ¬ HookName.Spelled name n) : Hook.Refused name args (.unknownHook name)
  | unfit {n : HookName} (spelled : n.Spelled name)
      (unfit : ∀ h : Hook, h.name = n → args ≠ h.args) : Hook.Refused name args (.badArguments n)

variable {name : String} {args : List HookArg} {h : Hook}

namespace Plugin

theorem executeNamed_of_invoked (invoked : h.InvokedBy name args) (p : Plugin) :
    p.executeNamed name args = p.execute h := by
  obtain ⟨spelled, rfl⟩ := invoked
  simp only [executeNamed, HookName.ofText_of_spelled spelled, Hook.ofArgs_args]

theorem executeNamed_of_refused {e : PluginError} (refused : Hook.Refused name args e)
    (p : Plugin) : p.executeNamed name args = (p, { log := [p.skipped e] }) := by
  cases refused with
  | unknown unknown => simp only [executeNamed, HookName.ofText_of_not_spelled unknown]
  | unfit spelled unfit =>
    simp only [executeNamed, HookName.ofText_of_spelled spelled, Hook.ofArgs_of_not_fits unfit]

end Plugin

theorem exists_refused (invokes : ∀ h : Hook, ¬ h.InvokedBy name args) :
    ∃ e, Hook.Refused name args e := by
  by_cases spelled : ∃ n : HookName, n.Spelled name
  · obtain ⟨n, spelled⟩ := spelled
    refine ⟨_, .unfit spelled fun h hname fits => invokes h ⟨?_, fits⟩⟩
    rwa [hname]
  · exact ⟨_, .unknown fun n hn => spelled ⟨n, hn⟩⟩

namespace PluginSet

theorem fireNamed_of_invoked (invoked : h.InvokedBy name args) (s : PluginSet) :
    s.fireNamed name args = s.fire h := by
  have hact : (fun p : Plugin => p.executeNamed name args) = (·.execute h) :=
    funext (Plugin.executeNamed_of_invoked invoked)
  rw [fireNamed, hact]
  rfl

theorem fireNamed_of_refused {e : PluginError} (refused : Hook.Refused name args e)
    (s : PluginSet) : s.fireNamed name args = (s, { log := s.plugins.map (·.skipped e) }) := by
  have hact : (fun p : Plugin => p.executeNamed name args) =
      fun p => (p, { log := [p.skipped e] }) :=
    funext (Plugin.executeNamed_of_refused refused)
  have hlog : s.plugins.map (·.skipped e) = s.plugins.flatMap fun p => [p.skipped e] :=
    List.map_eq_flatMap
  rw [fireNamed, hact, hlog]
  simp [each, Effects.join, Function.comp_def, List.flatMap_map]

/-- A name with arguments that invokes a hook is the same as firing it, which calls each plugin once
with the hook and leaves behind what the calls come to. Any other calls nobody and leaves one
warning for each plugin, with the reason. Each hook is invoked by its own name and arguments. -/
theorem fireNamed_exact (s : PluginSet) (name : String) (args : List HookArg) :
    (∀ h : Hook, h.InvokedBy name args → s.fireNamed name args = s.fire h ∧
        s.fireNamed name args =
          (s.told [h], Effects.join ((s.calls [h]).map Plugin.Call.effects)) ∧
        (s.calls [h]).map (fun c => (c.place, c.hook)) = (List.range s.size).map (·, h)) ∧
      ((∀ h : Hook, ¬ h.InvokedBy name args) → ∃ e, Hook.Refused name args e ∧
        s.fireNamed name args = (s, { log := s.plugins.map (·.skipped e) })) ∧
      ∀ h : Hook, s.fireNamed h.name.text h.args = s.fire h := by
  refine ⟨fun h invoked => ?_, fun invokes => ?_, fun h => ?_⟩
  · have hfire := fireNamed_of_invoked invoked s
    refine ⟨hfire, hfire.trans (s.fire_calls h), ?_⟩
    rw [places_calls, List.flatMap_singleton]
  · obtain ⟨e, refused⟩ := exists_refused invokes
    exact ⟨e, refused, fireNamed_of_refused refused s⟩
  · exact fireNamed_of_invoked ⟨.own h.name, rfl⟩ s

/-- The older name of a hook, and arguments in the wrong order. -/
theorem fireNamed_exact_swapped :
    let s : PluginSet := ⟨[{ name := "a" }, { name := "b" }]⟩
    let a : Address := .v4 ⟨10, 0, 0, 1⟩
    Hook.InvokedBy "OnIPFound" [.address a] (.newIpFound a) ∧
      s.fireNamed "OnIPFound" [.address a] = s.fire (.newIpFound a) ∧
      (s.fireNamed "OnIPFound" [.address a]).1 = s.told [.newIpFound a] ∧
      (∀ h : Hook, ¬ h.InvokedBy "OnTTLCompleted" [.hops [], .ttl 3]) ∧
      (s.fireNamed "OnTTLCompleted" [.hops [], .ttl 3]).1 = s ∧
      (s.fireNamed "OnTTLCompleted" [.hops [], .ttl 3]).2.log.length = 2 := by
  intro s a
  have invoked : Hook.InvokedBy "OnIPFound" [.address a] (.newIpFound a) := ⟨.older, rfl⟩
  have swapped (h : Hook) : ¬ h.InvokedBy "OnTTLCompleted" [.hops [], .ttl 3] := by
    rintro ⟨-, fits⟩
    cases h <;> simp [Hook.args] at fits
  obtain ⟨fires, -, -⟩ := fireNamed_exact s "OnIPFound" [.address a]
  obtain ⟨-, skips, -⟩ := fireNamed_exact s "OnTTLCompleted" [.hops [], .ttl 3]
  obtain ⟨e, -, hskipped⟩ := skips swapped
  obtain ⟨fired, called, -⟩ := fires _ invoked
  exact ⟨invoked, fired, congrArg Prod.fst called, swapped, congrArg Prod.fst hskipped,
    congrArg (·.2.log.length) hskipped⟩

end PluginSet

end HopTrace
