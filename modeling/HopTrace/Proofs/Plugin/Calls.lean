import HopTrace.Plugin.Dispatch
import Mathlib.Data.List.Basic

/-!
# Calls of plugins

A hook that is fired calls each plugin once, in order, whatever the calls come
to. A call leaves behind what the plugin does, and a line about what it
answers; only of a call that fails there is a warning.
-/

namespace HopTrace

open Log (Entry)

/-! ## Reactions -/

def Reaction.unanswered (r : Reaction Unit) : Reaction (Option Address) :=
  ⟨r.effects, r.result.map fun _ => none⟩

def Plugin.reaction (p : Plugin) : Hook → Reaction (Option Address)
  | .dnsResolve domain => p.onDnsResolve p.seen domain
  | .newIpFound a => (p.onNewIpFound p.seen a).unanswered
  | .ttlChange ttl => (p.onTtlChange p.seen ttl).unanswered
  | .ttlCompleted ttl hops => (p.onTtlCompleted p.seen ttl hops).unanswered

/-- A call of the plugin at some place of a set, as the plugin stands when it is called. -/
structure Plugin.Call where
  place : Nat
  plugin : Plugin
  hook : Hook

namespace Plugin.Call

variable (c : Plugin.Call)

def reaction : Reaction (Option Address) := c.plugin.reaction c.hook

def effects : Effects := c.plugin.react c.hook

def warnings : List Entry :=
  match c.reaction.result with
  | .error e => [c.plugin.failure c.hook.name e]
  | .ok _ => []

def resolutions : List Entry :=
  match c.hook, c.reaction.result with
  | .dnsResolve domain, .ok (some ip) => [c.plugin.resolved domain ip]
  | _, _ => []

theorem effects_eq : c.effects = c.reaction.effects ++ { log := c.resolutions ++ c.warnings } := by
  obtain ⟨place, p, h⟩ := c
  -- The three hooks that have no answer differ in nothing else.
  have settled (name : HookName) (r : Reaction Unit) :
      p.settle name (fun _ => []) r = r.effects ++
        { log := match r.unanswered.result with
            | .error e => [p.failure name e]
            | .ok _ => [] } := by
    unfold Plugin.settle Reaction.unanswered
    cases r.result <;> rfl
  cases h with
  | dnsResolve domain =>
    simp only [effects, Plugin.react, Plugin.settle, resolutions, warnings, reaction,
      Plugin.reaction]
    cases (p.onDnsResolve p.seen domain).result with
    | error e => rfl
    | ok answer => cases answer <;> rfl
  | newIpFound a => exact settled .newIpFound (p.onNewIpFound p.seen a)
  | ttlChange ttl => exact settled .ttlChange (p.onTtlChange p.seen ttl)
  | ttlCompleted ttl hops => exact settled .ttlCompleted (p.onTtlCompleted p.seen ttl hops)

/-- The warnings that a call leaves behind are those of the plugin, then the one about its
failure. -/
theorem filter_warnings : c.effects.log.filter (·.level = .warn) =
    c.reaction.effects.log.filter (·.level = .warn) ++ c.warnings := by
  have hresolutions : c.resolutions.filter (·.level = .warn) = [] := by
    unfold resolutions
    split <;> rfl
  have hwarnings : c.warnings.filter (·.level = .warn) = c.warnings := by
    unfold warnings
    split <;> rfl
  have hlog : c.effects.log = c.reaction.effects.log ++ (c.resolutions ++ c.warnings) :=
    congrArg Effects.log c.effects_eq
  rw [hlog, List.filter_append, List.filter_append, hresolutions, hwarnings, List.nil_append]

end Plugin.Call

theorem Effects.join_append (xs ys : List Effects) :
    Effects.join (xs ++ ys) = Effects.join xs ++ Effects.join ys := by
  rw [join, List.flatMap_append, List.flatMap_append]
  rfl

namespace PluginSet

variable {s s' : PluginSet} {i j : Nat}

/-- The plugins after they were called with hooks, in that order. -/
def told (s : PluginSet) (hooks : List Hook) : PluginSet :=
  ⟨s.plugins.map fun p => { p with seen := hooks.reverse ++ p.seen }⟩

@[simp] theorem told_nil (s : PluginSet) : s.told [] = s := by simp [told]

theorem told_told (s : PluginSet) (hooks more : List Hook) :
    (s.told hooks).told more = s.told (hooks ++ more) := by
  simp [told, Function.comp_def]

/-! ## Calls in order -/

def callEach (h : Hook) (first : Nat) (plugins : List Plugin) : List Plugin.Call :=
  (plugins.zipIdx first).map fun p => ⟨p.2, p.1, h⟩

/-- A call of each plugin with each hook: all with the first hook, then all with the next. -/
def calls (s : PluginSet) : List Hook → List Plugin.Call
  | [] => []
  | h :: hooks => callEach h 0 s.plugins ++ (s.told [h]).calls hooks

def callsAt (s : PluginSet) (i : Nat) (hooks : List Hook) : List (Plugin × Hook) :=
  ((s.calls hooks).filter (·.place = i)).map fun c => (c.plugin, c.hook)

theorem fire_eq (s : PluginSet) (h : Hook) : (s.fire h).1 = s.told [h] := by
  simp [fire, each, Plugin.execute, told, Function.comp_def]

theorem fire_effects (s : PluginSet) (h : Hook) :
    (s.fire h).2 = Effects.join ((callEach h 0 s.plugins).map Plugin.Call.effects) := by
  have hcalls : (callEach h 0 s.plugins).map Plugin.Call.effects = s.plugins.map (·.react h) := by
    rw [callEach, List.map_map]
    conv_rhs => rw [← List.zipIdx_map_fst 0 s.plugins, List.map_map]
    rfl
  rw [hcalls]
  simp [fire, each, Plugin.execute, Function.comp_def]

theorem fire_calls (s : PluginSet) (h : Hook) :
    s.fire h = (s.told [h], Effects.join ((s.calls [h]).map Plugin.Call.effects)) := by
  rw [calls, calls, List.append_nil, ← fire_eq, ← fire_effects]

theorem fireAll_eq (s : PluginSet) (hooks : List Hook) : (s.fireAll hooks).1 = s.told hooks := by
  induction hooks generalizing s with
  | nil => simp [fireAll]
  | cons h hooks ih =>
    rw [fireAll]
    dsimp only
    rw [ih, fire_eq, told_told, List.singleton_append]

theorem fireAll_effects (s : PluginSet) (hooks : List Hook) :
    (s.fireAll hooks).2 = Effects.join ((s.calls hooks).map Plugin.Call.effects) := by
  induction hooks generalizing s with
  | nil => rfl
  | cons h hooks ih =>
    rw [fireAll, calls]
    dsimp only
    rw [ih, fire_effects, fire_eq, List.map_append, Effects.join_append]

/-- Each hook calls all places, from the first to the last. -/
theorem places_calls (s : PluginSet) (hooks : List Hook) :
    (s.calls hooks).map (fun c => (c.place, c.hook)) =
      hooks.flatMap fun h => (List.range s.size).map (·, h) := by
  induction hooks generalizing s with
  | nil => rfl
  | cons h hooks ih =>
    have hsize : (s.told [h]).size = s.size := by simp [size, told]
    have hplaces : (callEach h 0 s.plugins).map (fun c => (c.place, c.hook)) =
        (List.range s.size).map (·, h) := by
      rw [callEach, List.map_map, size, List.range_eq_range', ← List.zipIdx_map_snd, List.map_map]
      rfl
    rw [calls, List.map_append, hplaces, ih, hsize, List.flatMap_cons]

/-! ## The calls of one plugin -/

/-- A hook calls the plugin at a place exactly once, if there is one. -/
theorem filter_callEach (h : Hook) (first i : Nat) (plugins : List Plugin) :
    (callEach h first plugins).filter (·.place = first + i) =
      (plugins[i]?.map fun p => ⟨first + i, p, h⟩).toList := by
  induction plugins generalizing first i with
  | nil => rfl
  | cons p plugins ih =>
    have hcalls : callEach h first (p :: plugins) =
        ⟨first, p, h⟩ :: callEach h (first + 1) plugins := rfl
    rw [hcalls]
    cases i with
    | zero =>
      have hothers : (callEach h (first + 1) plugins).filter (·.place = first) = [] := by
        rw [List.filter_eq_nil_iff]
        intro c hc
        obtain ⟨q, hq, rfl⟩ := List.mem_map.mp hc
        have hplace := List.le_snd_of_mem_zipIdx hq
        simp only [decide_eq_true_eq]
        omega
      rw [Nat.add_zero, List.filter_cons_of_pos (by simp), hothers]
      rfl
    | succ i =>
      have hplace : first + (i + 1) = first + 1 + i := by omega
      rw [List.filter_cons_of_neg (by simp), hplace, ih (first + 1) i, List.getElem?_cons_succ]

theorem getElem?_told (s : PluginSet) (hooks : List Hook) (i : Nat) :
    (s.told hooks).plugins[i]? =
      s.plugins[i]?.map fun p => { p with seen := hooks.reverse ++ p.seen } := by
  rw [told, List.getElem?_map]

/-- The calls of a plugin depend on nothing but the plugin and the hooks. -/
theorem callsAt_congr (same : s'.plugins[j]? = s.plugins[i]?) (hooks : List Hook) :
    s'.callsAt j hooks = s.callsAt i hooks := by
  induction hooks generalizing s s' with
  | nil => rfl
  | cons h hooks ih =>
    have htold : (s'.told [h]).plugins[j]? = (s.told [h]).plugins[i]? := by
      rw [getElem?_told, getElem?_told, same]
    have hrest := ih htold
    simp only [callsAt] at hrest
    have hfirst (t : PluginSet) (k : Nat) : (callEach h 0 t.plugins).filter (·.place = k) =
        (t.plugins[k]?.map fun p => ⟨k, p, h⟩).toList := by
      have hfilter := filter_callEach h 0 k t.plugins
      rwa [Nat.zero_add] at hfilter
    simp only [callsAt, calls, List.filter_append, List.map_append, hrest, hfirst, same]
    cases s.plugins[i]? <;> rfl

end PluginSet

end HopTrace
