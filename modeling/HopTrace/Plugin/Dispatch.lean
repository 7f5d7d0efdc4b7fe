import HopTrace.Plugin.Basic
import HopTrace.Address.Text

/-!
# Delivering hooks

Every plugin of a set gets every hook, in order. A plugin that fails is logged
and otherwise ignored. A hook invoked by name is skipped, with a warning for
each plugin, if there is no such hook or its arguments do not fit.
-/

namespace HopTrace

open Log (Entry)

namespace Plugin

def failure (p : Plugin) (hook : HookName) (e : PluginError) : Entry :=
  ⟨.warn, "Plugin hook failed",
    [("plugin", .text p.name), ("hook", .text hook.text), ("error", .text e.message)]⟩

def resolved (p : Plugin) (domain : String) (ip : Address) : Entry :=
  ⟨.trace, "Plugin resolved domain",
    [("plugin", .text p.name), ("domain", .text domain), ("ip", .text ip.text)]⟩

def skipped (p : Plugin) (e : PluginError) : Entry :=
  ⟨.warn, "Skipping hook", [("plugin", .text p.name), ("error", .text e.message)]⟩

/-- What a reaction leaves behind once its failure has been logged. -/
def settle {α : Type} (p : Plugin) (hook : HookName) (onAnswer : α → List Entry)
    (r : Reaction α) : Effects :=
  match r.result with
  | .ok a => r.effects ++ { log := onAnswer a }
  | .error e => r.effects ++ { log := [p.failure hook e] }

def react (p : Plugin) : Hook → Effects
  | .dnsResolve domain =>
    p.settle .dnsResolve (fun answer => answer.toList.map (p.resolved domain))
      (p.onDnsResolve p.seen domain)
  | .newIpFound a => p.settle .newIpFound (fun _ => []) (p.onNewIpFound p.seen a)
  | .ttlChange ttl => p.settle .ttlChange (fun _ => []) (p.onTtlChange p.seen ttl)
  | .ttlCompleted ttl hops =>
    p.settle .ttlCompleted (fun _ => []) (p.onTtlCompleted p.seen ttl hops)

/-- Calls one plugin with a hook. -/
def execute (p : Plugin) (h : Hook) : Plugin × Effects :=
  ({ p with seen := h :: p.seen }, p.react h)

def executeNamed (p : Plugin) (name : String) (args : List HookArg) : Plugin × Effects :=
  match HookName.ofText name with
  | .error e => (p, { log := [p.skipped e] })
  | .ok hookName =>
    match Hook.ofArgs hookName args with
    | .error e => (p, { log := [p.skipped e] })
    | .ok h => p.execute h

end Plugin

/-- The plugins of a trace, in the order in which they were enabled. -/
structure PluginSet where
  plugins : List Plugin := []

namespace PluginSet

def names (s : PluginSet) : List String := s.plugins.map (·.name)

def size (s : PluginSet) : Nat := s.plugins.length

def isEmpty (s : PluginSet) : Bool := s.plugins.isEmpty

/-- Lets every plugin act in order. -/
def each (s : PluginSet) (act : Plugin → Plugin × Effects) : PluginSet × Effects :=
  let results := s.plugins.map act
  (⟨results.map (·.1)⟩, Effects.join (results.map (·.2)))

def fire (s : PluginSet) (h : Hook) : PluginSet × Effects := s.each (·.execute h)

def fireNamed (s : PluginSet) (name : String) (args : List HookArg) : PluginSet × Effects :=
  s.each (·.executeNamed name args)

def fireAll (s : PluginSet) : List Hook → PluginSet × Effects
  | [] => (s, {})
  | h :: hs =>
    let (s, first) := s.fire h
    let (s, rest) := s.fireAll hs
    (s, first ++ rest)

end PluginSet

end HopTrace
