import HopTrace.Hook
import HopTrace.Log

/-!
# Plugins

A plugin has a name and a reaction to each hook, which may depend on the hooks
it has been called with before. It can log, write notes, answer, or fail; what
it does not care about it answers with nothing.
-/

namespace HopTrace

structure Note where
  plugin : String
  hook : Hook
  deriving DecidableEq, Repr

structure Effects where
  log : List Log.Entry := []
  notes : List Note := []
  deriving DecidableEq, Repr

namespace Effects

def append (a b : Effects) : Effects := ⟨a.log ++ b.log, a.notes ++ b.notes⟩

instance : Append Effects := ⟨append⟩

def join (all : List Effects) : Effects := ⟨all.flatMap (·.log), all.flatMap (·.notes)⟩

end Effects

/-- What a plugin does when a hook is invoked. -/
structure Reaction (α : Type) where
  effects : Effects := {}
  result : Except PluginError α

structure Plugin where
  name : String
  /-- The hooks it has been called with, newest first. -/
  seen : List Hook := []
  onDnsResolve : List Hook → String → Reaction (Option Address) := fun _ _ => { result := .ok none }
  onNewIpFound : List Hook → Address → Reaction Unit := fun _ _ => { result := .ok () }
  onTtlChange : List Hook → UInt16 → Reaction Unit := fun _ _ => { result := .ok () }
  onTtlCompleted : List Hook → UInt16 → List Hop → Reaction Unit :=
    fun _ _ _ => { result := .ok () }

end HopTrace
