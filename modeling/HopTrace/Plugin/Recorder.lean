import HopTrace.Json.Value
import HopTrace.Plugin.Basic

/-!
# Recorders

A recorder writes down every hook it is called with, and then fails if it was
told to refuse that hook. It may know the address of every domain, and may ask
for parameters of a kind.
-/

namespace HopTrace

/-- The kind of parameters that a recorder asks for. -/
inductive ParamsKind
  | any
  | object
  | string
  | unobtainable
  deriving DecidableEq, Repr

structure Recorder where
  name : String
  refuses : List String := []
  resolves : Option Address := none
  needs : ParamsKind := .any
  deriving DecidableEq, Repr

namespace Recorder

def respond {α : Type} (r : Recorder) (h : Hook) (answer : α) : Reaction α where
  effects := { notes := [⟨r.name, h⟩] }
  result :=
    if r.refuses.contains h.name.text then
      .error (.failed r.name (h.name.text ++ " refused"))
    else .ok answer

def plugin (r : Recorder) : Plugin where
  name := r.name
  onDnsResolve _ domain := r.respond (.dnsResolve domain) r.resolves
  onNewIpFound _ a := r.respond (.newIpFound a) ()
  onTtlChange _ ttl := r.respond (.ttlChange ttl) ()
  onTtlCompleted _ ttl hops := r.respond (.ttlCompleted ttl hops) ()

def construct (r : Recorder) (params : Json.Value) : Option Plugin :=
  match r.needs, params with
  | .any, _ => some r.plugin
  | .object, .object _ => some r.plugin
  | .string, .string _ => some r.plugin
  | _, _ => none

end Recorder

end HopTrace
