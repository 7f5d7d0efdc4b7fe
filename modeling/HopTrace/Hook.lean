import HopTrace.Hop.Basic

/-!
# Hooks

The moments of a trace that plugins hear about. A hook is invoked by its typed
value, or by its name with positional arguments that have to fit it exactly.
-/

namespace HopTrace

inductive HookName
  | dnsResolve
  | newIpFound
  | ttlChange
  | ttlCompleted
  deriving DecidableEq, Repr

inductive Hook
  | dnsResolve (domain : String)
  | newIpFound (address : Address)
  | ttlChange (ttl : UInt16)
  | ttlCompleted (ttl : UInt16) (hops : List Hop)
  deriving DecidableEq, Repr

/-- A positional argument of a hook invoked by name. -/
inductive HookArg
  | text (s : String)
  | address (a : Address)
  | ttl (ttl : UInt16)
  | hops (hops : List Hop)
  deriving DecidableEq, Repr

inductive PluginError
  | unknownHook (name : String)
  | badArguments (hook : HookName)
  | failed (plugin message : String)
  deriving DecidableEq, Repr

namespace HookName

def text : HookName → String
  | .dnsResolve => "OnDNSResolve"
  | .newIpFound => "OnNewIPFound"
  | .ttlChange => "OnTTLChange"
  | .ttlCompleted => "OnTTLCompleted"

/-- The positional arguments that a hook takes. -/
def signature : HookName → String
  | .dnsResolve => "domain"
  | .newIpFound => "address"
  | .ttlChange => "ttl"
  | .ttlCompleted => "ttl, hops"

/-- A new address may also be announced under its older name. -/
def ofText (s : String) : Except PluginError HookName :=
  if s = "OnDNSResolve" then .ok .dnsResolve
  else if s = "OnNewIPFound" ∨ s = "OnIPFound" then .ok .newIpFound
  else if s = "OnTTLChange" then .ok .ttlChange
  else if s = "OnTTLCompleted" then .ok .ttlCompleted
  else .error (.unknownHook s)

end HookName

namespace Hook

def name : Hook → HookName
  | .dnsResolve _ => .dnsResolve
  | .newIpFound _ => .newIpFound
  | .ttlChange _ => .ttlChange
  | .ttlCompleted _ _ => .ttlCompleted

def ofArgs : HookName → List HookArg → Except PluginError Hook
  | .dnsResolve, [.text domain] => .ok (.dnsResolve domain)
  | .newIpFound, [.address a] => .ok (.newIpFound a)
  | .ttlChange, [.ttl ttl] => .ok (.ttlChange ttl)
  | .ttlCompleted, [.ttl ttl, .hops hops] => .ok (.ttlCompleted ttl hops)
  | name, _ => .error (.badArguments name)

def args : Hook → List HookArg
  | .dnsResolve domain => [.text domain]
  | .newIpFound a => [.address a]
  | .ttlChange ttl => [.ttl ttl]
  | .ttlCompleted ttl hops => [.ttl ttl, .hops hops]

end Hook

def PluginError.message : PluginError → String
  | .unknownHook name => "Hook " ++ name ++ " not found"
  | .badArguments hook =>
    "Hook " ++ hook.text ++ " expects arguments (" ++ hook.signature ++ ")"
  | .failed plugin message => "Plugin " ++ plugin ++ " failed: " ++ message

end HopTrace
