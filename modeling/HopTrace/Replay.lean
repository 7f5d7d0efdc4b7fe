import HopTrace.Json.Scan
import HopTrace.Params.Basic
import HopTrace.Plugin.Dispatch
import HopTrace.Route.Codec
import HopTrace.Route.Reduction

/-!
# Replaying a recorded trace

The hooks of a trace are fired again from its hop table, row by row, and the
table is then cut down to the route. Each address is announced where a
successful probe first shows it.
-/

namespace HopTrace

/-- The hooks for the new addresses of a row, and the addresses known after it. -/
def newAddresses : List Address → List Hop → List Hook × List Address
  | seen, [] => ([], seen)
  | seen, h :: hops =>
    match h.answeredBy with
    | some a =>
      if a ∈ seen then newAddresses seen hops
      else
        let (hooks, seen) := newAddresses (a :: seen) hops
        (.newIpFound a :: hooks, seen)
    | none => newAddresses seen hops

/-- The hooks of rows in order, given the addresses known before them. -/
def replayRows : List Address → List Row → List Hook
  | _, [] => []
  | seen, (ttl, hops) :: rows =>
    let (found, seen) := newAddresses seen hops
    .ttlChange ttl :: found ++ .ttlCompleted ttl hops :: replayRows seen rows

def HopTable.replay (t : HopTable) : List Hook := replayRows [] t.rows

/-- Why a table was not reduced: the error reported, or a time span nobody can hold. -/
inductive LoadFailure
  | rejected (e : TraceError)
  | spanTooLong
  deriving DecidableEq, Repr

def HopTable.load (text : String) : Except LoadFailure HopTable :=
  match HopTable.ofText text with
  | .ok t => .ok t
  | .error .malformed => .error (.rejected (.invalidConfig "Invalid hop table"))
  | .error .spanTooLong => .error .spanTooLong

/-- A reduction: its outcome, the plugins after it, and what was left behind. -/
structure Reduced where
  result : Except LoadFailure HopTable
  plugins : PluginSet
  effects : Effects := {}

/-- Replays the table in `text` and keeps its hops up to `maxHops`. -/
def reduceText (text : String) (destination : Address) (maxHops : UInt16)
    (plugins : PluginSet) : Reduced :=
  match HopTable.load text with
  | .error e => { result := .error e, plugins }
  | .ok table =>
    let loaded : Log.Entry := ⟨.debug, "Loaded hop table",
      [("hops", .number table.size), ("destination", .text destination.text)]⟩
    let (plugins, fired) := plugins.fireAll table.replay
    let route := table.reduce (HopTable.boundAfter maxHops) destination
    let reduced : Log.Entry := ⟨.info, "Reduced route", [("hops", .number route.size)]⟩
    { result := .ok route
      plugins
      effects := ({ log := [loaded] } : Effects) ++ fired ++ { log := [reduced] } }

end HopTrace
