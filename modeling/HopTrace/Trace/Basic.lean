import HopTrace.Barrier.Basic
import HopTrace.Gate.Basic
import HopTrace.Listener.Basic
import HopTrace.Params.Basic
import HopTrace.Plugin.Dispatch
import HopTrace.Probe
import HopTrace.Route.Reduction
import HopTrace.Signal.Basic

/-!
# The state of a trace

A trace consists of a main loop, the probes that it spawns, a listener, and a
dispatcher that hands replies to the probes. They share what is kept here. The
main loop counts the measurements of a hop that are still to be sent.
-/

namespace HopTrace

inductive Recognised
  | reply (key : ProbeKey) (sender : Address)
  | unrelated
  /-- It ends the dispatcher. -/
  | crash
  deriving DecidableEq, Repr

structure TraceSetup where
  destination : Address
  /-- The name from which the destination was resolved. -/
  hostname : Option String := none
  params : Params := {}
  listening : ListenerConfig := {}
  recognise : Datagram → Recognised

/-- A hook with the time at which it was fired and what the plugins left behind. -/
structure Firing where
  time : Nat
  hook : Hook
  effects : Effects

namespace Trace

inductive Stage
  /-- About to begin a hop. -/
  | checking (ttl : UInt16)
  | requesting (ttl : UInt16) (left : Nat)
  /-- In line for an admission. -/
  | queued (ttl : UInt16) (left ticket : Nat)
  | admitted (ttl : UInt16) (left : Nat)
  /-- The next probe counts in the group but has not been spawned. -/
  | joined (ttl : UInt16) (left : Nat)
  | pausing (ttl : UInt16) (wake : Nat)
  /-- Waiting for the probes. -/
  | draining (ticket : Nat)
  /-- Waiting for the dispatcher. -/
  | closing
  /-- Waiting for the receive loop. -/
  | joining
  | concluding
  | done (result : Except TraceError HopTable)

inductive Dispatcher
  | receiving
  | delivering (key : ProbeKey) (sender : Address)
  | finished
  | crashed
  deriving DecidableEq, Repr

end Trace

structure Trace where
  setup : TraceSetup
  /-- Nanoseconds since the start. -/
  now : Nat := 0
  stage : Trace.Stage
  gate : Gate
  group : Barrier := {}
  /-- Raised when the destination answers. -/
  arrival : Signal := {}
  listener : Listener
  dispatcher : Trace.Dispatcher := .receiving
  /-- All that have been spawned, in that order. -/
  probes : Array Probe := #[]
  /-- The probes that wait for a reply, by number. -/
  pending : List (ProbeKey × Nat) := []
  table : HopTable := .empty
  /-- The addresses announced. -/
  seen : List Address := []
  /-- The first failure to send. -/
  sendError : Option TraceError := none
  plugins : PluginSet
  /-- Newest first. -/
  fired : List Firing := []
  /-- When each probe was sent, newest first. -/
  sent : List (Nat × ProbeKey) := []
  log : List Log.Entry := []
  /-- What gate and group complain about. -/
  complaints : List Log.Entry := []

namespace Trace

def say (t : Trace) (e : Log.Entry) : Trace := { t with log := t.log ++ [e] }

def fire (t : Trace) (h : Hook) : Trace :=
  let (plugins, effects) := t.plugins.fire h
  { t with plugins, fired := ⟨t.now, h, effects⟩ :: t.fired }

def fireAll (t : Trace) : List Hook → Trace
  | [] => t
  | h :: hs => (t.fire h).fireAll hs

def measurements (t : Trace) : Nat := t.setup.params.numMeasurements.toNat

def result? (t : Trace) : Option (Except TraceError HopTable) :=
  match t.stage with
  | .done r => some r
  | _ => none

/-- The probes that have not ended, by number. -/
def live (t : Trace) : List Nat :=
  (List.range t.probes.size).filter fun i => t.probes[i]?.any (·.isLive)

/-- A trace up to its first wait. Faulty parameters end it there and then. -/
def start (setup : TraceSetup) (plugins : PluginSet) : Trace :=
  let p := setup.params
  let listener : Listener := { config := setup.listening }
  let t : Trace :=
    { setup, plugins, listener, stage := .checking p.beginHop
      gate := { capacity := p.parallelRequests.toNat } }
  match p.fault? with
  | some e => { t with stage := .done (.error e), listener := listener.drop }
  | none =>
    let t := t.fireAll (setup.hostname.toList.map .dnsResolve)
    { t with listener := listener.start }.say ⟨.info, "Starting traceroute", [
      ("destination", .text setup.destination.text),
      ("begin_hop", .number p.beginHop.toNat),
      ("max_hops", .number p.maxHops.toNat),
      ("num_measurements", .number p.numMeasurements.toNat)]⟩

end Trace

end HopTrace
