import HopTrace.Log

/-!
# An admission gate

At most `capacity` holders are admitted at a time. A request takes its place in
line when it is made. A unit given back goes straight to the oldest request
that still wants it; one that was withdrawn in line is skipped only then.
-/

namespace HopTrace

/-- Where a request stands. A parked one has been polled in vain and is owed a wake-up. -/
inductive Standing
  | queued (parked : Bool)
  | granted
  | observed
  | withdrawn
  deriving DecidableEq, Repr

/-- Requests are numbered in the order in which they were made. -/
structure Gate where
  capacity : Nat
  admitted : Nat := 0
  /-- The requests in line, oldest first, withdrawn ones included. -/
  line : List Nat := []
  requests : Array Standing := #[]
  deriving DecidableEq, Repr

/-- What happens to requests, and what goes wrong. -/
inductive GateEvent
  | granted (request : Nat)
  | woken (request : Nat)
  | skipped (request : Nat)
  | returned (request : Nat)
  | unbalanced
  deriving DecidableEq, Repr

namespace Gate

def put (g : Gate) (request : Nat) (s : Standing) : Gate :=
  { g with requests := g.requests.setIfInBounds request s }

def start (g : Gate) : Gate × List GateEvent :=
  let request := g.requests.size
  if g.admitted < g.capacity then
    ({ g with admitted := g.admitted + 1, requests := g.requests.push .granted },
      [.granted request])
  else
    ({ g with line := g.line ++ [request], requests := g.requests.push (.queued false) }, [])

/-- Hands a unit to the first request of a line that still wants it, or back to the gate. -/
def handOver (g : Gate) : List Nat → Gate × List GateEvent
  | [] =>
    if g.admitted = 0 then ({ g with line := [] }, [.unbalanced])
    else ({ g with admitted := g.admitted - 1, line := [] }, [])
  | request :: rest =>
    match g.requests[request]? with
    | some (.queued parked) =>
      ({ g.put request .granted with line := rest },
        .granted request :: if parked then [.woken request] else [])
    | _ =>
      let (g, events) := g.handOver rest
      (g, .skipped request :: events)

def finished (g : Gate) : Gate × List GateEvent := g.handOver g.line

/-- Asks whether a request has been granted, and observes it if so. -/
def poll (g : Gate) (request : Nat) : Gate × Bool :=
  match g.requests[request]? with
  | some .granted => (g.put request .observed, true)
  | some .observed => (g, true)
  | some (.queued _) => (g.put request (.queued true), false)
  | _ => (g, false)

/-- Gives a request up. A grant nobody observed goes back; an observed one stays held. -/
def drop (g : Gate) (request : Nat) : Gate × List GateEvent :=
  match g.requests[request]? with
  | some .granted =>
    let (g, events) := (g.put request .withdrawn).finished
    (g, .returned request :: events)
  | some (.queued _) => (g.put request .withdrawn, [])
  | _ => (g, [])

end Gate

def GateEvent.log? : GateEvent → Option Log.Entry
  | .skipped _ => some ⟨.trace, "Skipping abandoned admission", []⟩
  | .returned _ => some ⟨.trace, "Returning unobserved admission", []⟩
  | .unbalanced =>
    some ⟨.warn, "ParallelLimiter::finished called without a matching admission", []⟩
  | .granted _ => none
  | .woken _ => none

end HopTrace
