import HopTrace.Gate.Basic
import HopTrace.Handles

/-!
# Driving a gate by hand

Requests under names, one step at a time. Taking a name that is in use makes
the new request first and gives the old one up then.
-/

namespace HopTrace.Gate

structure Session where
  gate : Gate
  handles : Handles := {}
  deriving DecidableEq, Repr

/-- The one action that needs no handle. -/
inductive Action
  | finished
  deriving DecidableEq, Repr

namespace Session

def report (s : Session) (answer : HandleAnswer) (events : List GateEvent) : HandleReport where
  answer
  woken := s.handles.namesOf (events.filterMap fun
    | .woken r => some r
    | _ => none)
  log := events.filterMap (·.log?)

def step (s : Session) : HandleStep Action → Session × HandleReport
  | .make name =>
    let request := s.gate.requests.size
    let (gate, made) := s.gate.start
    let handles := s.handles.put name request
    match s.handles.find? name with
    | none =>
      let s := { s with gate, handles }
      (s, s.report .done made)
    | some old =>
      let (gate, given) := gate.drop old
      let s := { s with gate, handles }
      (s, s.report .done (made ++ given))
  | .poll name =>
    match s.handles.find? name with
    | none => (s, s.report .absent [])
    | some request =>
      let (gate, ready) := s.gate.poll request
      let s := { s with gate }
      (s, s.report (if ready then .ready else .pending) [])
  | .drop name =>
    match s.handles.find? name with
    | none => (s, s.report .absent [])
    | some request =>
      let (gate, events) := s.gate.drop request
      let s := { s with gate, handles := s.handles.remove name }
      (s, s.report .dropped events)
  | .act .finished =>
    let (gate, events) := s.gate.finished
    let s := { s with gate }
    (s, s.report .done events)

end Session

end HopTrace.Gate
