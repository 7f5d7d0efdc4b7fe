import HopTrace.Barrier.Basic
import HopTrace.Handles

/-!
# Driving a barrier by hand

Waits under names, one step at a time.
-/

namespace HopTrace.Barrier

structure Session where
  barrier : Barrier := {}
  handles : Handles := {}
  deriving DecidableEq, Repr

inductive Action
  | add
  | done
  deriving DecidableEq, Repr

namespace Session

def report (s : Session) (answer : HandleAnswer) (events : List BarrierEvent) :
    HandleReport where
  answer
  woken := s.handles.namesOf (events.filterMap fun
    | .woken w => some w
    | _ => none)
  log := events.filterMap (·.log?)

def step (s : Session) : HandleStep Action → Session × HandleReport
  | .make name =>
    let waiter := s.barrier.waiters.size
    let barrier := s.barrier.wait
    let barrier := match s.handles.find? name with
      | none => barrier
      | some old => barrier.drop old
    let s := { s with barrier, handles := s.handles.put name waiter }
    (s, s.report .done [])
  | .poll name =>
    match s.handles.find? name with
    | none => (s, s.report .absent [])
    | some waiter =>
      let (barrier, released) := s.barrier.poll waiter
      let s := { s with barrier }
      let answer := match released with
        | some true => .ready
        | some false => .pending
        | none => .consumed
      (s, s.report answer [])
  | .drop name =>
    match s.handles.find? name with
    | none => (s, s.report .absent [])
    | some waiter =>
      let s := { s with barrier := s.barrier.drop waiter, handles := s.handles.remove name }
      (s, s.report .dropped [])
  | .act .add =>
    let s := { s with barrier := s.barrier.add }
    (s, s.report .done [])
  | .act .done =>
    let (barrier, events) := s.barrier.done
    let s := { s with barrier }
    (s, s.report .done events)

end Session

end HopTrace.Barrier
