import HopTrace.Handles
import HopTrace.Signal.Basic

/-!
# Driving a signal by hand

Waits under names, one step at a time.
-/

namespace HopTrace.Signal

structure Session where
  signal : Signal := {}
  handles : Handles := {}
  deriving DecidableEq, Repr

inductive Action
  | raise
  | tryTake
  deriving DecidableEq, Repr

namespace Session

def report (s : Session) (answer : HandleAnswer) (woken : List Nat) : HandleReport where
  answer
  woken := s.handles.namesOf woken

def step (s : Session) : HandleStep Action → Session × HandleReport
  | .make name =>
    let waiter := s.signal.waiters.size
    let signal := s.signal.wait
    let signal := match s.handles.find? name with
      | none => signal
      | some old => signal.drop old
    let s := { s with signal, handles := s.handles.put name waiter }
    (s, s.report .done [])
  | .poll name =>
    match s.handles.find? name with
    | none => (s, s.report .absent [])
    | some waiter =>
      let (signal, served) := s.signal.poll waiter
      let s := { s with signal }
      let answer := match served with
        | some true => .ready
        | some false => .pending
        | none => .consumed
      (s, s.report answer [])
  | .drop name =>
    match s.handles.find? name with
    | none => (s, s.report .absent [])
    | some waiter =>
      let s := { s with signal := s.signal.drop waiter, handles := s.handles.remove name }
      (s, s.report .dropped [])
  | .act .raise =>
    let (signal, woken) := s.signal.raise
    let s := { s with signal }
    (s, s.report .done woken)
  | .act .tryTake =>
    let (signal, taken) := s.signal.tryTake
    let s := { s with signal }
    (s, s.report (.flag taken) [])

end Session

end HopTrace.Signal
