/-!
# A signal that coalesces

At most one wake is pending. Raising a pending signal has no effect; raising
any other wakes all who wait, and the first of them to look takes the wake.
-/

namespace HopTrace

/-- Where someone who waits stands: not yet polled, waiting to be woken, woken, or done. -/
inductive Signal.Waiter
  | fresh
  | parked
  | woken
  | consumed
  | withdrawn
  deriving DecidableEq, Repr

/-- Those who wait are numbered in the order in which they came. -/
structure Signal where
  pending : Bool := false
  waiters : Array Signal.Waiter := #[]
  deriving DecidableEq, Repr

namespace Signal

def put (s : Signal) (waiter : Nat) (w : Signal.Waiter) : Signal :=
  { s with waiters := s.waiters.setIfInBounds waiter w }

def parked (s : Signal) : List Nat :=
  (List.range s.waiters.size).filter fun w => s.waiters[w]? = some .parked

/-- Raises the signal; the second part is who is woken. -/
def raise (s : Signal) : Signal × List Nat :=
  if s.pending then (s, [])
  else
    ({ pending := true
       waiters := s.waiters.map fun w => if w = .parked then .woken else w }, s.parked)

def tryTake (s : Signal) : Signal × Bool := ({ s with pending := false }, s.pending)

/-- Starts to wait; nothing happens before the first poll. -/
def wait (s : Signal) : Signal := { s with waiters := s.waiters.push .fresh }

/-- Asks for the wake; nothing if it was taken before. One who is parked is not served until
woken. -/
def poll (s : Signal) (waiter : Nat) : Signal × Option Bool :=
  match s.waiters[waiter]? with
  | some .parked => (s, some false)
  | some .consumed => (s, none)
  | some .withdrawn => (s, none)
  | none => (s, none)
  | some _ =>
    if s.pending then ({ s.put waiter .consumed with pending := false }, some true)
    else (s.put waiter .parked, some false)

def drop (s : Signal) (waiter : Nat) : Signal := s.put waiter .withdrawn

end Signal

end HopTrace
