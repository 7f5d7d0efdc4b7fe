import HopTrace.Log

/-!
# A reusable barrier

Units of work are added and completed. Whoever waits is registered at once and
released by the completion that leaves no work; after that a new cycle begins.
-/

namespace HopTrace

/-- Where someone who waits stands. A parked one has been polled in vain. -/
inductive Barrier.Waiter
  | waiting (parked : Bool)
  | released
  | consumed
  | withdrawn
  deriving DecidableEq, Repr

/-- Those who wait are numbered in the order in which they came. -/
structure Barrier where
  outstanding : Nat := 0
  /-- Those registered in this cycle, withdrawn ones included. -/
  line : List Nat := []
  waiters : Array Barrier.Waiter := #[]
  deriving DecidableEq, Repr

inductive BarrierEvent
  | released (waiter : Nat)
  | woken (waiter : Nat)
  | overdone
  deriving DecidableEq, Repr

namespace Barrier

def put (b : Barrier) (waiter : Nat) (w : Barrier.Waiter) : Barrier :=
  { b with waiters := b.waiters.setIfInBounds waiter w }

def add (b : Barrier) : Barrier := { b with outstanding := b.outstanding + 1 }

/-- Releases those of a line who still wait. -/
def releaseAll (b : Barrier) : List Nat → Barrier × List BarrierEvent
  | [] => ({ b with line := [] }, [])
  | waiter :: rest =>
    match b.waiters[waiter]? with
    | some (.waiting parked) =>
      let (b, events) := (b.put waiter .released).releaseAll rest
      (b, .released waiter :: (if parked then [.woken waiter] else []) ++ events)
    | _ => b.releaseAll rest

/-- Completes one unit. Without one outstanding nothing changes but the log. -/
def done (b : Barrier) : Barrier × List BarrierEvent :=
  if b.outstanding = 0 then (b, [.overdone])
  else
    let b := { b with outstanding := b.outstanding - 1 }
    if b.outstanding = 0 then b.releaseAll b.line else (b, [])

/-- Starts to wait; the number is the count of those who did before. -/
def wait (b : Barrier) : Barrier :=
  if b.outstanding = 0 then { b with waiters := b.waiters.push .released }
  else
    { b with
      line := b.line ++ [b.waiters.size]
      waiters := b.waiters.push (.waiting false) }

/-- Asks whether the wait is over; nothing if that was said before. -/
def poll (b : Barrier) (waiter : Nat) : Barrier × Option Bool :=
  match b.waiters[waiter]? with
  | some .released => (b.put waiter .consumed, some true)
  | some (.waiting _) => (b.put waiter (.waiting true), some false)
  | _ => (b, none)

def drop (b : Barrier) (waiter : Nat) : Barrier := b.put waiter .withdrawn

end Barrier

def BarrierEvent.log? : BarrierEvent → Option Log.Entry
  | .overdone => some ⟨.error, "TaskGroup::done called with no outstanding work", []⟩
  | .released _ => none
  | .woken _ => none

end HopTrace
