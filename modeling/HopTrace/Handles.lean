import HopTrace.Log

/-!
# Named handles

Requests and waiters are numbered; whoever drives them by hand holds them under
names. A name taken again passes to the new handle.
-/

namespace HopTrace

structure Handles where
  held : List (String × Nat) := []
  deriving DecidableEq, Repr

namespace Handles

def find? (h : Handles) (name : String) : Option Nat :=
  (h.held.find? (·.1 == name)).map (·.2)

/-- The name under which a handle is held. -/
def nameOf? (h : Handles) (handle : Nat) : Option String :=
  (h.held.find? (·.2 == handle)).map (·.1)

def remove (h : Handles) (name : String) : Handles := ⟨h.held.filter (·.1 ≠ name)⟩

def put (h : Handles) (name : String) (handle : Nat) : Handles :=
  ⟨(name, handle) :: (h.remove name).held⟩

/-- The names of handles, in increasing order. -/
def namesOf (h : Handles) (handles : List Nat) : List String :=
  (handles.filterMap h.nameOf?).mergeSort (· ≤ ·)

end Handles

/-- What a step on a handle answers. -/
inductive HandleAnswer
  | done
  | pending
  | ready
  | absent
  | consumed
  | dropped
  | flag (b : Bool)
  deriving DecidableEq, Repr

/-- A step on named handles: those that make one, poll one or drop one, and those that act on
what they all wait for. -/
inductive HandleStep (α : Type)
  | make (name : String)
  | poll (name : String)
  | drop (name : String)
  | act (a : α)
  deriving DecidableEq, Repr

/-- What a step answered, whom it woke, and what was logged. -/
structure HandleReport where
  answer : HandleAnswer
  woken : List String
  log : List Log.Entry := []
  deriving DecidableEq, Repr

end HopTrace
