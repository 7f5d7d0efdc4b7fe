import HopTrace.Json.Items

/-!
# Records in JSON

A record is read from an object, whose unknown members are passed over and
whose known members may not repeat, or from an array of its fields in their
order. Scanners for the kinds of fields follow.
-/

namespace HopTrace.Json

variable {α σ : Type}

/-- How a record is read: its fields by name, in order, each a step on a draft. -/
structure RecordReader (σ : Type) where
  fields : List (String × (σ → List Char → Except Failure (σ × List Char)))
  /-- Whether the field of that name is already in the draft. -/
  present : σ → String → Bool

/-- The draft and the fields not yet met in an array. -/
def RecordReader.element (r : RecordReader σ) (st : σ × Nat) (s : List Char) :
    Except Failure ((σ × Nat) × List Char) :=
  match r.fields[st.2]? with
  | none => .error .malformed
  | some (_, step) => do
    let (draft, s) ← step st.1 s
    return ((draft, st.2 + 1), s)

def RecordReader.member (r : RecordReader σ) (draft : σ) (key s : List Char) :
    Except Failure (σ × List Char) :=
  match r.fields.find? (fun f => f.1.toList == key) with
  | none => return (draft, ← skipValue s)
  | some (name, step) => if r.present draft name then .error .malformed else step draft s

/-- Reads a record; `s` starts with its first character. -/
def RecordReader.read (r : RecordReader σ) (draft : σ) :
    List Char → Except Failure (σ × List Char)
  | '\x7b' :: s => objectTail stringTail r.member draft s
  | '[' :: s => do
    let ((draft, _), s) ← arrayTail r.element (draft, 0) s
    return (draft, s)
  | _ => .error .malformed

/-! ## Fields -/

def bool : Scan Bool
  | 't' :: s => return (true, ← word ['r', 'u', 'e'] s)
  | 'f' :: s => return (false, ← word ['a', 'l', 's', 'e'] s)
  | _ => .error .malformed

/-- A whole number from zero to `limit`. -/
def natural (limit : Nat) : Scan Nat := fun s => do
  let (n, s) ← number s
  match n with
  | .whole i => if 0 ≤ i ∧ i ≤ limit then return (i.toNat, s) else .error .malformed
  | .real _ _ => .error .malformed

def optional (scan : Scan α) : Scan (Option α)
  | 'n' :: s => return (none, ← word ['u', 'l', 'l'] s)
  | s => do
    let (a, s) ← scan s
    return (some a, s)

end HopTrace.Json
