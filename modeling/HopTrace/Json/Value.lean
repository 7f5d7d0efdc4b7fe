import HopTrace.Json.Items

/-!
# JSON values

Values whose shape nobody knows beforehand, such as the parameters handed to
plugins. Arrays and objects nest up to a fixed depth.
-/

namespace HopTrace.Json

inductive Value
  | null
  | bool (b : Bool)
  | number (n : Number)
  | string (s : List Char)
  | array (items : List Value)
  | object (members : List (List Char × Value))

/-- How deep arrays and objects may nest. -/
def maxDepth : Nat := 127

/-- A value in which arrays and objects nest at most `depth` deep. -/
def value (depth : Nat) (s : List Char) : Except Failure (Value × List Char) :=
  match s with
  | '[' :: s =>
    match depth with
    | 0 => .error .malformed
    | depth + 1 => do
      let (items, s) ← arrayTail (fun items s => do
        let (v, s) ← value depth s
        return (v :: items, s)) [] s
      return (.array items.reverse, s)
  | '\x7b' :: s =>
    match depth with
    | 0 => .error .malformed
    | depth + 1 => do
      let (ms, s) ← objectTail stringTail (fun ms key s => do
        let (v, s) ← value depth s
        return ((key, v) :: ms, s)) [] s
      return (.object ms.reverse, s)
  | '\x22' :: s => do
    let (t, s) ← stringTail s
    return (.string t, s)
  | 't' :: s => return (.bool true, ← word ['r', 'u', 'e'] s)
  | 'f' :: s => return (.bool false, ← word ['a', 'l', 's', 'e'] s)
  | 'n' :: s => return (.null, ← word ['u', 'l', 'l'] s)
  | s => do
    let (n, s) ← number s
    return (.number n, s)

def Value.ofText (text : String) : Except Failure Value := do
  let (v, s) ← value maxDepth (skipSpace text.toList)
  finish s
  return v

/-- The whole number that a value is, if it fits 64 bits with a sign. -/
def Value.toInt64? : Value → Option Int
  | .number (.whole i) => if -0x8000000000000000 ≤ i ∧ i < 0x8000000000000000 then some i else none
  | _ => none

end HopTrace.Json
