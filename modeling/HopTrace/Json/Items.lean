import HopTrace.Json.Scan

/-!
# Arrays, objects and values passed over

Arrays and objects are folded: each element or member updates a state, in the
order of the text, so the first fault in the text is the one reported. A value
nobody asked for is passed over with a stack of the brackets that are open, so
its depth has no bound.
-/

namespace HopTrace.Json

variable {σ κ : Type}

/-- The elements from the next one on. Each takes at least one character, so the length of
the text bounds their number. -/
def elements (step : σ → List Char → Except Failure (σ × List Char)) :
    Nat → σ → List Char → Except Failure (σ × List Char)
  | 0, _, _ => .error .malformed
  | fuel + 1, st, s => do
    let (st, s) ← step st (skipSpace s)
    match skipSpace s with
    | ',' :: s => elements step fuel st s
    | ']' :: s => .ok (st, s)
    | _ => .error .malformed

/-- An array after its opening bracket. -/
def arrayTail (step : σ → List Char → Except Failure (σ × List Char)) (st : σ)
    (s : List Char) : Except Failure (σ × List Char) :=
  match skipSpace s with
  | ']' :: s => .ok (st, s)
  | s => elements step s.length st s

/-- A key, its colon and the blanks after it. -/
def memberKey (key : Scan κ) (s : List Char) : Except Failure (κ × List Char) :=
  match skipSpace s with
  | '\x22' :: s => do
    let (k, s) ← key s
    match skipSpace s with
    | ':' :: s => .ok (k, skipSpace s)
    | _ => .error .malformed
  | _ => .error .malformed

/-- The members from the next one on; `key` reads what follows a key's opening quote. -/
def members (key : Scan κ) (step : σ → κ → List Char → Except Failure (σ × List Char)) :
    Nat → σ → List Char → Except Failure (σ × List Char)
  | 0, _, _ => .error .malformed
  | fuel + 1, st, s => do
    let (k, s) ← memberKey key s
    let (st, s) ← step st k s
    match skipSpace s with
    | ',' :: s => members key step fuel st s
    | '\x7d' :: s => .ok (st, s)
    | _ => .error .malformed

/-- An object after its opening brace. -/
def objectTail (key : Scan κ) (step : σ → κ → List Char → Except Failure (σ × List Char))
    (st : σ) (s : List Char) : Except Failure (σ × List Char) :=
  match skipSpace s with
  | '\x7d' :: s => .ok (st, s)
  | s => members key step s.length st s

/-! ## Values passed over -/

inductive Bracket
  | array
  | object
  deriving DecidableEq, Repr

/-- Passes over a member's key and colon. -/
def skipKey (s : List Char) : Except Failure (List Char) := do
  let (_, s) ← memberKey (fun s => return ((), ← skipStringTail s)) s
  return s

/-- After a value: closes brackets up to the next comma, or all of them. The brackets still
open come with the text of the next value inside them. -/
def closeBrackets : List Bracket → List Char → Except Failure (List Bracket × List Char)
  | [], s => .ok ([], s)
  | b :: rest, s =>
    match b, skipSpace s with
    | .array, ',' :: s => .ok (.array :: rest, s)
    | .object, ',' :: s => do return (.object :: rest, ← skipKey s)
    | .array, ']' :: s => closeBrackets rest s
    | .object, '\x7d' :: s => closeBrackets rest s
    | _, _ => .error .malformed

/-- Passes over a string, a number or a word. -/
def skipScalar (s : List Char) : Except Failure (List Char) :=
  match s with
  | '\x22' :: s => skipStringTail s
  | 't' :: s => word ['r', 'u', 'e'] s
  | 'f' :: s => word ['a', 'l', 's', 'e'] s
  | 'n' :: s => word ['u', 'l', 'l'] s
  | s => skipNumber s

/-- Passes over a value inside the brackets that are open, and over what closes them. -/
def skipWithin : Nat → List Bracket → List Char → Except Failure (List Char)
  | 0, _, _ => .error .malformed
  | fuel + 1, brackets, s => do
    match skipSpace s with
    | '[' :: s =>
      match skipSpace s with
      | ']' :: s => carryOn fuel (← closeBrackets brackets s)
      | s => skipWithin fuel (.array :: brackets) s
    | '\x7b' :: s =>
      match skipSpace s with
      | '\x7d' :: s => carryOn fuel (← closeBrackets brackets s)
      | s => skipWithin fuel (.object :: brackets) (← skipKey s)
    | s => carryOn fuel (← closeBrackets brackets (← skipScalar s))
where
  /-- Stops once no bracket is open. -/
  carryOn (fuel : Nat) : List Bracket × List Char → Except Failure (List Char)
    | ([], s) => .ok s
    | (brackets, s) => skipWithin fuel brackets s

def skipValue (s : List Char) : Except Failure (List Char) := skipWithin (s.length + 1) [] s

end HopTrace.Json
