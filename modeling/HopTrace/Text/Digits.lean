/-!
# Digits of natural numbers

Numbers are written without leading zeros in bases up to sixteen, with small
letters above nine. Reading takes digits only as long as the value stays below
a limit, so that a caller can tell a number that fits from one that does not.
-/

namespace HopTrace.Text

def digitChar (d : Nat) : Char :=
  if d < 10 then Char.ofNat (48 + d) else Char.ofNat (87 + d)

/-- The value of a digit in bases up to sixteen; capital letters count too. -/
def digitValue? (c : Char) : Option Nat :=
  if '0' ≤ c ∧ c ≤ '9' then some (c.toNat - 48)
  else if 'a' ≤ c ∧ c ≤ 'f' then some (c.toNat - 87)
  else if 'A' ≤ c ∧ c ≤ 'F' then some (c.toNat - 55)
  else none

def digitOf? (base : Nat) (c : Char) : Option Nat :=
  (digitValue? c).filter (· < base)

def isDigit (c : Char) : Bool := (digitOf? 10 c).isSome

/-- Most significant digit first; `[]` never occurs. -/
def digits (base n : Nat) : List Char :=
  if n < base ∨ base < 2 then [digitChar n]
  else digits base (n / base) ++ [digitChar (n % base)]
termination_by n
decreasing_by exact Nat.div_lt_self (by omega) (by omega)

def decimal (n : Nat) : List Char := digits 10 n

def decimalInt (i : Int) : List Char :=
  if i < 0 then '-' :: decimal i.natAbs else decimal i.natAbs

/-- Reads digits while the value stays at most `limit`: the value, the count of
digits taken, and what is left, which may begin with a digit that did not fit. -/
def takeFitting (base limit : Nat) : Nat → Nat → List Char → Nat × Nat × List Char
  | acc, count, [] => (acc, count, [])
  | acc, count, c :: s =>
    match digitOf? base c with
    | some d =>
      if acc * base + d ≤ limit then takeFitting base limit (acc * base + d) (count + 1) s
      else (acc, count, c :: s)
    | none => (acc, count, c :: s)

/-- A whole text that is one number of at least one digit, at most `limit`. -/
def natOfText? (limit : Nat) (s : List Char) : Option Nat :=
  match takeFitting 10 limit 0 0 s with
  | (n, count, []) => if count = 0 then none else some n
  | _ => none

end HopTrace.Text
