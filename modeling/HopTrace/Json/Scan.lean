import HopTrace.Number.Binary64
import HopTrace.Text.Digits

/-!
# Scanning JSON tokens

A scanner takes the characters that are left and gives back what it read and
the characters after it. Strings are returned unescaped. A number is whole if
it has neither point nor exponent and fits 64 bits; any other is a binary64
value made of the digits that fit 64 bits and a power of ten.
-/

namespace HopTrace.Json

/-- Why a text cannot be read: it is not what was asked for, or it holds a time
span that is too long to be represented. -/
inductive Failure
  | malformed
  | spanTooLong
  deriving DecidableEq, Repr

abbrev Scan (α : Type) := List Char → Except Failure (α × List Char)

open HopTrace.Text

def isSpace (c : Char) : Bool := c == ' ' || c == '\n' || c == '\t' || c == '\r'

def skipSpace (s : List Char) : List Char := s.dropWhile isSpace

def word : List Char → List Char → Except Failure (List Char)
  | [], s => .ok s
  | c :: cs, d :: s => if c = d then word cs s else .error .malformed
  | _ :: _, [] => .error .malformed

/-- The rest of a text may only be blank. -/
def finish (s : List Char) : Except Failure Unit :=
  if skipSpace s = [] then .ok () else .error .malformed

/-! ## Strings -/

def hexUnit? (a b c d : Char) : Option Nat := do
  let w ← digitOf? 16 a
  let x ← digitOf? 16 b
  let y ← digitOf? 16 c
  let z ← digitOf? 16 d
  return ((w * 16 + x) * 16 + y) * 16 + z

def simpleEscape? (c : Char) : Option Char :=
  if c = '\x22' ∨ c = '\\' ∨ c = '/' then some c
  else if c = 'b' then some '\x08'
  else if c = 'f' then some '\x0c'
  else if c = 'n' then some '\n'
  else if c = 'r' then some '\r'
  else if c = 't' then some '\t'
  else none

/-- A character of an escaped pair of surrogates. -/
def pairedChar (high low : Nat) : Char :=
  Char.ofNat ((high - 0xD800) * 0x400 + (low - 0xDC00) + 0x10000)

/-- The string after its opening quote. Surrogates have to come in pairs. -/
def stringTail : Scan (List Char)
  | [] => .error .malformed
  | '\\' :: 'u' :: a :: b :: c :: d :: s =>
    match hexUnit? a b c d with
    | none => .error .malformed
    | some unit =>
      if 0xDC00 ≤ unit ∧ unit ≤ 0xDFFF then .error .malformed
      else if 0xD800 ≤ unit ∧ unit ≤ 0xDBFF then
        match s with
        | '\\' :: 'u' :: e :: f :: g :: h :: s =>
          match hexUnit? e f g h with
          | none => .error .malformed
          | some low =>
            if 0xDC00 ≤ low ∧ low ≤ 0xDFFF then do
              let (t, s) ← stringTail s
              return (pairedChar unit low :: t, s)
            else .error .malformed
        | _ => .error .malformed
      else do
        let (t, s) ← stringTail s
        return (Char.ofNat unit :: t, s)
  | '\\' :: c :: s =>
    match simpleEscape? c with
    | none => .error .malformed
    | some x => do
      let (t, s) ← stringTail s
      return (x :: t, s)
  | c :: s =>
    if c = '\x22' then .ok ([], s)
    else if c = '\\' ∨ c.toNat < 0x20 then .error .malformed
    else do
      let (t, s) ← stringTail s
      return (c :: t, s)

/-- Passes over a string after its opening quote; its surrogates are not looked at. -/
def skipStringTail : List Char → Except Failure (List Char)
  | [] => .error .malformed
  | '\\' :: 'u' :: a :: b :: c :: d :: s =>
    if (hexUnit? a b c d).isSome then skipStringTail s else .error .malformed
  | '\\' :: c :: s => if (simpleEscape? c).isSome then skipStringTail s else .error .malformed
  | c :: s =>
    if c = '\x22' then .ok s
    else if c = '\\' ∨ c.toNat < 0x20 then .error .malformed
    else skipStringTail s

def string : Scan (List Char)
  | '\x22' :: s => stringTail s
  | _ => .error .malformed

/-! ## Numbers -/

inductive Number
  | whole (i : Int)
  | real (negative : Bool) (magnitude : Binary64)
  deriving DecidableEq, Repr

def real (negative : Bool) (significand : Nat) (exponent : Int) (s : List Char) :
    Except Failure (Number × List Char) :=
  match Binary64.ofDecimal? significand exponent with
  | some x => .ok (.real negative x, s)
  | none => .error .malformed

def dropDigits (s : List Char) : List Char := s.dropWhile isDigit

def startsWithDigit : List Char → Bool
  | c :: _ => isDigit c
  | [] => false

/-- What follows an `e`. An exponent of more than 31 bits makes the value zero if it is
negative or has nothing to scale, and too large otherwise. -/
def exponentTail (negative : Bool) (significand : Nat) (start : Int) (s : List Char) :
    Except Failure (Number × List Char) :=
  let (down, s) := match s with
    | '+' :: s => (false, s)
    | '-' :: s => (true, s)
    | s => (false, s)
  let (e, count, rest) := takeFitting 10 0x7fffffff 0 0 s
  if count = 0 then .error .malformed
  else if startsWithDigit rest then
    if significand ≠ 0 ∧ !down then .error .malformed
    else .ok (.real negative Binary64.zero, dropDigits rest)
  else real negative significand (if down then start - e else start + e) rest

/-- What follows the digits and, if there is one, the fraction. -/
def exponentOrEnd (negative : Bool) (significand : Nat) (exponent : Int) (s : List Char) :
    Except Failure (Number × List Char) :=
  match s with
  | 'e' :: s => exponentTail negative significand exponent s
  | 'E' :: s => exponentTail negative significand exponent s
  | s => real negative significand exponent s

/-- What follows the point: digits are taken while they fit 64 bits and passed over then. -/
def fractionTail (negative : Bool) (significand : Nat) (exponent : Int) (s : List Char) :
    Except Failure (Number × List Char) :=
  let (m, count, rest) := takeFitting 10 0xffffffffffffffff significand 0 s
  if startsWithDigit rest then exponentOrEnd negative m (exponent - count) (dropDigits rest)
  else if count = 0 then .error .malformed
  else exponentOrEnd negative m (exponent - count) rest

def wholeNumber (negative : Bool) (n : Nat) : Number :=
  if !negative then .whole n
  else if 1 ≤ n ∧ n ≤ 0x8000000000000000 then .whole (-(n : Int))
  else .real true (Binary64.ofNat n)

def magnitude (negative : Bool) (s : List Char) : Except Failure (Number × List Char) :=
  match s with
  | [] => .error .malformed
  | c :: s' =>
    if c = '0' ∧ startsWithDigit s' then .error .malformed
    else if !isDigit c then .error .malformed
    else
      let (m, _, rest) := takeFitting 10 0xffffffffffffffff 0 0 s
      if startsWithDigit rest then
        let after := dropDigits rest
        let dropped : Int := (rest.length : Int) - after.length
        match after with
        | '.' :: s => fractionTail negative m dropped s
        | s => exponentOrEnd negative m dropped s
      else
        match rest with
        | '.' :: s => fractionTail negative m 0 s
        | 'e' :: s => exponentTail negative m 0 s
        | 'E' :: s => exponentTail negative m 0 s
        | s => .ok (wholeNumber negative m, s)

def number : Scan Number
  | '-' :: s => magnitude true s
  | s => magnitude false s

/-- Passes over a number, however large. -/
def skipNumber (s : List Char) : Except Failure (List Char) := do
  let s := match s with
    | '-' :: s => s
    | s => s
  let s ← match s with
    | '0' :: s => if startsWithDigit s then .error .malformed else .ok s
    | s => if startsWithDigit s then .ok (dropDigits s) else .error .malformed
  let s ← match s with
    | '.' :: s => if startsWithDigit s then .ok (dropDigits s) else .error .malformed
    | s => .ok s
  match s with
  | [] => .ok []
  | c :: t =>
    if c = 'e' ∨ c = 'E' then
      let t := match t with
        | '+' :: t => t
        | '-' :: t => t
        | t => t
      if startsWithDigit t then .ok (dropDigits t) else .error .malformed
    else .ok (c :: t)

end HopTrace.Json
