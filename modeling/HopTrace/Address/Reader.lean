import HopTrace.Address.Basic
import HopTrace.Text.Digits

/-!
# Reading addresses

Octets are written without leading zeros. Groups have up to four digits of base
sixteen, the last two may be written as an old address, and one run of zero
groups may be left out between two colons. Nothing else is read as an address.
-/

namespace HopTrace.Address

open HopTrace.Text

/-- A number of one to three digits below 256 that does not start with a needless zero. -/
def octet (s : List Char) : Option (UInt8 × List Char) :=
  let (n, count, rest) := takeFitting 10 999 0 0 s
  if count = 0 ∨ count > 3 ∨ n > 255 then none
  else if count > 1 ∧ s.head? = some '0' then none
  else if (rest.head?.bind (digitOf? 10)).isSome then none
  else some (UInt8.ofNat n, rest)

def dot : List Char → Option (List Char)
  | '.' :: s => some s
  | _ => none

def octets (s : List Char) : Option (Octets × List Char) := do
  let (a, s) ← octet s
  let (b, s) ← octet (← dot s)
  let (c, s) ← octet (← dot s)
  let (d, s) ← octet (← dot s)
  return (⟨a, b, c, d⟩, s)

/-- One to four digits of base sixteen. -/
def group (s : List Char) : Option (UInt16 × List Char) :=
  let ds := s.takeWhile fun c => (digitOf? 16 c).isSome
  if ds.length = 0 ∨ ds.length > 4 then none
  else
    let (n, _, _) := takeFitting 16 0xffff 0 0 ds
    some (UInt16.ofNat n, s.drop ds.length)

/-- A colon stands before every group but the first of a run. -/
def afterSeparator (isFirst : Bool) (s : List Char) : Option (List Char) :=
  if isFirst then some s
  else match s with
    | ':' :: s => some s
    | _ => none

/-- Reads groups while there are any, `room` of them at most. An old address counts for two
groups and ends the run; the flag tells that one did. -/
def groupRun : Nat → Bool → List Char → List UInt16 × Bool × List Char
  | 0, _, s => ([], false, s)
  | room + 1, isFirst, s =>
    match afterSeparator isFirst s with
    | none => ([], false, s)
    | some t =>
      let old := if room ≥ 1 then octets t else none
      match old with
      | some (o, rest) => ([joinOctets o.a o.b, joinOctets o.c o.d], true, rest)
      | none =>
        match group t with
        | none => ([], false, s)
        | some (g, rest) =>
          let (gs, old, rest) := groupRun room false rest
          (g :: gs, old, rest)

def fill? (front back : List UInt16) : Option Groups :=
  let parts := front ++ List.replicate (8 - front.length - back.length) 0 ++ back
  if h : parts.length = 8 then some ⟨parts, h⟩ else none

def groups (s : List Char) : Option (Groups × List Char) :=
  match groupRun 8 true s with
  | (front, endsOld, rest) =>
    if front.length = 8 then do return (← fill? front [], rest)
    else if endsOld then none
    else
      match rest with
      | ':' :: ':' :: rest =>
        let (back, _, rest) := groupRun (7 - front.length) true rest
        do return (← fill? front back, rest)
      | _ => none

def scan (s : List Char) : Option (Address × List Char) :=
  match octets s with
  | some (o, rest) => some (.v4 o, rest)
  | none => (groups s).map fun r => (.v6 r.1, r.2)

def ofChars? (s : List Char) : Option Address :=
  match scan s with
  | some (a, []) => some a
  | _ => none

def ofText? (s : String) : Option Address := ofChars? s.toList

end HopTrace.Address
