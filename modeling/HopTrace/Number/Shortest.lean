import HopTrace.Number.Binary64
import HopTrace.Text.Digits

/-!
# Shortest decimal texts

A binary64 value is written with the fewest digits that read back as the same
value, and among those with the ones nearest to it. Values whose decimal point
falls within sixteen places are written positionally, always with a digit after
the point; the others carry an exponent.
-/

namespace HopTrace.Binary64

open HopTrace.Text

/-- The rationals that round to a value: `low / den` to `high / den`. -/
structure Neighbourhood where
  low : Nat
  high : Nat
  den : Nat
  closed : Bool

/-- A quarter of the grid step is the common denominator of the value and of the
midpoints to its neighbours. -/
def neighbourhood (x : Binary64) : Neighbourhood :=
  let lowOffset := if x.mant = 0x10000000000000 ∧ x.exp > -1074 then 1 else 2
  let e := x.exp - 2
  let num := fun m => if 0 ≤ e then m * Nat.pow 2 e.toNat else m
  let den := if 0 ≤ e then 1 else Nat.pow 2 (-e).toNat
  ⟨num (4 * x.mant - lowOffset), num (4 * x.mant + 2), den, x.mant % 2 == 0⟩

/-- Whether `digits * 10 ^ k` rounds to the value whose neighbourhood this is. -/
def Neighbourhood.reads (h : Neighbourhood) (digits : Nat) (k : Int) : Bool :=
  let num := if 0 ≤ k then digits * Nat.pow 10 k.toNat * h.den else digits * h.den
  let scale := if 0 ≤ k then 1 else Nat.pow 10 (-k).toNat
  if h.closed then h.low * scale ≤ num ∧ num ≤ h.high * scale
  else h.low * scale < num ∧ num < h.high * scale

/-- The multiple of `10 ^ k` nearest to the value among the two around it that read back. -/
def gridPoint? (x : Binary64) (k : Int) : Option Nat :=
  let (num, den) := x.ratio
  let n := if 0 ≤ k then num else num * Nat.pow 10 (-k).toNat
  let d := if 0 ≤ k then den * Nat.pow 10 k.toNat else den
  let below := n / d
  let h := x.neighbourhood
  match h.reads below k, h.reads (below + 1) k with
  | true, true => some (roundHalfEven n d)
  | true, false => some below
  | false, true => some (below + 1)
  | false, false => none

/-- Tries ever finer grids of powers of ten. -/
def shortestFrom (x : Binary64) : Nat → Int → Nat × Int
  | 0, _ => (0, 0)
  | fuel + 1, k =>
    match x.gridPoint? k with
    | some d => (d, k)
    | none => shortestFrom x fuel (k - 1)

/-- Significant digits and the power of ten that they count. Seventeen digits always read
back, so a start at most three places too coarse needs no more than twenty grids. -/
def shortest (x : Binary64) : Nat × Int :=
  if x.isZero then (0, 0)
  else
    let (num, den) := x.ratio
    let top : Int := ((Nat.log2 num : Int) - (Nat.log2 den : Int) + 1) * 30103 / 100000 + 1
    shortestFrom x 24 top

def layOut (ds : List Char) (k : Int) : List Char :=
  let point := (ds.length : Int) + k
  if 0 ≤ k ∧ point ≤ 16 then
    ds ++ List.replicate k.toNat '0' ++ ['.', '0']
  else if 0 < point ∧ point ≤ 16 then
    ds.take point.toNat ++ '.' :: ds.drop point.toNat
  else if -5 < point ∧ point ≤ 0 then
    '0' :: '.' :: List.replicate (-point).toNat '0' ++ ds
  else
    let mantissa := match ds with
      | [d] => [d]
      | d :: rest => d :: '.' :: rest
      | [] => []
    mantissa ++ 'e' :: signed (point - 1)
where
  /-- Exponents always show their sign. -/
  signed (e : Int) : List Char := if e < 0 then decimalInt e else '+' :: decimalInt e

def text (x : Binary64) : List Char :=
  if x.isZero then ['0', '.', '0']
  else
    let (d, k) := x.shortest
    layOut (decimal d) k

end HopTrace.Binary64
