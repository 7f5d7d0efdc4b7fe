/-!
# Binary64 magnitudes

A nonnegative binary64 value is `mant * 2 ^ exp`. Every operation rounds the
exact rational result to the nearest such value, ties going to the even
mantissa. Magnitudes past the largest finite one keep their place on the same
grid and are told apart by `isFinite`; whoever needs a finite one asks.
-/

namespace HopTrace

structure Binary64 where
  mant : Nat
  exp : Int
  deriving DecidableEq, Repr

namespace Binary64

def zero : Binary64 := ⟨0, -1074⟩

/-- `num / den` rounded to a whole number, a half going to the even neighbour. -/
def roundHalfEven (num den : Nat) : Nat :=
  let q := num / den
  let r := num % den
  if 2 * r > den ∨ (2 * r = den ∧ q % 2 = 1) then q + 1 else q

/-- The numerator and denominator of `(num / den) / 2 ^ e`. -/
def scaled (num den : Nat) (e : Int) : Nat × Nat :=
  if 0 ≤ e then (num, den * Nat.pow 2 e.toNat) else (num * Nat.pow 2 (-e).toNat, den)

/-- The exponent at which `num / den` has a 53 bit mantissa, at least the least one. -/
def gridExponent (num den : Nat) : Int :=
  let e : Int := (Nat.log2 num : Int) - (Nat.log2 den : Int) - 52
  let (n, d) := scaled num den e
  max (if n < 0x10000000000000 * d then e - 1 else e) (-1074)

def round (num den : Nat) : Binary64 :=
  if num = 0 then zero
  else
    let e := gridExponent num den
    let (n, d) := scaled num den e
    let m := roundHalfEven n d
    if m = 0x20000000000000 then ⟨0x10000000000000, e + 1⟩ else ⟨m, e⟩

def ofNat (n : Nat) : Binary64 := round n 1

def ratio (x : Binary64) : Nat × Nat :=
  if 0 ≤ x.exp then (x.mant * Nat.pow 2 x.exp.toNat, 1) else (x.mant, Nat.pow 2 (-x.exp).toNat)

def isFinite (x : Binary64) : Bool := x.exp ≤ 971

def isZero (x : Binary64) : Bool := x.mant == 0

def mul (x y : Binary64) : Binary64 :=
  let (a, b) := x.ratio
  let (c, d) := y.ratio
  round (a * c) (b * d)

def div (x y : Binary64) : Binary64 :=
  let (a, b) := x.ratio
  let (c, d) := y.ratio
  round (a * d) (b * c)

instance : Mul Binary64 := ⟨mul⟩

instance : Div Binary64 := ⟨div⟩

def pow10 (n : Nat) : Binary64 := ofNat (Nat.pow 10 n)

/-- Division by `10 ^ n`, one rounding for each step of at most 308 places. -/
def divPow10 (x : Binary64) (n : Nat) : Binary64 :=
  if n ≤ 308 then x / pow10 n
  else if x.isZero then x
  else divPow10 (x / pow10 308) (n - 308)
termination_by n
decreasing_by omega

/-- `significand * 10 ^ exponent`, or nothing if that is too large to be finite. -/
def ofDecimal? (significand : Nat) (exponent : Int) : Option Binary64 :=
  let x := ofNat significand
  if 0 ≤ exponent then
    if exponent ≤ 308 then
      let y := x * pow10 exponent.toNat
      if y.isFinite then some y else none
    else if x.isZero then some x
    else none
  else some (divPow10 x (-exponent).toNat)

end Binary64

end HopTrace
