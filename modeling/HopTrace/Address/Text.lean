import HopTrace.Address.Basic
import HopTrace.Text.Digits

/-!
# Writing addresses

Groups are written with small letters and no leading zeros; the first of the
longest runs of at least two zero groups is left out. Groups that stand for an
old address show it.
-/

namespace HopTrace

open HopTrace.Text

def Octets.chars (o : Octets) : List Char :=
  decimal o.a.toNat ++ '.' :: decimal o.b.toNat ++ '.' :: decimal o.c.toNat ++
    '.' :: decimal o.d.toNat

namespace Groups

def hexGroup (g : UInt16) : List Char := digits 16 g.toNat

def colonList : List UInt16 → List Char
  | [] => []
  | [g] => hexGroup g
  | g :: gs => hexGroup g ++ ':' :: colonList gs

/-- The start and length of the first longest run of zeros, `start` and `length` being those
of the run in progress and `best` the longest so far. -/
def longestRun : List UInt16 → Nat → Nat → Nat → Nat × Nat → Nat × Nat
  | [], _, _, _, best => best
  | g :: gs, index, start, length, best =>
    if g = 0 then
      let start := if length = 0 then index else start
      let length := length + 1
      longestRun gs (index + 1) start length (if length > best.2 then (start, length) else best)
    else longestRun gs (index + 1) 0 0 best

def chars (g : Groups) : List Char :=
  match g.mapped? with
  | some o => [':', ':', 'f', 'f', 'f', 'f', ':'] ++ o.chars
  | none =>
    let (start, length) := longestRun g.parts 0 0 0 (0, 0)
    if length > 1 then
      colonList (g.parts.take start) ++ [':', ':'] ++ colonList (g.parts.drop (start + length))
    else colonList g.parts

end Groups

namespace Address

def chars : Address → List Char
  | .v4 o => o.chars
  | .v6 g => g.chars

def text (a : Address) : String := String.ofList a.chars

end Address

end HopTrace
