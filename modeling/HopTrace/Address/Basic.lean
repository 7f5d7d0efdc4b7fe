/-!
# Internet addresses

An address of the fourth version is four octets, one of the sixth is eight
groups of sixteen bits. The groups `::ffff:a.b.c.d` stand for the old address
`a.b.c.d`, and `canonical` says so.
-/

namespace HopTrace

structure Octets where
  a : UInt8
  b : UInt8
  c : UInt8
  d : UInt8
  deriving DecidableEq, Repr

structure Groups where
  parts : List UInt16
  length_parts : parts.length = 8 := by rfl
  deriving DecidableEq, Repr

inductive Address
  | v4 (o : Octets)
  | v6 (g : Groups)
  deriving DecidableEq, Repr

def joinOctets (hi lo : UInt8) : UInt16 := UInt16.ofNat (hi.toNat * 256 + lo.toNat)

def highOctet (g : UInt16) : UInt8 := UInt8.ofNat (g.toNat / 256)

def lowOctet (g : UInt16) : UInt8 := UInt8.ofNat (g.toNat % 256)

/-- The old address that the groups stand for, if they do. -/
def Groups.mapped? (g : Groups) : Option Octets :=
  match g.parts with
  | [0, 0, 0, 0, 0, 0xffff, hi, lo] =>
    some ⟨highOctet hi, lowOctet hi, highOctet lo, lowOctet lo⟩
  | _ => none

/-- The groups that stand for an old address. -/
def Octets.mapped (o : Octets) : Groups :=
  ⟨[0, 0, 0, 0, 0, 0xffff, joinOctets o.a o.b, joinOctets o.c o.d], rfl⟩

def Address.canonical : Address → Address
  | .v4 o => .v4 o
  | .v6 g =>
    match g.mapped? with
    | some o => .v4 o
    | none => .v6 g

end HopTrace
