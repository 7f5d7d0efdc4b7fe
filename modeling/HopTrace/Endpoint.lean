import HopTrace.Address.Reader
import HopTrace.Address.Text

/-!
# Endpoints

An address with a port. A new address stands between brackets, with the number
of its scope after a percent sign if that is not zero.
-/

namespace HopTrace

structure Endpoint where
  address : Address
  port : UInt16
  /-- Only new addresses have a scope. -/
  scope : UInt32 := 0
  deriving DecidableEq, Repr

namespace Endpoint

open HopTrace.Text

def port? (s : List Char) : Option UInt16 :=
  match s with
  | ':' :: s => (natOfText? 0xffff s).map UInt16.ofNat
  | _ => none

/-- What follows the groups: the scope if there is one, and the closing bracket. -/
def scope? (s : List Char) : Option (UInt32 × List Char) :=
  match s with
  | ']' :: s => some (0, s)
  | '%' :: s =>
    match takeFitting 10 0xffffffff 0 0 s with
    | (n, count, ']' :: s) => if count = 0 then none else some (UInt32.ofNat n, s)
    | _ => none
  | _ => none

def ofChars? (s : List Char) : Option Endpoint :=
  match s with
  | '[' :: s => do
    let (g, s) ← Address.groups s
    let (scope, s) ← scope? s
    return ⟨.v6 g, ← port? s, scope⟩
  | s => do
    let (o, s) ← Address.octets s
    return ⟨.v4 o, ← port? s, 0⟩

def ofText? (s : String) : Option Endpoint := ofChars? s.toList

def chars (e : Endpoint) : List Char :=
  match e.address with
  | .v4 o => o.chars ++ ':' :: decimal e.port.toNat
  | .v6 g =>
    let scope := if e.scope = 0 then [] else '%' :: decimal e.scope.toNat
    '[' :: g.chars ++ scope ++ ']' :: ':' :: decimal e.port.toNat

def text (e : Endpoint) : String := String.ofList e.chars

end Endpoint

end HopTrace
