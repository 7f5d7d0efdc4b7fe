import HopTrace.Hop.Codec
import HopTrace.Route.Table

/-!
# Hop tables as JSON

An object whose keys are the indices as decimal numbers and whose values are
arrays of hops. Of rows with one key the last counts.
-/

namespace HopTrace.HopTable

open HopTrace.Json HopTrace.Text

def toDoc (t : HopTable) : Doc :=
  .object (t.rows.map fun r => (decimal r.1.toNat, .array (r.2.map Hop.toDoc)))

def compact (t : HopTable) : String := String.ofList t.toDoc.compact

def pretty (t : HopTable) : String := String.ofList (t.toDoc.pretty 0)

/-- An index after its opening quote: a number as in JSON, without blanks or escapes. -/
def scanKey : Scan UInt16 := fun s =>
  match s with
  | [] => .error .malformed
  | c :: _ =>
    if isDigit c ∨ c = '-' then do
      let (n, s) ← natural 0xffff s
      match s with
      | '\x22' :: s => return (UInt16.ofNat n, s)
      | _ => .error .malformed
    else .error .malformed

def scanHop (hops : List Hop) (s : List Char) : Except Failure (List Hop × List Char) := do
  let (h, s) ← Hop.scan s
  return (h :: hops, s)

def scanHops : Scan (List Hop)
  | '[' :: s => do
    let (hops, s) ← arrayTail scanHop [] s
    return (hops.reverse, s)
  | _ => .error .malformed

def scanRow (t : HopTable) (ttl : UInt16) (s : List Char) :
    Except Failure (HopTable × List Char) := do
  let (hops, s) ← scanHops s
  return (t.set ttl hops, s)

def scan : Scan HopTable
  | '\x7b' :: s => objectTail scanKey scanRow empty s
  | _ => .error .malformed

def ofText (text : String) : Except Failure HopTable := do
  let (t, s) ← scan (skipSpace text.toList)
  finish s
  return t

end HopTrace.HopTable
