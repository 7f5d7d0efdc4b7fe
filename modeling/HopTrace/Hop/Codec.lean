import HopTrace.Hop.Basic
import HopTrace.Address.Reader
import HopTrace.Address.Text
import HopTrace.Json.Layout
import HopTrace.Json.Record
import HopTrace.Number.Shortest

/-!
# Hops as JSON

A hop without address or time leaves the member out. On the way in those two
may be null as well, and a negative time counts as none.
-/

namespace HopTrace.Hop

open HopTrace.Json

def toDoc (h : Hop) : Doc :=
  let address := match h.address with
    | some a => [("address", Doc.string a.chars)]
    | none => []
  let rtt := match h.rtt with
    | some d => [("rtt_ms", Doc.number d.toMillis64.text)]
    | none => []
  .record ([("success", .bool h.success)] ++ address ++ [("ttl", .nat h.ttl.toNat)] ++ rtt)

structure Draft where
  success : Option Bool := none
  address : Option (Option Address) := none
  ttl : Option UInt16 := none
  rtt : Option (Option Duration) := none

def scanAddress : Scan Address := fun s => do
  let (t, s) ← string s
  match Address.ofChars? t with
  | some a => return (a, s)
  | none => .error .malformed

/-- A time in milliseconds. -/
def scanRtt : Scan (Option Duration) := fun s => do
  let (n, s) ← number s
  let (negative, ms) := match n with
    | .whole i => (decide (i < 0), Binary64.ofNat i.natAbs)
    | .real negative x => (negative, x)
  if negative ∧ !ms.isZero then return (none, s)
  else
    match Duration.ofMillis64? ms with
    | some d => return (some d, s)
    | none => .error .spanTooLong

def reader : RecordReader Draft where
  fields := [
    ("success", fun d s => do
      let (x, s) ← bool s
      return ({ d with success := some x }, s)),
    ("address", fun d s => do
      let (x, s) ← optional scanAddress s
      return ({ d with address := some x }, s)),
    ("ttl", fun d s => do
      let (x, s) ← natural 0xffff s
      return ({ d with ttl := some (UInt16.ofNat x) }, s)),
    ("rtt_ms", fun d s => do
      let (x, s) ← optional scanRtt s
      return ({ d with rtt := some (x.getD none) }, s))]
  present d name :=
    match name with
    | "success" => d.success.isSome
    | "address" => d.address.isSome
    | "ttl" => d.ttl.isSome
    | _ => d.rtt.isSome

def scan : Scan Hop := fun s => do
  let (d, s) ← reader.read {} s
  match d.success, d.ttl with
  | some success, some ttl => return (⟨success, d.address.getD none, ttl, d.rtt.getD none⟩, s)
  | _, _ => .error .malformed

def ofText (text : String) : Except Failure Hop := do
  let (h, s) ← scan (skipSpace text.toList)
  finish s
  return h

end HopTrace.Hop
