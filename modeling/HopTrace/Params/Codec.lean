import HopTrace.Params.Basic
import HopTrace.Json.Layout
import HopTrace.Json.Record

/-!
# Parameters as JSON

Times are whole milliseconds of 64 bits: on the way out what is below a
millisecond is cut off and higher bits are lost. Missing members take their
defaults.
-/

namespace HopTrace.Params

open HopTrace.Json

/-- The milliseconds of a time that 64 bits hold. -/
def storedMillis (d : Duration) : Nat := d.millis % UInt64.size

def toDoc (p : Params) : Doc :=
  .record [
    ("begin_hop", .nat p.beginHop.toNat),
    ("max_hops", .nat p.maxHops.toNat),
    ("num_measurements", .nat p.numMeasurements.toNat),
    ("parallel_requests", .nat p.parallelRequests.toNat),
    ("timeout", .nat (storedMillis p.timeout)),
    ("ttl_interval", .nat (storedMillis p.ttlInterval))]

def compact (p : Params) : String := String.ofList p.toDoc.compact

/-- The fields met so far. -/
structure Draft where
  beginHop : Option UInt16 := none
  maxHops : Option UInt16 := none
  numMeasurements : Option UInt16 := none
  parallelRequests : Option UInt64 := none
  timeout : Option Duration := none
  ttlInterval : Option Duration := none

def Draft.complete (d : Draft) : Params :=
  let p : Params := {}
  { beginHop := d.beginHop.getD p.beginHop
    maxHops := d.maxHops.getD p.maxHops
    numMeasurements := d.numMeasurements.getD p.numMeasurements
    parallelRequests := d.parallelRequests.getD p.parallelRequests
    timeout := d.timeout.getD p.timeout
    ttlInterval := d.ttlInterval.getD p.ttlInterval }

def natural16 : Scan UInt16 := fun s => do
  let (n, s) ← natural 0xffff s
  return (UInt16.ofNat n, s)

def natural64 : Scan Nat := natural 0xffffffffffffffff

def reader : RecordReader Draft where
  fields := [
    ("begin_hop", fun d s => do
      let (x, s) ← natural16 s
      return ({ d with beginHop := some x }, s)),
    ("max_hops", fun d s => do
      let (x, s) ← natural16 s
      return ({ d with maxHops := some x }, s)),
    ("num_measurements", fun d s => do
      let (x, s) ← natural16 s
      return ({ d with numMeasurements := some x }, s)),
    ("parallel_requests", fun d s => do
      let (x, s) ← natural64 s
      return ({ d with parallelRequests := some (UInt64.ofNat x) }, s)),
    ("timeout", fun d s => do
      let (x, s) ← natural64 s
      return ({ d with timeout := some (.ofMillis x) }, s)),
    ("ttl_interval", fun d s => do
      let (x, s) ← natural64 s
      return ({ d with ttlInterval := some (.ofMillis x) }, s))]
  present d name :=
    match name with
    | "begin_hop" => d.beginHop.isSome
    | "max_hops" => d.maxHops.isSome
    | "num_measurements" => d.numMeasurements.isSome
    | "parallel_requests" => d.parallelRequests.isSome
    | "timeout" => d.timeout.isSome
    | _ => d.ttlInterval.isSome

def ofText (text : String) : Except Failure Params := do
  let (d, s) ← reader.read {} (skipSpace text.toList)
  finish s
  return d.complete

end HopTrace.Params
