import HopTrace.Duration
import HopTrace.Error

/-!
# Parameters of a trace

Which hops are probed, how often and how many at once, how long a reply may
take, and how long the trace pauses between hops.
-/

namespace HopTrace

structure Params where
  beginHop : UInt16 := 1
  maxHops : UInt16 := 30
  numMeasurements : UInt16 := 3
  parallelRequests : UInt64 := 15
  timeout : Duration := .ofSecs 2
  ttlInterval : Duration := .zero
  deriving DecidableEq, Repr

namespace Params

/-- The first fault of the parameters, if they have one. -/
def fault? (p : Params) : Option TraceError :=
  if p.beginHop = 0 ∨ p.maxHops < p.beginHop then
    some (.invalidTtlRange p.beginHop p.maxHops)
  else if p.numMeasurements = 0 then
    some (.invalidConfig "num_measurements must be at least 1")
  else if p.parallelRequests = 0 then
    some (.invalidConfig "parallel_requests must be at least 1")
  else if p.timeout.isZero then
    some (.invalidConfig "timeout must be non-zero")
  else none

def Valid (p : Params) : Prop := p.fault? = none

instance (p : Params) : Decidable p.Valid := inferInstanceAs (Decidable (_ = _))

end Params

end HopTrace
