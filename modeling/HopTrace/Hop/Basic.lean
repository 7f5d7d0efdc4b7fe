import HopTrace.Address.Basic
import HopTrace.Duration

/-!
# Probe outcomes

A hop records what became of one probe: whether it was answered, by whom, and
how long that took.
-/

namespace HopTrace

structure Hop where
  success : Bool
  address : Option Address
  ttl : UInt16
  rtt : Option Duration
  deriving DecidableEq, Repr

namespace Hop

def reply (ttl : UInt16) (address : Address) (rtt : Duration) : Hop :=
  ⟨true, some address, ttl, some rtt⟩

def timeout (ttl : UInt16) : Hop := ⟨false, none, ttl, none⟩

/-- Who answered the probe, if it was answered. -/
def answeredBy (h : Hop) : Option Address := if h.success then h.address else none

/-- Whether the destination answered, in either of its forms. -/
def reached (h : Hop) (destination : Address) : Bool :=
  h.answeredBy.any fun a => a.canonical = destination.canonical

end Hop

end HopTrace
