import HopTrace.Number.Binary64

/-!
# Time spans

Spans count nanoseconds. A number of milliseconds given as a binary64 value
becomes a span by dividing it by a thousand, in that format, and rounding the
seconds to the nearest nanosecond; 64 bits have to hold the seconds.
-/

namespace HopTrace

structure Duration where
  nanos : Nat
  deriving DecidableEq, Repr

namespace Duration

def zero : Duration := ⟨0⟩

def ofMillis (n : Nat) : Duration := ⟨n * 1000000⟩

def ofSecs (n : Nat) : Duration := ⟨n * 1000000000⟩

def millis (d : Duration) : Nat := d.nanos / 1000000

def micros (d : Duration) : Nat := d.nanos / 1000

def isZero (d : Duration) : Bool := d.nanos == 0

/-- Nothing if the seconds need more than 64 bits. -/
def ofMillis64? (ms : Binary64) : Option Duration :=
  let secs := ms / Binary64.ofNat 1000
  let (num, den) := secs.ratio
  if UInt64.size * den ≤ num then none
  else some ⟨Binary64.roundHalfEven (num * 1000000000) den⟩

/-- Milliseconds, exact to the microsecond before they are rounded. -/
def toMillis64 (d : Duration) : Binary64 := Binary64.ofNat d.micros / Binary64.ofNat 1000

end Duration

end HopTrace
