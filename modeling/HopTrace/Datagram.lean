import HopTrace.Endpoint

/-!
# Datagrams

What one read from a socket delivers: a receive buffer of its own, how many
bytes at its start count, and who sent them.
-/

namespace HopTrace

structure Datagram where
  len : Nat
  peer : Endpoint
  buf : List UInt8
  deriving DecidableEq, Repr

/-- The bytes received, never more than the buffer holds. -/
def Datagram.payload (d : Datagram) : List UInt8 := d.buf.take d.len

end HopTrace
