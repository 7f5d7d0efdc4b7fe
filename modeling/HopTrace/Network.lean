import HopTrace.Datagram
import HopTrace.Probe
import HopTrace.Trace.Basic

/-!
# A simulated network

What becomes of a probe depends on its hop index and on how many probes had
that index before it. A reply is a datagram with the index and the number of
the probe, in two and four bytes, the greater ones first.
-/

namespace HopTrace

namespace ProbeKey

def bytes (k : ProbeKey) : List UInt8 :=
  let t := k.ttl.toNat
  let s := k.seq.toNat
  [t / 0x100, t, s / 0x1000000, s / 0x10000, s / 0x100, s].map UInt8.ofNat

def ofBytes? : List UInt8 → Option ProbeKey
  | [t1, t0, s3, s2, s1, s0] =>
    let number := List.foldl (fun n (b : UInt8) => 0x100 * n + b.toNat) 0
    some ⟨UInt16.ofNat (number [t1, t0]), UInt32.ofNat (number [s3, s2, s1, s0])⟩
  | _ => none

end ProbeKey

/-- A datagram with exactly one key answers that probe; one that reads `panic` is a trap. -/
def recogniseKey (d : Datagram) : Recognised :=
  match ProbeKey.ofBytes? d.payload with
  | some key => .reply key d.peer.address
  | none => if d.payload = "panic".toUTF8.toList then .crash else .unrelated

namespace Network

/-- A reply to a probe, some time after it was sent. It may show another index or number, or
have a byte too many. -/
structure Reply where
  sender : Address
  after : Nat
  ttl : Option UInt16 := none
  seq : Option UInt32 := none
  garbage : Bool := false

/-- What becomes of a probe: the replies, and how long the attempt to send takes and ends. -/
structure Behaviour where
  replies : List Reply := []
  sendTime : Nat := 0
  sendEnd : SendEnd := .sent

/-- What goes wrong with an attempt to receive. -/
inductive Fault
  | deadline
  | read
  | timeout
  | crash
  deriving DecidableEq, Repr

structure Arrival where
  time : Nat
  bytes : List UInt8
  peer : Endpoint

end Network

structure Network where
  hops : List (UInt16 × List Network.Behaviour) := []
  /-- For an index that is not listed. -/
  otherwise : Network.Behaviour := {}
  /-- By the number of the attempt to receive. -/
  faults : List (Nat × Network.Fault) := []
  /-- What arrives anyway. -/
  noise : List Network.Arrival := []

namespace Network

/-- What becomes of a probe after `n` probes of that index. The list starts again at its end. -/
def behaviour (net : Network) (ttl : UInt16) (n : Nat) : Behaviour :=
  match net.hops.lookup ttl with
  | some bs => (bs[n % bs.length]?).getD {}
  | none => net.otherwise

def Reply.arrival (r : Reply) (now : Nat) (key : ProbeKey) : Arrival where
  time := now + r.after
  bytes := (ProbeKey.mk (r.ttl.getD key.ttl) (r.seq.getD key.seq)).bytes ++
    if r.garbage then [0] else []
  peer := ⟨r.sender, 0, 0⟩

end Network

end HopTrace
