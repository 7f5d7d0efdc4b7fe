import HopTrace.Endpoint
import HopTrace.Listener.Basic

/-!
# Waiting for datagrams

Someone listens until enough datagrams have arrived, the stream ends, or an
interrupt comes. Only datagrams count; failures are passed over.
-/

namespace HopTrace

/-- What someone who listens meets. -/
inductive Incoming
  | message (m : Message)
  | closed
  | interrupt

/-- Why someone has stopped before there were enough datagrams. -/
inductive Listening.Ending
  | closed
  | interrupted
  deriving DecidableEq, Repr

structure Listening where
  limit : Option Nat := none
  datagrams : List Datagram := []
  ending : Option Listening.Ending := none
  log : List Log.Entry := []
  deriving DecidableEq, Repr

namespace Listening

def received (l : Listening) : Nat := l.datagrams.length

/-- Whether there is something left to wait for. -/
def goesOn (l : Listening) : Bool := l.ending.isNone && l.limit.all (l.received < ·)

def say (l : Listening) (e : Log.Entry) : Listening := { l with log := l.log ++ [e] }

def hear (l : Listening) : Incoming → Listening
  | .message (.ok d) =>
    { l with datagrams := l.datagrams ++ [d] }.say ⟨.info, "Received datagram",
      [("peer", .text d.peer.text), ("len", .number d.len)]⟩
  | .message (.error e) =>
    if e.isRetryable then l.say ⟨.trace, "No datagram yet", [("error", .text e.message)]⟩
    else l.say ⟨.warn, "Receive failed", [("error", .text e.message)]⟩
  | .closed => { l with ending := some .closed }
  | .interrupt => { l with ending := some .interrupted }.say ⟨.info, "Interrupted", []⟩

/-- Hears as much as necessary, and leaves the rest. -/
def listen (l : Listening) : List Incoming → Listening × List Incoming
  | [] => (l, [])
  | x :: rest => if l.goesOn then (l.hear x).listen rest else (l, x :: rest)

end Listening

end HopTrace
