import HopTrace.Error
import HopTrace.Hook
import HopTrace.Hop.Basic
import HopTrace.Text.Digits

/-!
# Probes

A probe is sent with a hop index and a number that is its own, the two of which
any reply to it shows. It waits in a slot for the address of whoever answers,
and ends with an outcome.
-/

namespace HopTrace

structure ProbeKey where
  ttl : UInt16
  seq : UInt32
  deriving DecidableEq, Repr

def ProbeKey.text (k : ProbeKey) : String :=
  String.ofList ("ttl=".toList ++ Text.decimal k.ttl.toNat ++ " seq=".toList ++
    Text.decimal k.seq.toNat)

inductive SendEnd
  | sent
  | failed (e : TraceError)
  | crashed
  deriving DecidableEq, Repr

namespace Probe

/-- Where a reply is left for the probe. -/
inductive Slot
  | empty
  | answered (sender : Address)
  /-- Nothing will come: another probe with the same key has taken its place. -/
  | abandoned
  deriving DecidableEq, Repr

inductive Outcome
  | recorded (h : Hop)
  | failed (e : TraceError)
  | crashed
  deriving DecidableEq, Repr

/-- What the plugins are told once a hop has been entered into the table. -/
inductive News
  /-- An address that has not answered before. -/
  | address (a : Address)
  /-- All probes of a hop have been recorded. -/
  | completion (ttl : UInt16) (hops : List Hop)
  deriving DecidableEq, Repr

def News.hook : News → Hook
  | .address a => .newIpFound a
  | .completion ttl hops => .ttlCompleted ttl hops

inductive Phase
  | spawned
  | sending (since : Nat)
  /-- The probe could not be sent and has to leave the list of those that wait. -/
  | withdrawing (e : TraceError)
  | failing (e : TraceError)
  | awaiting (since deadline : Nat)
  /-- The deadline has passed; the probe has to leave the list of those that wait. -/
  | expired
  | recording (h : Hop)
  /-- Its outcome is in the books. The arrival at the destination, if it is one, has still to be
  signalled, and after that the news to be told. -/
  | settled (o : Outcome) (arrived : Bool) (news : List News)
  /-- The probe has given back its admission, but not its unit of the group. -/
  | released (o : Outcome)
  | ended (o : Outcome)
  deriving DecidableEq, Repr

end Probe

structure Probe where
  key : ProbeKey
  phase : Probe.Phase := .spawned
  slot : Probe.Slot := .empty
  deriving DecidableEq, Repr

namespace Probe

def isLive (p : Probe) : Bool :=
  match p.phase with
  | .ended _ => false
  | _ => true

/-- Leaves a reply. One who does not wait any more will not look. -/
def answer (p : Probe) (sender : Address) : Probe :=
  match p.slot with
  | .empty => { p with slot := .answered sender }
  | _ => p

/-- Gives the slot up, unless a reply is in it. -/
def abandon (p : Probe) : Probe :=
  match p.slot with
  | .empty => { p with slot := .abandoned }
  | _ => p

end Probe

end HopTrace
