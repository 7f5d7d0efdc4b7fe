import HopTrace.Proofs.Listener.Script
import Mathlib.Data.List.Forall2

/-!
# Replies and their datagrams

A connection has a reply for some reads of a script. The datagram of a reply
shows the bytes that fit its buffer, then zeros, and counts as many bytes as
the connection reports if the buffer has them. Only the end of a read says that
a length was overstated.
-/

namespace HopTrace

open Log (Entry)

structure Listener.Reply where
  bytes : List UInt8
  reported : Nat
  peer : Endpoint
  deriving DecidableEq, Repr

def ReadEnd.reply? : ReadEnd → Option Listener.Reply
  | .received bytes reported peer => some ⟨bytes, reported, peer⟩
  | .failed _ => none
  | .crashed => none

namespace Listener

namespace Reply

/-- Whether a datagram is what one reply alone has made of a buffer of some size. -/
structure Fills (size : Nat) (r : Reply) (d : Datagram) : Prop where
  length : d.buf.length = size
  written : ∀ i < size, d.buf[i]? = some (r.bytes.getD i 0)
  counted : d.len = min r.reported size
  payload : d.payload <+: d.buf ∧ d.payload.length = d.len
  sender : d.peer = r.peer

def datagram (c : ListenerConfig) (r : Reply) : Datagram := c.datagram r.bytes r.reported r.peer

def overstatement (c : ListenerConfig) (r : Reply) : Entry :=
  ⟨.warn, "Connection overstated datagram length",
    [("reported", .number r.reported), ("buffer", .number c.bufferSize)]⟩

def warnings (c : ListenerConfig) (r : Reply) : List Entry :=
  if c.bufferSize < r.reported then [r.overstatement c] else []

variable (c : ListenerConfig) (r : Reply)

theorem length_fill (bytes : List UInt8) : (c.fill bytes).length = c.bufferSize := by
  rw [ListenerConfig.fill, List.length_append, List.length_take, List.length_replicate]
  omega

theorem getElem?_fill (bytes : List UInt8) {i : Nat} (inside : i < c.bufferSize) :
    (c.fill bytes)[i]? = some (bytes.getD i 0) := by
  rw [ListenerConfig.fill, List.getD_eq_getElem?_getD]
  by_cases written : i < bytes.length
  · have htaken : i < (bytes.take c.bufferSize).length := by
      rw [List.length_take]
      exact Nat.lt_min.mpr ⟨inside, written⟩
    rw [List.getElem?_append_left htaken, List.getElem?_take_of_lt inside,
      List.getElem?_eq_getElem written, Option.getD_some]
  · have hlength : (bytes.take c.bufferSize).length = bytes.length := by
      rw [List.length_take]
      omega
    rw [List.getElem?_append_right (by omega), hlength, List.getElem?_replicate,
      if_pos (by omega), List.getElem?_eq_none (by omega), Option.getD_none]

theorem fills_datagram : r.Fills c.bufferSize (r.datagram c) where
  length := length_fill c r.bytes
  written _ inside := getElem?_fill c r.bytes inside
  counted := rfl
  payload := by
    refine ⟨List.take_prefix .., ?_⟩
    rw [Datagram.payload, List.length_take, datagram, ListenerConfig.datagram, length_fill]
    exact Nat.min_eq_left (Nat.min_le_right ..)
  sender := rfl

theorem fills_datagrams (rs : List Reply) :
    List.Forall₂ (Fills c.bufferSize) rs (rs.map (·.datagram c)) :=
  List.forall₂_map_right_iff.mpr (List.forall₂_same.mpr fun r _ => r.fills_datagram c)

end Reply

def Attempt.reply? : Attempt → Option Reply
  | .read _ r => r.reply?
  | .refuse _ => none

def replies (script : List Attempt) : List Reply := script.filterMap Attempt.reply?

theorem replies_read (after : Nat) (r : ReadEnd) (rest : List Attempt) :
    replies (.read after r :: rest) = r.reply?.toList ++ replies rest := by
  cases r <;> rfl

def datagrams (ms : List Message) : List Datagram := ms.filterMap Except.toOption

theorem datagrams_append (ms ms' : List Message) :
    datagrams (ms ++ ms') = datagrams ms ++ datagrams ms' :=
  List.filterMap_append

theorem datagrams_of_message {c : ListenerConfig} {r : ReadEnd} {m : Message}
    (told : c.message? r = some m) :
    datagrams [m] = r.reply?.toList.map (·.datagram c) := by
  cases r with
  | crashed => contradiction
  | received | failed =>
    obtain rfl := Option.some.inj told
    rfl

/-! ## Warnings -/

def overstatements (log : List Entry) : List Entry :=
  log.filter (·.message = "Connection overstated datagram length")

theorem overstatements_append (log more : List Entry) :
    overstatements (log ++ more) = overstatements log ++ overstatements more :=
  List.filter_append ..

theorem overstatements_say {l : Listener} {e : Entry}
    (other : e.message ≠ "Connection overstated datagram length") :
    overstatements (l.say e).log = overstatements l.log := by
  simp [Listener.say, overstatements, other]

theorem overstatements_begin {l l' : Listener} {now : Nat} (h : l.begin? now = some l') :
    overstatements l'.log = overstatements l.log := by
  unfold begin? at h
  split at h
  next =>
    split at h
    · obtain rfl := Option.some.inj h
      exact overstatements_say (by simp)
    · dsimp only at h
      split at h <;> obtain rfl := Option.some.inj h <;> rfl
  next => contradiction

theorem overstatements_refuse {l l' : Listener} {now : Nat} {cause : String}
    (h : l.refuse? now cause = some l') : overstatements l'.log = overstatements l.log := by
  unfold refuse? at h
  split at h
  next =>
    split at h
    · obtain rfl := Option.some.inj h
      rfl
    · contradiction
  next => contradiction

theorem overstatements_publish {l l' : Listener} (h : l.publish? = some l') :
    overstatements l'.log = overstatements l.log := by
  unfold publish? at h
  split at h
  next =>
    split at h
    · obtain rfl := Option.some.inj h
      exact overstatements_say (by simp)
    · split at h
      · obtain rfl := Option.some.inj h
        rfl
      · contradiction
  next => contradiction

theorem overstatements_finish {l l' : Listener} {r : ReadEnd} (h : l.finish? r = some l') :
    overstatements l'.log =
      overstatements l.log ++ r.reply?.toList.flatMap (·.warnings l.config) := by
  unfold finish? at h
  split at h
  next =>
    cases r with
    | received bytes reported peer =>
      by_cases longer : l.config.bufferSize < reported
      · obtain rfl := Option.some.inj ((if_pos longer).symm.trans h)
        simp [Listener.say, overstatements, ReadEnd.reply?, Reply.warnings, Reply.overstatement,
          longer]
      · obtain rfl := Option.some.inj ((if_neg longer).symm.trans h)
        simp [ReadEnd.reply?, Reply.warnings, longer]
    | failed | crashed =>
      obtain rfl := Option.some.inj h
      simp [ReadEnd.reply?, Listener.quit]
  next => contradiction

end Listener

end HopTrace
