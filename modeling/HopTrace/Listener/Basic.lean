import HopTrace.Datagram
import HopTrace.Duration
import HopTrace.Error
import HopTrace.Log

/-!
# Listening for datagrams

A receive loop reads from a connection and publishes one message for each
attempt, failures included, onto a stream of bounded length. It looks for a
stop request before each attempt; only that, the loss of the stream, or a crash
ends it. The connection may crash, and so may an attempt for which there is no
buffer or no deadline. Each function is one section that nothing interrupts.
-/

namespace HopTrace

structure ListenerConfig where
  /-- How long a read may take. -/
  readTimeout : Duration := .ofSecs 2
  bufferSize : Nat := 1500
  queueCapacity : Nat := 50
  deriving DecidableEq, Repr

abbrev Message := Except TraceError Datagram

/-- How a read ends: with the bytes that the connection had and the length it reports, with a
failure, or with a crash of the loop. -/
inductive ReadEnd
  | received (bytes : List UInt8) (reported : Nat) (peer : Endpoint)
  | failed (e : TraceError)
  | crashed
  deriving DecidableEq, Repr

inductive ReceiveLoop
  | unstarted
  | ready
  | reading (deadline : Nat)
  /-- The message waits for room in the stream. -/
  | holding (m : Message)
  | exited
  | crashed
  /-- Dropped before it was started. -/
  | discarded

/-- Who has the connection. -/
inductive Holder
  | owner
  | loop
  | nobody
  deriving DecidableEq, Repr

/-- The owner drops the connection with the listener. The loop keeps it. -/
def Holder.afterDrop : Holder → Holder
  | .owner => .nobody
  | holder => holder

structure Listener where
  config : ListenerConfig := {}
  stopRequested : Bool := false
  loop : ReceiveLoop := .unstarted
  holder : Holder := .owner
  /-- Messages published and not yet received, oldest first. -/
  stream : List Message := []
  /-- Whether someone can still receive. -/
  consumed : Bool := true
  /-- Whether the handle of the started loop is still there to be joined. -/
  joinable : Bool := false
  attempts : Nat := 0
  log : List Log.Entry := []

namespace ListenerConfig

def bound (c : ListenerConfig) : Nat := max c.queueCapacity 1

/-- No buffer has so many bytes. -/
def bufferLimit : Nat := 0x8000000000000000

/-- The end of the clock, which counts whole seconds in 63 bits. -/
def clockLimit : Nat := 0x8000000000000000 * 1000000000

/-- Whether an attempt begun at a time gets its buffer and its deadline. -/
def fits (c : ListenerConfig) (now : Nat) : Bool :=
  c.bufferSize < bufferLimit && now + c.readTimeout.nanos < clockLimit

/-- An attempt that fits would have fitted before. -/
theorem fits_of_le {c : ListenerConfig} {now earlier : Nat} (fit : c.fits now = true)
    (le : earlier ≤ now) : c.fits earlier = true := by
  simp only [fits, Bool.and_eq_true, decide_eq_true_iff] at fit ⊢
  exact ⟨fit.1, Nat.lt_of_le_of_lt (Nat.add_le_add_right le _) fit.2⟩

/-- A fresh buffer after the connection has written to it: what fits, and zeros behind it. -/
def fill (c : ListenerConfig) (bytes : List UInt8) : List UInt8 :=
  bytes.take c.bufferSize ++ List.replicate (c.bufferSize - bytes.length) 0

/-- The datagram of a read: no more bytes count than the buffer has. -/
def datagram (c : ListenerConfig) (bytes : List UInt8) (reported : Nat) (peer : Endpoint) :
    Datagram :=
  ⟨min reported c.bufferSize, peer, c.fill bytes⟩

end ListenerConfig

namespace Listener

def say (l : Listener) (e : Log.Entry) : Listener := { l with log := l.log ++ [e] }

/-! ## What its owner does -/

def start (l : Listener) : Listener :=
  match l.loop with
  | .unstarted =>
    { l with loop := .ready, holder := .loop, joinable := true }.say ⟨.debug, "Starting listener", [
      ("read_timeout_ms", .number (l.config.readTimeout.millis % UInt64.size : Nat)),
      ("queue_capacity", .number l.config.queueCapacity)]⟩
  | _ => l.say ⟨.warn, "Listener already started", []⟩

def stop (l : Listener) : Listener := { l with stopRequested := true }

def ended (l : Listener) : Bool :=
  match l.loop with
  | .exited => true
  | .crashed => true
  | _ => false

/-- Whether the stream is over: nothing is left in it and nothing will come. -/
def closed (l : Listener) : Bool := l.stream.isEmpty && l.ended

theorem closed_iff (l : Listener) : l.closed = true ↔ l.stream = [] ∧ l.ended = true := by
  simp [closed]

def receive? (l : Listener) : Option (Message × Listener) :=
  match l.stream with
  | [] => none
  | m :: rest => some (m, { l with stream := rest })

def holdsConnection (l : Listener) : Bool := l.holder ≠ .nobody

/-- Without a handle to ask, a loop to which the connection has gone counts as finished. -/
def isFinished (l : Listener) : Bool := if l.joinable then l.ended else l.holder ≠ .owner

/-- Takes the handle of the loop; whoever waits on it is told when the loop has ended. -/
def takeHandle (l : Listener) : Listener := { l with joinable := false }

/-- What is said once a taken handle reports the end of the loop. -/
def reportEnd (l : Listener) : Listener :=
  match l.loop with
  | .crashed => l.say ⟨.warn, "Listener task failed", []⟩
  | _ => l

/-- Gives the listener up. The stream is lost and the loop asked to stop. -/
def drop (l : Listener) : Listener :=
  { l with
    stopRequested := true
    consumed := false
    joinable := false
    stream := []
    loop := match l.loop with
      | .unstarted => .discarded
      | loop => loop
    holder := l.holder.afterDrop }

/-! ## What the receive loop does -/

/-- Ends the loop, and drops the connection. -/
def quit (l : Listener) (loop : ReceiveLoop) : Listener := { l with loop, holder := .nobody }

/-- Whether the next attempt would come to a read, or to a deadline that cannot be set. -/
def tries (l : Listener) (now : Nat) : Bool := !l.stopRequested && l.config.fits now

theorem tries_iff {l : Listener} {now : Nat} :
    l.tries now = true ↔ l.stopRequested = false ∧ l.config.fits now = true := by
  simp [tries]

/-- Looks for a stop request, and begins an attempt otherwise. -/
def begin? (l : Listener) (now : Nat) : Option Listener :=
  match l.loop with
  | .ready =>
    if l.stopRequested then some ((l.quit .exited).say ⟨.debug, "Listener stopped", []⟩)
    else
      let l := { l with attempts := l.attempts + 1 }
      if l.config.fits now then
        some { l with loop := .reading (now + l.config.readTimeout.nanos) }
      else some (l.quit .crashed)
  | _ => none

/-- An attempt that fails because its deadline cannot be set. -/
def refuse? (l : Listener) (now : Nat) (cause : String) : Option Listener :=
  match l.loop with
  | .ready =>
    if l.tries now then
      some { l with
        attempts := l.attempts + 1
        loop := .holding (.error (.setDeadline cause)) }
    else none
  | _ => none

def finish? (l : Listener) (r : ReadEnd) : Option Listener :=
  match l.loop with
  | .reading _ =>
    match r with
    | .crashed => some (l.quit .crashed)
    | .failed e => some { l with loop := .holding (.error e) }
    | .received bytes reported peer =>
      let l' := { l with loop := .holding (.ok (l.config.datagram bytes reported peer)) }
      if l.config.bufferSize < reported then
        some (l'.say ⟨.warn, "Connection overstated datagram length", [
          ("reported", .number reported), ("buffer", .number l.config.bufferSize)]⟩)
      else some l'
  | _ => none

/-- Publishes the message held, once there is room; without a receiver the loop ends. -/
def publish? (l : Listener) : Option Listener :=
  match l.loop with
  | .holding m =>
    if !l.consumed then
      some ((l.quit .exited).say ⟨.debug, "Listener stream closed, stopping", []⟩)
    else if l.stream.length < l.config.bound then
      some { l with stream := l.stream ++ [m], loop := .ready }
    else none
  | _ => none

end Listener

end HopTrace
