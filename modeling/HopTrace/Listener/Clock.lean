import HopTrace.Listener.Basic

/-!
# A listener on a scripted connection

Time is virtual: it stands still while the receive loop can run and moves to
the end of the read in flight otherwise. Each read meets the next entry of a
script; an entry that the deadline overtakes keeps what is left of its delay.
-/

namespace HopTrace.Listener

/-- What a read meets, and after how long. -/
inductive Attempt
  | read (after : Nat) (r : ReadEnd)
  /-- The deadline cannot be set. -/
  | refuse (cause : String)

structure Session where
  listener : Listener
  now : Nat := 0
  script : List Attempt := []
  /-- When and how the read in flight ends. -/
  ending : Option (Nat × ReadEnd) := none

namespace Session

/-- The end of a read, and the script after it. -/
def meet (now deadline : Nat) : List Attempt → (Nat × ReadEnd) × List Attempt
  | .read after r :: rest =>
    if deadline < now + after then
      ((deadline, .failed .readTimeout), .read (after - (deadline - now)) r :: rest)
    else ((now + after, r), rest)
  | script => ((deadline, .failed .readTimeout), script)

def loopStep? (s : Session) : Option Session :=
  match s.listener.loop with
  | .ready =>
    match s.listener.tries s.now, s.script with
    | true, .refuse cause :: rest =>
      (s.listener.refuse? s.now cause).map fun l => { s with listener := l, script := rest }
    | _, _ =>
      (s.listener.begin? s.now).map fun l =>
        match l.loop with
        | .reading deadline =>
          let (ending, script) := meet s.now deadline s.script
          { s with listener := l, script, ending := some ending }
        | _ => { s with listener := l }
  | .reading _ =>
    match s.ending with
    | some (time, r) =>
      if time ≤ s.now then
        (s.listener.finish? r).map fun l => { s with listener := l, ending := none }
      else none
    | none => none
  | _ => s.listener.publish?.map fun l => { s with listener := l }

def runLoop : Nat → Session → Session
  | 0, s => s
  | fuel + 1, s =>
    match s.loopStep? with
    | some s => runLoop fuel s
    | none => s

/-- Lets the loop run as far as it can. Every third section publishes, and the stream takes no
more messages than its bound before the loop waits for room. -/
def settle (s : Session) : Session := runLoop (3 * s.listener.config.bound + 6) s

def pass (s : Session) (time : Nat) : Session := { s with now := max s.now time }

/-- Goes on up to, and not including, a moment, or until something holds. -/
def passUntil (deadline : Nat) (reached : Listener → Bool) : Nat → Session → Session
  | 0, s => s
  | fuel + 1, s =>
    if reached s.listener then s
    else
      match s.ending with
      | some (time, _) =>
        if time < deadline then passUntil deadline reached fuel (s.pass time).settle
        else s
      | none => s

/-- Waits until something holds, at most for a while; tells whether it did. -/
def await (s : Session) (patience : Nat) (reached : Listener → Bool) : Session × Bool :=
  let deadline := s.now + patience
  let s := passUntil deadline reached (s.listener.config.bound + 3) s
  if reached s.listener then (s, true) else (s.pass deadline, false)

/-! ## Steps -/

inductive Step
  | start
  | stop
  /-- A stop request through a handle of its own. -/
  | handleStop
  | drop
  | advance (time : Nat)
  | recv (patience : Nat)
  | tryRecv
  | join (patience : Nat)

inductive Answer
  | done
  | absent
  | pending
  | closed
  | empty
  | joined
  | message (m : Message)

/-- Receives the oldest message, or says why there is none. -/
def take (s : Session) (otherwise : Answer) : Session × Answer :=
  match s.listener.receive? with
  | some (m, l) => ({ s with listener := l }, .message m)
  | none => (s, if s.listener.closed then .closed else otherwise)

def act (s : Session) : Step → Session × Answer
  | .advance time => ((s.await time fun _ => false).1, .done)
  | .handleStop => ({ s with listener := s.listener.stop }, .done)
  | .drop => ({ s with listener := s.listener.drop }, .done)
  | step =>
    if !s.listener.consumed then (s, .absent)
    else
      match step with
      | .start => ({ s with listener := s.listener.start }, .done)
      | .stop => ({ s with listener := s.listener.stop }, .done)
      | .recv patience =>
        let (s, _) := s.await patience fun l => !l.stream.isEmpty || l.ended
        s.take .pending
      | .tryRecv => s.take .empty
      | .join patience =>
        if s.listener.joinable then
          let (s, reached) := { s with listener := s.listener.takeHandle }.await patience (·.ended)
          if reached then ({ s with listener := s.listener.reportEnd }, .joined) else (s, .pending)
        else (s, .joined)
      | _ => (s, .done)

def step (s : Session) (what : Step) : Session × Answer × List Log.Entry :=
  let (s, answer) := { s with listener := { s.listener with log := [] } }.act what
  let s := s.settle
  (s, answer, s.listener.log)

end Session

end HopTrace.Listener
