/-!
# Errors of a trace

Each error is a cause with what is known about it; `message` words it. A failed
read is an expired deadline exactly if the operating system says so.
-/

namespace HopTrace

/-- What kind of failure the operating system reports. -/
inductive OsErrorKind
  | timedOut
  | wouldBlock
  | other
  deriving DecidableEq, Repr

/-- A failure reported by the operating system. -/
structure OsError where
  kind : OsErrorKind := .other
  text : String
  deriving DecidableEq, Repr

inductive TraceError
  | socketCreation (cause : String)
  | setDeadline (cause : String)
  | readTimeout
  | readFailed (cause : String)
  | writeFailed (cause : String)
  | invalidTtlRange (beginHop maxHops : UInt16)
  | invalidConfig (reason : String)
  deriving DecidableEq, Repr

namespace TraceError

def message : TraceError → String
  | .socketCreation cause => "Failed to create socket: " ++ cause
  | .setDeadline cause => "Failed to set read deadline: " ++ cause
  | .readTimeout => "Read timeout exceeded"
  | .readFailed cause => "Read failed: " ++ cause
  | .writeFailed cause => "Write failed: " ++ cause
  | .invalidTtlRange beginHop maxHops =>
    "Invalid TTL range: begin=" ++ toString beginHop.toNat ++ ", max=" ++ toString maxHops.toNat
  | .invalidConfig reason => "Invalid config: " ++ reason

/-- The operating system's words, where an error carries them. -/
def cause? : TraceError → Option String
  | .socketCreation cause => some cause
  | .setDeadline cause => some cause
  | .readFailed cause => some cause
  | .writeFailed cause => some cause
  | _ => none

/-- Deadlines expire on every idle wait, so they are routine. -/
def isRetryable : TraceError → Bool
  | .readTimeout => true
  | _ => false

def ofRead (e : OsError) : TraceError :=
  match e.kind with
  | .timedOut => .readTimeout
  | .wouldBlock => .readTimeout
  | .other => .readFailed e.text

end TraceError

end HopTrace
