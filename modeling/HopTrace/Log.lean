/-!
# Log lines

What the parts of a trace say about themselves, in the order said.
-/

namespace HopTrace.Log

inductive Level
  | trace
  | debug
  | info
  | warn
  | error
  deriving DecidableEq, Repr

inductive Field
  | number (i : Int)
  | text (s : String)
  deriving DecidableEq, Repr

structure Entry where
  level : Level
  message : String
  fields : List (String × Field) := []
  deriving DecidableEq, Repr

def Level.name : Level → String
  | .trace => "TRACE"
  | .debug => "DEBUG"
  | .info => "INFO"
  | .warn => "WARN"
  | .error => "ERROR"

end HopTrace.Log
