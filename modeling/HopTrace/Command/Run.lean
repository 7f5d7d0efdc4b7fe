import HopTrace.Command.Args
import HopTrace.Command.Input
import HopTrace.Json.Value
import HopTrace.Listening
import HopTrace.Plugin.Registry
import HopTrace.Replay

/-!
# What the commands do

A command ends with an exit code, what it writes, and the error that it
reports if it fails. A command line that is not carried out has no error of
its own.
-/

namespace HopTrace.Command

structure Outcome where
  exit : UInt8 := 0
  output : String := ""
  error : Option String := none
  log : List Log.Entry := []
  deriving DecidableEq, Repr

def succeed (output : String) (log : List Log.Entry) : Outcome := { output, log }

def fail (error : String) (log : List Log.Entry) : Outcome :=
  { exit := 1, error := some error, log }

/-- A crash says nothing that is meant for the user. -/
def crashed (log : List Log.Entry) : Outcome := { exit := 101, log }

def versionText : String := "traceroute 0.1.0"

def Stop.outcome (usage : String) : Stop → Outcome
  | .usage => { exit := 2 }
  | .version => succeed (versionText ++ "\n") []
  | .help => succeed usage []

/-! ## Reducing -/

namespace ReduceOptions

/-- Whether the table comes from the standard input. -/
def readsStdin (o : ReduceOptions) : Bool := o.input == "-"

def inputName (o : ReduceOptions) : String := if o.readsStdin then "stdin" else o.input

def runOn (o : ReduceOptions) (text : String) : Outcome :=
  match Json.Value.ofText o.pluginParams with
  | .error _ => fail "Invalid plugin parameters" []
  | .ok params =>
    let (plugins, rejected) := Registry.builtin.createPlugins o.plugins params
    let set : PluginSet := ⟨plugins⟩
    let loaded : Log.Entry :=
      ⟨.debug, "Loaded plugins", [("plugins", .text (Text.quotedList set.names))]⟩
    let r := reduceText text o.destination o.maxHops set
    let log := rejected ++ loaded :: r.effects.log
    match r.result with
    | .ok route => succeed (route.pretty ++ "\n") log
    | .error (.rejected e) => fail ("Reduction failed: " ++ e.message) log
    | .error .spanTooLong => crashed log

/-- The input is read before anything else is looked at. -/
def run (o : ReduceOptions) (input : Except InputFault String) : Outcome :=
  match input with
  | .error fault => fail ("Failed to read " ++ o.inputName ++ ": " ++ fault.text) []
  | .ok text => o.runOn text

end ReduceOptions

/-! ## Listening -/

def ListenOptions.config (o : ListenOptions) : ListenerConfig := { readTimeout := o.readTimeout }

def ListenOptions.start (o : ListenOptions) : Listening := { limit := o.count }

/-- The end of listening, or the failure to begin. -/
def listened : Except TraceError Listening → Outcome
  | .ok l =>
    succeed "" (l.log ++ [⟨.info, "Listener finished", [("received", .number l.received)]⟩])
  | .error e => fail ("Listener failed: " ++ e.message) []

end HopTrace.Command
