import HopTrace.Command.Options
import HopTrace.Endpoint
import HopTrace.Params.Basic
import HopTrace.Text.Digits

/-!
# The commands and their options

`reduce` cuts a hop table down to its route, and `listen` reports the datagrams
that arrive. No option may be given twice; being verbose may be asked for both
before and after the command.
-/

namespace HopTrace.Command

structure ReduceOptions where
  /-- A path, or a dash for the standard input. -/
  input : String
  destination : Address
  maxHops : UInt16 := ({} : Params).maxHops
  /-- An enable-list. -/
  plugins : String := ""
  /-- JSON text. -/
  pluginParams : String := "null"
  deriving DecidableEq, Repr

structure ListenOptions where
  bind : Endpoint
  /-- How many datagrams to wait for. -/
  count : Option Nat := none
  readTimeout : Duration := .ofSecs 2
  deriving DecidableEq, Repr

end HopTrace.Command

namespace HopTrace

inductive Command
  | reduce (o : Command.ReduceOptions)
  | listen (o : Command.ListenOptions)
  deriving DecidableEq, Repr

structure Invocation where
  verbose : Bool
  command : Command
  deriving DecidableEq, Repr

namespace Command

open HopTrace.Text

/-! ## Values -/

/-- A whole number of sixteen bits; zero may have a minus sign. -/
def natural16? (s : String) : Option UInt16 :=
  let n := match s.toList with
    | '-' :: ds => natOfText? 0 ds
    | '+' :: ds => natOfText? 0xffff ds
    | ds => natOfText? 0xffff ds
  n.map UInt16.ofNat

/-- A natural number of 64 bits. -/
def natural64? (s : String) : Option Nat :=
  match s.toList with
  | '+' :: ds => natOfText? 0xffffffffffffffff ds
  | ds => natOfText? 0xffffffffffffffff ds

/-- Accepts the value of an option that was not given before. -/
def once {α : Type} (before value : Option α) : Except Stop (Option α) :=
  match before, value with
  | none, some a => .ok (some a)
  | _, _ => .error .usage

/-! ## Options -/

def verboseOption : OptionSpec := { name := "verbose", letter := some 'v', valued := false }

def helpOption : OptionSpec := { name := "help", letter := some 'h', valued := false }

def versionOption : OptionSpec := { name := "version", letter := some 'V', valued := false }

structure ReduceDraft where
  verbose : Option Unit := none
  input : Option String := none
  destination : Option Address := none
  maxHops : Option UInt16 := none
  plugins : Option String := none
  pluginParams : Option String := none

def reduceSpecs : List OptionSpec := [
  { name := "input", letter := some 'i' },
  { name := "destination", letter := some 'd' },
  { name := "max-hops", letter := some 'm' },
  { name := "plugins" },
  { name := "plugin-params" },
  verboseOption, helpOption]

def ReduceDraft.heed (d : ReduceDraft) (name value : String) : Except Stop ReduceDraft :=
  match name with
  | "input" => do
    return { d with input := ← once d.input (if value = "" then none else some value) }
  | "destination" => do
    return { d with destination := ← once d.destination (Address.ofText? value) }
  | "max-hops" => do return { d with maxHops := ← once d.maxHops (natural16? value) }
  | "plugins" => do return { d with plugins := ← once d.plugins (some value) }
  | "plugin-params" => do return { d with pluginParams := ← once d.pluginParams (some value) }
  | "verbose" => do return { d with verbose := ← once d.verbose (some ()) }
  | _ => .error .help

structure ListenDraft where
  verbose : Option Unit := none
  bind : Option Endpoint := none
  count : Option Nat := none
  readTimeout : Option Nat := none

def listenSpecs : List OptionSpec := [
  { name := "bind", letter := some 'b' },
  { name := "count", letter := some 'c' },
  { name := "read-timeout" },
  verboseOption, helpOption]

def ListenDraft.heed (d : ListenDraft) (name value : String) : Except Stop ListenDraft :=
  match name with
  | "bind" => do return { d with bind := ← once d.bind (Endpoint.ofText? value) }
  | "count" => do return { d with count := ← once d.count (natural64? value) }
  | "read-timeout" => do return { d with readTimeout := ← once d.readTimeout (natural64? value) }
  | "verbose" => do return { d with verbose := ← once d.verbose (some ()) }
  | _ => .error .help

/-! ## Commands -/

def readReduce (verbose : Bool) (words : List String) : Except Stop Invocation := do
  let (d, rest) ← readOptions reduceSpecs ReduceDraft.heed {} words
  match d.input, d.destination, rest with
  | some input, some destination, [] =>
    let o : ReduceOptions := { input, destination }
    return {
      verbose := verbose || d.verbose.isSome
      command := .reduce { o with
        maxHops := d.maxHops.getD o.maxHops
        plugins := d.plugins.getD o.plugins
        pluginParams := d.pluginParams.getD o.pluginParams } }
  | _, _, _ => .error .usage

def readListen (verbose : Bool) (words : List String) : Except Stop Invocation := do
  let (d, rest) ← readOptions listenSpecs ListenDraft.heed {} words
  match d.bind, rest with
  | some bind, [] =>
    let o : ListenOptions := { bind }
    return {
      verbose := verbose || d.verbose.isSome
      command := .listen { o with
        count := d.count
        readTimeout := (d.readTimeout.map Duration.ofMillis).getD o.readTimeout } }
  | _, _ => .error .usage

/-- The options before the command. -/
def heedGlobal (verbose : Option Unit) (name _ : String) : Except Stop (Option Unit) :=
  match name with
  | "verbose" => once verbose (some ())
  | "version" => .error .version
  | _ => .error .help

def ofArgs (words : List String) : Except Stop Invocation := do
  let (verbose, rest) ←
    readOptions [verboseOption, versionOption, helpOption] heedGlobal none words
  match rest with
  | "reduce" :: words => readReduce verbose.isSome words
  | "listen" :: words => readListen verbose.isSome words
  | ["help"] => .error .help
  | ["help", topic] =>
    .error (if ["reduce", "listen", "help"].contains topic then .help else .usage)
  | _ => .error .usage

end Command

end HopTrace
