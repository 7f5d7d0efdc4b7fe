import HopTrace.Command.Run
import Std.Async.Signal
import Std.Async.UDP

/-!
# The program

Reads what a command needs, carries it out, and writes its outcome: the output
to the standard output, the log and the error to the standard error.
-/

namespace HopTrace.Program

open Std.Async

def usageText : String :=
  "Hop table reduction and reply listening\n\n" ++
  "Usage: traceroute [--verbose] <command> [options]\n\n" ++
  "Commands:\n" ++
  "  reduce  --input <path or -> --destination <address> [--max-hops <n>]\n" ++
  "          [--plugins <names>] [--plugin-params <json>]\n" ++
  "  listen  --bind <endpoint> [--count <n>] [--read-timeout <milliseconds>]\n"

/-! ## The log -/

def isShown (verbose : Bool) : Log.Level → Bool
  | .trace => false
  | .debug => verbose
  | _ => true

def line (e : Log.Entry) : String :=
  let fields := e.fields.map fun (name, value) =>
    " " ++ name ++ "=" ++ match value with
      | .number i => toString i
      | .text s => s
  e.level.name ++ " " ++ e.message ++ String.join fields

def say (verbose : Bool) (log : List Log.Entry) : IO Unit := do
  for e in log do
    if isShown verbose e.level then IO.eprintln (line e)

/-! ## What comes from outside -/

/-- The words of the operating system, with the number of the error, which may come negated. -/
def osText (code : UInt32) (details : String) : String :=
  let number := if code < 0x80000000 then code else 0 - code
  let words := match number with
    | 99 => "Cannot assign requested address"
    | _ => details.capitalize
  words ++ " (os error " ++ toString number ++ ")"

def osError (e : IO.Error) : OsError :=
  match e with
  | .noFileOrDirectory _ code details => { text := osText code details }
  | .permissionDenied _ code details => { text := osText code details }
  | .inappropriateType _ code details => { text := osText code details }
  | .invalidArgument _ code details => { text := osText code details }
  | .resourceExhausted _ code details => { text := osText code details }
  | .resourceBusy code details => { text := osText code details }
  | .resourceVanished code details => { text := osText code details }
  | .unsupportedOperation code details => { text := osText code details }
  | .timeExpired code details => { kind := .timedOut, text := osText code details }
  | .otherError code details => { text := osText code details }
  | e => { text := toString e }

def readInput (o : Command.ReduceOptions) : IO (Except Command.InputFault String) := do
  try
    let bytes ←
      if o.readsStdin then (← IO.getStdin).readBinToEnd else IO.FS.readBinFile o.input
    return Command.decode bytes
  catch e => return .error (.os (osError e))

/-! ## Sockets -/

def socketAddress (e : Endpoint) : Std.Net.SocketAddress :=
  match e.address with
  | .v4 o => .v4 ⟨⟨#v[o.a, o.b, o.c, o.d]⟩, e.port⟩
  | .v6 g => .v6 ⟨⟨Vector.ofFn fun i => g.parts.getD i 0⟩, e.port⟩

def endpoint : Std.Net.SocketAddress → Endpoint
  | .v4 a =>
    let o := a.addr.octets
    ⟨.v4 ⟨o[0], o[1], o[2], o[3]⟩, a.port, 0⟩
  | .v6 a => ⟨.v6 ⟨a.addr.segments.toList, by simp⟩, a.port, 0⟩

/-- The next datagram or failure, unless the user interrupts first. A deadline that passes would
be passed over, so none is set. -/
def next (socket : UDP.Socket) (interrupt : Std.Async.Signal.Waiter) (size : Nat) :
    Async Incoming := do
  try
    Selectable.one #[
      .case (socket.recvSelector size.toUInt64) fun (bytes, peer) =>
        let peer := (peer.map endpoint).getD ⟨.v4 ⟨0, 0, 0, 0⟩, 0, 0⟩
        return .message (.ok ⟨bytes.size, peer, bytes.data.toList⟩),
      .case interrupt.selector fun _ => return .interrupt]
  catch e => return .message (.error (.ofRead (osError e)))

partial def listen (socket : UDP.Socket) (interrupt : Std.Async.Signal.Waiter) (size : Nat)
    (verbose : Bool) (l : Listening) : Async Listening := do
  if l.goesOn then
    let l := { l with log := [] }.hear (← next socket interrupt size)
    say verbose l.log
    listen socket interrupt size verbose { l with log := [] }
  else return l

def runListen (verbose : Bool) (o : Command.ListenOptions) : IO Command.Outcome := do
  let bound ← try
      let socket ← UDP.Socket.mk
      socket.bind (socketAddress o.bind)
      pure (Except.ok socket)
    catch e => pure (Except.error (TraceError.socketCreation (osError e).text))
  match bound with
  | .error e => return Command.listened (.error e)
  | .ok socket =>
    let interrupt ← Std.Async.Signal.Waiter.mk .sigint false
    let l ← (listen socket interrupt o.config.bufferSize verbose o.start).block
    return Command.listened (.ok l)

def run (args : List String) : IO UInt32 := do
  let (verbose, outcome) ← match Command.ofArgs args with
    | .error stop => pure (false, stop.outcome usageText)
    | .ok invocation =>
      let outcome ← match invocation.command with
        | .reduce o => do pure (o.run (← readInput o))
        | .listen o => runListen invocation.verbose o
      pure (invocation.verbose, outcome)
  say verbose outcome.log
  IO.print outcome.output
  if let some e := outcome.error then IO.eprintln ("Error: " ++ e)
  if outcome.exit = 2 then IO.eprint usageText
  return outcome.exit.toUInt32

end HopTrace.Program

def main (args : List String) : IO UInt32 := HopTrace.Program.run args
