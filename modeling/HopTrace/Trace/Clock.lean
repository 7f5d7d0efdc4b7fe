import HopTrace.Network
import HopTrace.Trace.Step

/-!
# A trace on a virtual clock

A trace runs over a simulated network. Whoever can take a turn stands in a
queue; the main loop has its turn when the queue is empty, and first when its
pause ends. Time moves, to the next moment at which something happens, only
while nobody can take a turn.
-/

namespace HopTrace

inductive Task
  | main
  | receiver
  | dispatcher
  | probe (i : Nat)
  deriving DecidableEq, Repr

structure Simulation where
  trace : Trace
  network : Network
  /-- What is on its way, in order of arrival. -/
  arrivals : List Network.Arrival := []
  /-- When and how attempts to send end, by the number of the probe. -/
  sends : List (Nat × Nat × SendEnd) := []
  /-- A fault of the read in flight, which ends it at once. -/
  fault : Option ReadEnd := none
  /-- Who will take a turn; the first goes on as long as possible. -/
  queue : List Task := []

namespace Simulation

open Network (Arrival)

def insertArrival (a : Arrival) : List Arrival → List Arrival
  | [] => [a]
  | b :: rest => if a.time < b.time then a :: b :: rest else b :: insertArrival a rest

def schedule (arrivals : List Arrival) (more : List Arrival) : List Arrival :=
  more.foldl (fun all a => insertArrival a all) arrivals

def start (network : Network) (trace : Trace) : Simulation :=
  { trace, network, arrivals := schedule [] network.noise, queue := [.main] }

def happens (s : Simulation) (e : TraceEvent) : Option Simulation :=
  (s.trace.step e).map fun trace => { s with trace }

/-! ## Turns -/

/-- How the read in flight ends now, if it does. -/
def readEnd? (s : Simulation) (deadline : Nat) : Option (ReadEnd × List Arrival) :=
  match s.fault, s.arrivals with
  | some r, arrivals => some (r, arrivals)
  | none, a :: rest =>
    if a.time ≤ s.trace.now then some (.received a.bytes a.bytes.length a.peer, rest)
    else if deadline ≤ s.trace.now then some (.failed .readTimeout, a :: rest)
    else none
  | none, [] => if deadline ≤ s.trace.now then some (.failed .readTimeout, []) else none

def receiverTurn? (s : Simulation) : Option Simulation :=
  let l := s.trace.listener
  match l.loop with
  | .reading deadline => do
    let (r, arrivals) ← s.readEnd? deadline
    { s with arrivals, fault := none }.happens (.readEnds r)
  | .ready =>
    if !l.tries s.trace.now then s.happens .loop
    else
      match s.network.faults.lookup l.attempts with
      | some .deadline => s.happens (.refuse "simulated")
      | some .read => { s with fault := some (.failed (.readFailed "simulated")) }.happens .loop
      | some .timeout => { s with fault := some (.failed .readTimeout) }.happens .loop
      | some .crash => { s with fault := some .crashed }.happens .loop
      | none => s.happens .loop
  | _ => s.happens .loop

/-- Puts what becomes of a probe just sent on its way. -/
def launch (s : Simulation) (i : Nat) (key : ProbeKey) : Simulation :=
  let now := s.trace.now
  let b := s.network.behaviour key.ttl (s.trace.sent.countP (·.2.ttl = key.ttl))
  { s with
    arrivals := schedule s.arrivals (b.replies.map (·.arrival now key))
    sends := (i, now + b.sendTime, b.sendEnd) :: s.sends }

def probeTurn? (s : Simulation) (i : Nat) : Option Simulation := do
  let p ← s.trace.probes[i]?
  match p.phase with
  | .spawned => (s.launch i p.key).happens (.probe i)
  | .sending _ =>
    let (time, e) ← s.sends.lookup i
    if time ≤ s.trace.now then s.happens (.sendEnds i e) else none
  | _ => s.happens (.probe i)

def turn? (s : Simulation) : Task → Option Simulation
  | .main => s.happens .main
  | .receiver => s.receiverTurn?
  | .dispatcher => s.happens .dispatch
  | .probe i => s.probeTurn? i

def canRun (s : Simulation) (t : Task) : Bool := (s.turn? t).isSome

/-- Since when a probe has waited for a moment to come. -/
def waitingSince (s : Simulation) (i : Nat) : Nat :=
  match (s.trace.probes[i]?).map Probe.phase with
  | some (Probe.Phase.sending since) => since
  | some (Probe.Phase.awaiting _ deadline) => deadline - s.trace.setup.params.timeout.nanos
  | _ => 0

/-- Lets those who can run come into the queue; of the probes, those that waited longest first. -/
def enqueue (s : Simulation) : Simulation :=
  let joins := fun t => !s.queue.contains t && s.canRun t
  let probes := (s.trace.live.filter fun i => joins (.probe i)).mergeSort fun i j =>
    s.waitingSince i ≤ s.waitingSince j
  { s with queue := s.queue ++ [Task.receiver, .dispatcher].filter joins ++ probes.map .probe }

/-! ## Time -/

/-- When a probe will go on by itself. -/
def probeAlarm? (s : Simulation) (i : Nat) : Option Nat :=
  match (s.trace.probes[i]?).map Probe.phase with
  | some (Probe.Phase.sending _) => (s.sends.lookup i).map (·.1)
  | some (Probe.Phase.awaiting _ deadline) => some deadline
  | _ => none

def alarms (s : Simulation) : List Nat :=
  let pause := match s.trace.stage with
    | .pausing _ wake => [wake]
    | _ => []
  let read := match s.trace.listener.loop with
    | .reading deadline => deadline :: s.arrivals.head?.toList.map (·.time)
    | _ => []
  pause ++ read ++ s.trace.live.filterMap s.probeAlarm?

/-- Moves the clock to the next of those moments. -/
def tick? (s : Simulation) : Option Simulation := do
  let s ← s.happens (.passTime (← s.alarms.min?))
  return { s with queue := if s.canRun .main then [.main] else [] }.enqueue

/-! ## Runs -/

/-- The next section of whoever is first in the queue. -/
def next? (s : Simulation) : Option Simulation :=
  match s.queue with
  | task :: rest =>
    match s.turn? task with
    | some s => some s.enqueue
    | none => some { s with queue := rest }
  | [] => if s.canRun .main then some { s with queue := [.main] } else s.tick?

def runFor : Nat → Simulation → Simulation
  | 0, s => s
  | fuel + 1, s =>
    if s.trace.result?.isSome then s
    else match s.next? with
      | some s => runFor fuel s
      | none => s

/-- More sections than a run has. Its length is at most that of its probes one after the other,
and each read but the last ends with an arrival, a fault or its deadline. -/
def budget (s : Simulation) : Nat :=
  let p := s.trace.setup.params
  let hops := p.maxHops.toNat - p.beginHop.toNat + 1
  let probes := hops * p.numMeasurements.toNat
  let behaviours := s.network.otherwise :: s.network.hops.flatMap (·.2)
  let most := fun (f : Network.Behaviour → Nat) => (behaviours.map f).foldl max 0
  let time := probes * (most (·.sendTime) + p.timeout.nanos) + hops * p.ttlInterval.nanos
  let readTimeout := s.trace.setup.listening.readTimeout.nanos
  let arrivals := probes * most (·.replies.length) + s.network.noise.length
  let reads := time / max readTimeout 1 + arrivals + s.network.faults.length
  64 * (hops + probes + reads + 2)

def run (s : Simulation) : Simulation := s.runFor s.budget

end Simulation

def Network.trace (net : Network) (setup : TraceSetup) (plugins : PluginSet) : Trace :=
  (Simulation.start net (.start setup plugins)).run.trace

end HopTrace
