import HopTrace.Trace.Basic

/-!
# The steps of a trace

Main loop, probes, receive loop and dispatcher take turns. A turn is a section
that nothing interrupts; a part that has to wait has none. Where several threads
run them, the others may have their turns between any two turns of a probe.
Sends and reads end from outside, and so does time pass. The clock has no end
here; pauses and timeouts past the range of a real one are idealised.
-/

namespace HopTrace

/-- Whose turn it is, or what happens outside. -/
inductive TraceEvent
  | main
  | probe (i : Nat)
  | sendEnds (i : Nat) (e : SendEnd)
  /-- The receive loop begins an attempt or publishes a message. -/
  | loop
  /-- The receive loop begins an attempt and cannot set its deadline. -/
  | refuse (cause : String)
  | readEnds (r : ReadEnd)
  | dispatch
  | passTime (now : Nat)

namespace Trace

/-! ## The main loop -/

def drain (t : Trace) : Trace :=
  { t with group := t.group.wait, stage := .draining t.group.waiters.size }

def advance (t : Trace) (ttl : UInt16) : Trace :=
  if ttl < t.setup.params.maxHops then { t with stage := .checking (ttl + 1) } else t.drain

/-- Stops before a hop once the destination has been reached, and begins it otherwise. -/
def check (t : Trace) (ttl : UInt16) : Trace :=
  let (arrival, reached) := t.arrival.tryTake
  if reached then
    ({ t with arrival }.say ⟨.debug, "Destination reached, not probing further",
      [("ttl", .number ttl.toNat)]⟩).drain
  else { { t with arrival }.fire (.ttlChange ttl) with stage := .requesting ttl t.measurements }

/-- Spawns a probe; its number is the count of those before it. -/
def spawn (t : Trace) (ttl : UInt16) (left : Nat) : Trace :=
  { t with
    probes := t.probes.push { key := ⟨ttl, UInt32.ofNat t.probes.size⟩ }
    stage := .requesting ttl left }

def conclude (t : Trace) : Trace :=
  match t.sendError with
  | some e => { t with stage := .done (.error e) }
  | none =>
    let route := t.table.reduce (HopTable.boundAfter t.setup.params.maxHops) t.setup.destination
    { t with stage := .done (.ok route) }.say
      ⟨.info, "Traceroute complete", [("hops", .number route.size)]⟩

def mainStep? (t : Trace) : Option Trace :=
  match t.stage with
  | .checking ttl => some (t.check ttl)
  | .requesting ttl 0 =>
    let pause := t.setup.params.ttlInterval
    if pause.isZero then some (t.advance ttl)
    else some { t with stage := .pausing ttl (t.now + pause.nanos) }
  | .requesting ttl (left + 1) =>
    let (gate, _) := t.gate.start
    some { t with gate, stage := .queued ttl left t.gate.requests.size }
  | .queued ttl left ticket =>
    let (gate, granted) := t.gate.poll ticket
    if granted then some { t with gate, stage := .admitted ttl left } else none
  | .admitted ttl left => some { t with group := t.group.add, stage := .joined ttl left }
  | .joined ttl left => some (t.spawn ttl left)
  | .pausing ttl wake => if wake ≤ t.now then some (t.advance ttl) else none
  | .draining ticket =>
    let (group, released) := t.group.poll ticket
    if released = some true then
      some { t with group, listener := t.listener.stop, stage := .closing }
    else none
  | .closing =>
    match t.dispatcher with
    | .finished => some { t with listener := t.listener.takeHandle, stage := .joining }
    | .crashed =>
      some ({ t with stage := .concluding }.say ⟨.warn, "Reply dispatcher failed", []⟩)
    | _ => none
  | .joining =>
    if t.listener.ended then
      some { t with listener := t.listener.reportEnd.drop, stage := .concluding }
    else none
  | .concluding => some t.conclude
  | .done _ => none

/-! ## The probes -/

def putProbe (t : Trace) (i : Nat) (p : Probe) : Trace :=
  { t with probes := t.probes.setIfInBounds i p }

def pending? (t : Trace) (key : ProbeKey) : Option Nat := t.pending.lookup key

def forget (t : Trace) (key : ProbeKey) : Trace :=
  { t with pending := t.pending.filter (·.1 ≠ key) }

/-- Does something to the probe that waits for replies to a key, if one does. -/
def atWaiting (t : Trace) (key : ProbeKey) (change : Probe → Probe) : Trace :=
  match t.pending? key with
  | some i => { t with probes := t.probes.modify i change }
  | none => t

/-- Lets a probe wait for replies to its key, instead of any other. -/
def expect (t : Trace) (key : ProbeKey) (i : Nat) : Trace :=
  let t := (t.atWaiting key (·.abandon)).forget key
  { t with pending := (key, i) :: t.pending }

def announced (t : Trace) (h : Hop) : List Address := h.answeredBy.toList.filter (· ∉ t.seen)

/-- What the plugins have to be told of a hop that is about to be recorded. -/
def newsOf (t : Trace) (h : Hop) : List Probe.News :=
  let hops := (t.table.record h).hops h.ttl
  (t.announced h).map .address ++
    if hops.length = t.measurements then [.completion h.ttl hops] else []

def record (t : Trace) (h : Hop) : Trace :=
  { t with table := t.table.record h, seen := t.announced h ++ t.seen }

def giveBack (t : Trace) : Trace :=
  let (gate, events) := t.gate.finished
  { t with gate, complaints := t.complaints ++ events.filterMap (·.log?) }

def leave (t : Trace) : Trace :=
  let (group, events) := t.group.done
  { t with group, complaints := t.complaints ++ events.filterMap (·.log?) }

def probeStep? (t : Trace) (i : Nat) : Option Trace := do
  let p ← t.probes[i]?
  match p.phase with
  | .spawned =>
    let t := t.expect p.key i
    some { t.putProbe i { p with phase := .sending t.now } with sent := (t.now, p.key) :: t.sent }
  | .sending _ => none
  | .withdrawing e => some ((t.forget p.key).putProbe i { p with phase := .failing e })
  | .failing e =>
    some ({ t with sendError := t.sendError <|> some e }.putProbe i
      { p with phase := .settled (.failed e) false [] })
  | .awaiting since deadline =>
    match p.slot with
    | .answered sender =>
      let h := Hop.reply p.key.ttl sender ⟨t.now - since⟩
      some (t.putProbe i { p with phase := .recording h })
    | .abandoned => some (t.putProbe i { p with phase := .expired })
    | .empty =>
      if deadline ≤ t.now then some (t.putProbe i { p with phase := .expired }) else none
  | .expired =>
    some ((t.forget p.key).putProbe i { p with phase := .recording (.timeout p.key.ttl) })
  | .recording h =>
    let arrived := h.reached t.setup.destination
    some ((t.record h).putProbe i { p with phase := .settled (.recorded h) arrived (t.newsOf h) })
  | .settled o true news =>
    some ({ t with arrival := t.arrival.raise.1 }.putProbe i
      { p with phase := .settled o false news })
  | .settled o false (n :: news) =>
    some ((t.fire n.hook).putProbe i { p with phase := .settled o false news })
  | .settled o false [] => some (t.giveBack.putProbe i { p with phase := .released o })
  | .released o => some (t.leave.putProbe i { p with phase := .ended o })
  | .ended _ => none

/-- The end of an attempt to send. From then on a sent probe has its time to be answered. -/
def sendEnds? (t : Trace) (i : Nat) (e : SendEnd) : Option Trace := do
  let p ← t.probes[i]?
  match p.phase, e with
  | .sending since, .sent =>
    let deadline := t.now + t.setup.params.timeout.nanos
    some (t.putProbe i { p with phase := .awaiting since deadline })
  | .sending _, .failed e =>
    some ((t.putProbe i { p with phase := .withdrawing e }).say ⟨.debug, "Failed to send probe",
      [("probe", .text p.key.text), ("error", .text e.message)]⟩)
  | .sending _, .crashed =>
    some (t.putProbe i { p with phase := .settled .crashed false [] })
  | _, _ => none

/-! ## The dispatcher -/

def deliver (t : Trace) (key : ProbeKey) (sender : Address) : Trace :=
  (t.atWaiting key (·.answer sender)).forget key

def dispatchStep? (t : Trace) : Option Trace :=
  match t.dispatcher with
  | .receiving =>
    match t.listener.receive? with
    | some (.ok d, listener) =>
      match t.setup.recognise d with
      | .reply key sender => some { t with listener, dispatcher := .delivering key sender }
      | .unrelated => some { t with listener }
      | .crash => some { t with listener := listener.drop, dispatcher := .crashed }
    | some (.error _, listener) => some { t with listener }
    | none => if t.listener.closed then some { t with dispatcher := .finished } else none
  | .delivering key sender => some { t.deliver key sender with dispatcher := .receiving }
  | .finished => none
  | .crashed => none

/-! ## All of them -/

/-- What an event makes of a trace, if it can happen. -/
def step (t : Trace) : TraceEvent → Option Trace
  | .main => t.mainStep?
  | .probe i => t.probeStep? i
  | .sendEnds i e => t.sendEnds? i e
  | .loop =>
    (t.listener.begin? t.now <|> t.listener.publish?).map fun listener => { t with listener }
  | .refuse cause => (t.listener.refuse? t.now cause).map fun listener => { t with listener }
  | .readEnds r => (t.listener.finish? r).map fun listener => { t with listener }
  | .dispatch => t.dispatchStep?
  | .passTime now => if t.now ≤ now then some { t with now } else none

/-- The trace after a sequence of events, each of which has to be possible in its turn. -/
def run (t : Trace) (events : List TraceEvent) : Option Trace := events.foldlM step t

end Trace

end HopTrace
