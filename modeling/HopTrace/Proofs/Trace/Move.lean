import HopTrace.Proofs.Trace.History

/-!
# What a step can do

Every step of a trace is a move of its main loop, of one of its probes, of its
dispatcher, of its receive loop, or of the clock. The relations below list
these moves, each with its condition and all that it changes. What is written
to the log is left open.
-/

namespace HopTrace

inductive Listener.LoopMove (l : Listener) (now : Nat) : TraceEvent → Listener → Prop
  | quit {log} (loop : l.loop = .ready) (stopped : l.stopRequested = true) :
      LoopMove l now .loop { l with loop := .exited, holder := .nobody, log }
  | fall (loop : l.loop = .ready) (goesOn : l.stopRequested = false)
      (unfit : l.config.fits now = false) :
      LoopMove l now .loop { l with
        attempts := l.attempts + 1
        loop := .crashed
        holder := .nobody }
  | attempt (loop : l.loop = .ready) (goesOn : l.stopRequested = false)
      (fit : l.config.fits now = true) :
      LoopMove l now .loop { l with
        attempts := l.attempts + 1
        loop := .reading (now + l.config.readTimeout.nanos) }
  | refuse {cause} (loop : l.loop = .ready) (goesOn : l.stopRequested = false)
      (fit : l.config.fits now = true) :
      LoopMove l now (.refuse cause) { l with
        attempts := l.attempts + 1
        loop := .holding (.error (.setDeadline cause)) }
  | crash {deadline} (loop : l.loop = .reading deadline) :
      LoopMove l now (.readEnds .crashed) { l with loop := .crashed, holder := .nobody }
  | hold {deadline r m log} (loop : l.loop = .reading deadline) :
      LoopMove l now (.readEnds r) { l with loop := .holding m, log }
  | lose {m log} (loop : l.loop = .holding m) (lost : l.consumed = false) :
      LoopMove l now .loop { l with loop := .exited, holder := .nobody, log }
  | publish {m} (loop : l.loop = .holding m) (heard : l.consumed = true)
      (room : l.stream.length < l.config.bound) :
      LoopMove l now .loop { l with stream := l.stream ++ [m], loop := .ready }

namespace Trace

variable {t t' : Trace}

/-- Whether nothing keeps the main loop at a hop all of whose probes are spawned. -/
def HopOver (t : Trace) (ttl : UInt16) : Prop :=
  (t.stage = .requesting ttl 0 ∧ t.setup.params.ttlInterval.isZero = true) ∨
    ∃ wake ≤ t.now, t.stage = .pausing ttl wake

inductive MainMove (t : Trace) : Trace → Prop
  | stop {ttl log} (stage : t.stage = .checking ttl) (raised : t.arrival.pending = true) :
      MainMove t { t with
        arrival := { t.arrival with pending := false }
        log
        group := t.group.wait
        stage := .draining t.group.waiters.size }
  | beginHop {ttl} (stage : t.stage = .checking ttl) (quiet : t.arrival.pending = false) :
      MainMove t { t with
        arrival := { t.arrival with pending := false }
        plugins := (t.plugins.fire (.ttlChange ttl)).1
        fired := ⟨t.now, .ttlChange ttl, (t.plugins.fire (.ttlChange ttl)).2⟩ :: t.fired
        stage := .requesting ttl t.measurements }
  | request {ttl left} (stage : t.stage = .requesting ttl (left + 1)) :
      MainMove t { t with
        gate := t.gate.start.1
        stage := .queued ttl left t.gate.requests.size }
  | grant {ttl left ticket} (stage : t.stage = .queued ttl left ticket)
      (granted : (t.gate.poll ticket).2 = true) :
      MainMove t { t with gate := (t.gate.poll ticket).1, stage := .admitted ttl left }
  | join {ttl left} (stage : t.stage = .admitted ttl left) :
      MainMove t { t with group := t.group.add, stage := .joined ttl left }
  | spawn {ttl left} (stage : t.stage = .joined ttl left) :
      MainMove t { t with
        probes := t.probes.push { key := ⟨ttl, UInt32.ofNat t.probes.size⟩ }
        stage := .requesting ttl left }
  | pause {ttl wake} (stage : t.stage = .requesting ttl 0) :
      MainMove t { t with stage := .pausing ttl wake }
  | nextHop {ttl} (passed : t.HopOver ttl) (more : ttl < t.setup.params.maxHops) :
      MainMove t { t with stage := .checking (ttl + 1) }
  | lastHop {ttl} (passed : t.HopOver ttl) (last : ¬ ttl < t.setup.params.maxHops) :
      MainMove t { t with group := t.group.wait, stage := .draining t.group.waiters.size }
  | release {ticket} (stage : t.stage = .draining ticket)
      (released : (t.group.poll ticket).2 = some true) :
      MainMove t { t with
        group := (t.group.poll ticket).1
        listener := t.listener.stop
        stage := .closing }
  | reap (stage : t.stage = .closing) (finished : t.dispatcher = .finished) :
      MainMove t { t with listener := t.listener.takeHandle, stage := .joining }
  | miss {log} (stage : t.stage = .closing) (crashed : t.dispatcher = .crashed) :
      MainMove t { t with log, stage := .concluding }
  | leave (stage : t.stage = .joining) (ended : t.listener.ended = true) :
      MainMove t { t with listener := t.listener.reportEnd.drop, stage := .concluding }
  | fail {e} (stage : t.stage = .concluding) (failed : t.sendError = some e) :
      MainMove t { t with stage := .done (.error e) }
  | succeed {log} (stage : t.stage = .concluding) (clean : t.sendError = none) :
      MainMove t { t with
        log
        stage := .done (.ok (t.table.reduce (HopTable.boundAfter t.setup.params.maxHops)
          t.setup.destination)) }

def probesAt (t : Trace) (key : ProbeKey) (change : Probe → Probe) : Array Probe :=
  match t.pending? key with
  | some i => t.probes.modify i change
  | none => t.probes

theorem atWaiting_eq (t : Trace) (key : ProbeKey) (change : Probe → Probe) :
    t.atWaiting key change = { t with probes := t.probesAt key change } := by
  unfold atWaiting probesAt
  cases t.pending? key <;> rfl

def firings (now : Nat) (plugins : PluginSet) : List Hook → List Firing
  | [] => []
  | h :: hs => firings now (plugins.fire h).1 hs ++ [⟨now, h, (plugins.fire h).2⟩]

theorem firings_hooks (now : Nat) (plugins : PluginSet) (hooks : List Hook) :
    (firings now plugins hooks).map (·.hook) = hooks.reverse := by
  induction hooks generalizing plugins with
  | nil => rfl
  | cons h hs ih => simp [firings, ih]

theorem fireAll_eq (t : Trace) (hooks : List Hook) :
    t.fireAll hooks = { t with
      plugins := (t.plugins.fireAll hooks).1
      fired := firings t.now t.plugins hooks ++ t.fired } := by
  induction hooks generalizing t with
  | nil => rfl
  | cons h hs ih =>
    rw [fireAll, ih]
    simp [fire, firings, PluginSet.fireAll]

inductive ProbeMove (t : Trace) (i : Nat) (p : Probe) : TraceEvent → Probe.Phase → Trace → Prop
  | register (phase : p.phase = .spawned) :
      ProbeMove t i p (.probe i) (.sending t.now) { t with
        probes := (t.probesAt p.key (·.abandon)).setIfInBounds i
          { p with phase := .sending t.now }
        pending := (p.key, i) :: t.pending.filter (·.1 ≠ p.key)
        sent := (t.now, p.key) :: t.sent }
  | sent {since} (phase : p.phase = .sending since) :
      ProbeMove t i p (.sendEnds i .sent)
        (.awaiting since (t.now + t.setup.params.timeout.nanos)) { t with
          probes := t.probes.setIfInBounds i
            { p with phase := .awaiting since (t.now + t.setup.params.timeout.nanos) } }
  | refused {since e log} (phase : p.phase = .sending since) :
      ProbeMove t i p (.sendEnds i (.failed e)) (.withdrawing e) { t with
        probes := t.probes.setIfInBounds i { p with phase := .withdrawing e }
        log }
  | crash {since} (phase : p.phase = .sending since) :
      ProbeMove t i p (.sendEnds i .crashed) (.settled .crashed false []) { t with
        probes := t.probes.setIfInBounds i { p with phase := .settled .crashed false [] } }
  | withdraw {e} (phase : p.phase = .withdrawing e) :
      ProbeMove t i p (.probe i) (.failing e) { t with
        pending := t.pending.filter (·.1 ≠ p.key)
        probes := t.probes.setIfInBounds i { p with phase := .failing e } }
  | fail {e} (phase : p.phase = .failing e) :
      ProbeMove t i p (.probe i) (.settled (.failed e) false []) { t with
        sendError := t.sendError <|> some e
        probes := t.probes.setIfInBounds i { p with phase := .settled (.failed e) false [] } }
  | accept {since deadline sender} (phase : p.phase = .awaiting since deadline)
      (answered : p.slot = .answered sender) :
      ProbeMove t i p (.probe i) (.recording (.reply p.key.ttl sender ⟨t.now - since⟩)) { t with
        probes := t.probes.setIfInBounds i
          { p with phase := .recording (.reply p.key.ttl sender ⟨t.now - since⟩) } }
  | expire {since deadline} (phase : p.phase = .awaiting since deadline)
      (due : p.slot = .abandoned ∨ p.slot = .empty ∧ deadline ≤ t.now) :
      ProbeMove t i p (.probe i) .expired { t with
        probes := t.probes.setIfInBounds i { p with phase := .expired } }
  | giveUp (phase : p.phase = .expired) :
      ProbeMove t i p (.probe i) (.recording (.timeout p.key.ttl)) { t with
        pending := t.pending.filter (·.1 ≠ p.key)
        probes := t.probes.setIfInBounds i { p with phase := .recording (.timeout p.key.ttl) } }
  | record {h} (phase : p.phase = .recording h) :
      ProbeMove t i p (.probe i)
        (.settled (.recorded h) (h.reached t.setup.destination) (t.newsOf h)) { t with
          table := t.table.record h
          seen := t.announced h ++ t.seen
          probes := t.probes.setIfInBounds i { p with
            phase := .settled (.recorded h) (h.reached t.setup.destination) (t.newsOf h) } }
  | signal {o news} (phase : p.phase = .settled o true news) :
      ProbeMove t i p (.probe i) (.settled o false news) { t with
        arrival := t.arrival.raise.1
        probes := t.probes.setIfInBounds i { p with phase := .settled o false news } }
  | tell {o n news} (phase : p.phase = .settled o false (n :: news)) :
      ProbeMove t i p (.probe i) (.settled o false news) { t with
        plugins := (t.plugins.fire n.hook).1
        fired := ⟨t.now, n.hook, (t.plugins.fire n.hook).2⟩ :: t.fired
        probes := t.probes.setIfInBounds i { p with phase := .settled o false news } }
  | giveBack {o} (phase : p.phase = .settled o false []) :
      ProbeMove t i p (.probe i) (.released o)
        (t.giveBack.putProbe i { p with phase := .released o })
  | leave {o} (phase : p.phase = .released o) :
      ProbeMove t i p (.probe i) (.ended o) (t.leave.putProbe i { p with phase := .ended o })

inductive DispatchMove (t : Trace) : Trace → Prop
  | receive {d rest key sender} (receiving : t.dispatcher = .receiving)
      (stream : t.listener.stream = .ok d :: rest)
      (recognised : t.setup.recognise d = .reply key sender) :
      DispatchMove t { t with
        listener := { t.listener with stream := rest }
        dispatcher := .delivering key sender }
  | ignore {m rest} (receiving : t.dispatcher = .receiving) (stream : t.listener.stream = m :: rest)
      (unrelated : ∀ d, m = .ok d → t.setup.recognise d = .unrelated) :
      DispatchMove t { t with listener := { t.listener with stream := rest } }
  | crash {d rest} (receiving : t.dispatcher = .receiving)
      (stream : t.listener.stream = .ok d :: rest) (trap : t.setup.recognise d = .crash) :
      DispatchMove t { t with
        listener := Listener.drop { t.listener with stream := rest }
        dispatcher := .crashed }
  | finish (receiving : t.dispatcher = .receiving) (closed : t.listener.closed = true) :
      DispatchMove t { t with dispatcher := .finished }
  | deliver {key sender} (delivering : t.dispatcher = .delivering key sender) :
      DispatchMove t { t with
        probes := t.probesAt key (·.answer sender)
        pending := t.pending.filter (·.1 ≠ key)
        dispatcher := .receiving }

inductive Move (t : Trace) : TraceEvent → Trace → Prop
  | main {s} (move : MainMove t s) : Move t .main s
  | probe {i p e q s} (found : t.probes[i]? = some p) (move : ProbeMove t i p e q s) : Move t e s
  | dispatch {s} (move : DispatchMove t s) : Move t .dispatch s
  | loop {e l} (move : t.listener.LoopMove t.now e l) : Move t e { t with listener := l }
  | clock {now} (later : t.now ≤ now) : Move t (.passTime now) { t with now }

theorem mainMove_of_step (h : t.mainStep? = some t') : MainMove t t' := by
  unfold mainStep? at h
  split at h
  next ttl hs =>
    obtain rfl := Option.some.inj h
    unfold check Signal.tryTake
    cases hp : t.arrival.pending with
    | true => exact .stop hs hp
    | false => exact .beginHop hs hp
  next ttl hs =>
    dsimp only at h
    split at h
    next hz =>
      obtain rfl := Option.some.inj h
      unfold advance
      split
      next hm => exact .nextHop (.inl ⟨hs, hz⟩) hm
      next hm => exact .lastHop (.inl ⟨hs, hz⟩) hm
    next =>
      obtain rfl := Option.some.inj h
      exact .pause hs
  next ttl left hs =>
    obtain rfl := Option.some.inj h
    exact .request hs
  next ttl left ticket hs =>
    dsimp only at h
    split at h
    next hg =>
      obtain rfl := Option.some.inj h
      exact .grant hs hg
    next => contradiction
  next ttl left hs =>
    obtain rfl := Option.some.inj h
    exact .join hs
  next ttl left hs =>
    obtain rfl := Option.some.inj h
    exact .spawn hs
  next ttl wake hs =>
    split at h
    next hw =>
      obtain rfl := Option.some.inj h
      unfold advance
      split
      next hm => exact .nextHop (.inr ⟨wake, hw, hs⟩) hm
      next hm => exact .lastHop (.inr ⟨wake, hw, hs⟩) hm
    next => contradiction
  next ticket hs =>
    dsimp only at h
    split at h
    next hr =>
      obtain rfl := Option.some.inj h
      exact .release hs hr
    next => contradiction
  next hs =>
    split at h
    next hd =>
      obtain rfl := Option.some.inj h
      exact .reap hs hd
    next hd =>
      obtain rfl := Option.some.inj h
      exact .miss hs hd
    next => contradiction
  next hs =>
    split at h
    next he =>
      obtain rfl := Option.some.inj h
      exact .leave hs he
    next => contradiction
  next hs =>
    obtain rfl := Option.some.inj h
    unfold conclude
    split
    next e he => exact .fail hs he
    next he => exact .succeed hs he
  next => contradiction

theorem probeMove_of_step {i : Nat} (h : t.probeStep? i = some t') :
    ∃ p q, t.probes[i]? = some p ∧ ProbeMove t i p (.probe i) q t' := by
  unfold probeStep? at h
  obtain ⟨p, hp, h⟩ := Option.bind_eq_some_iff.mp h
  refine ⟨p, ?_⟩
  split at h
  next hph =>
    obtain rfl := Option.some.inj h
    simp only [expect, forget, putProbe, atWaiting_eq]
    exact ⟨_, hp, .register hph⟩
  next => contradiction
  next e hph =>
    obtain rfl := Option.some.inj h
    exact ⟨_, hp, .withdraw hph⟩
  next e hph =>
    obtain rfl := Option.some.inj h
    exact ⟨_, hp, .fail hph⟩
  next since deadline hph =>
    split at h
    next sender hs =>
      obtain rfl := Option.some.inj h
      exact ⟨_, hp, .accept hph hs⟩
    next hs =>
      obtain rfl := Option.some.inj h
      exact ⟨_, hp, .expire hph (.inl hs)⟩
    next hs =>
      split at h
      next hd =>
        obtain rfl := Option.some.inj h
        exact ⟨_, hp, .expire hph (.inr ⟨hs, hd⟩)⟩
      next => contradiction
  next hph =>
    obtain rfl := Option.some.inj h
    exact ⟨_, hp, .giveUp hph⟩
  next h' hph =>
    obtain rfl := Option.some.inj h
    exact ⟨_, hp, .record hph⟩
  next o news hph =>
    obtain rfl := Option.some.inj h
    exact ⟨_, hp, .signal hph⟩
  next o n news hph =>
    obtain rfl := Option.some.inj h
    exact ⟨_, hp, .tell hph⟩
  next o hph =>
    obtain rfl := Option.some.inj h
    exact ⟨_, hp, .giveBack hph⟩
  next o hph =>
    obtain rfl := Option.some.inj h
    exact ⟨_, hp, .leave hph⟩
  next => contradiction

theorem probeMove_of_sendEnds {i : Nat} {r : SendEnd} (h : t.sendEnds? i r = some t') :
    ∃ p q, t.probes[i]? = some p ∧ ProbeMove t i p (.sendEnds i r) q t' := by
  unfold sendEnds? at h
  obtain ⟨p, hp, hm⟩ := Option.bind_eq_some_iff.mp h
  refine ⟨p, ?_⟩
  cases hph : p.phase with
  | sending since =>
    cases r with
    | sent =>
      obtain rfl : _ = t' := by simpa only [hph, Option.some.injEq] using hm
      exact ⟨_, hp, .sent hph⟩
    | failed e =>
      obtain rfl : _ = t' := by simpa only [hph, Option.some.injEq] using hm
      exact ⟨_, hp, .refused hph⟩
    | crashed =>
      obtain rfl : _ = t' := by simpa only [hph, Option.some.injEq] using hm
      exact ⟨_, hp, .crash hph⟩
  | _ => simp [hph] at hm

theorem dispatchMove_of_step (h : t.dispatchStep? = some t') : DispatchMove t t' := by
  unfold dispatchStep? Listener.receive? at h
  split at h
  next hd =>
    cases hs : t.listener.stream with
    | nil =>
      simp only [hs] at h
      split at h
      next hc =>
        obtain rfl := Option.some.inj h
        exact .finish hd hc
      next => contradiction
    | cons m rest =>
      simp only [hs] at h
      cases m with
      | error e =>
        obtain rfl := Option.some.inj h
        exact .ignore hd hs (by simp)
      | ok d =>
        cases hr : t.setup.recognise d with
        | reply key sender =>
          simp only [hr] at h
          obtain rfl := Option.some.inj h
          exact .receive hd hs hr
        | unrelated =>
          simp only [hr] at h
          obtain rfl := Option.some.inj h
          exact .ignore hd hs (by simpa using hr)
        | crash =>
          simp only [hr] at h
          obtain rfl := Option.some.inj h
          exact .crash hd hs hr
  next key sender hd =>
    obtain rfl := Option.some.inj h
    simp only [deliver, forget, atWaiting_eq]
    exact .deliver hd
  next => contradiction
  next => contradiction

end Trace

namespace Listener

variable {l l' : Listener} {now : Nat}

theorem loopMove_of_begin (h : l.begin? now = some l') : l.LoopMove now .loop l' := by
  unfold begin? at h
  split at h
  next hl =>
    split at h
    next hs =>
      obtain rfl := Option.some.inj h
      exact .quit hl hs
    next hs =>
      dsimp only at h
      split at h
      next hfit =>
        obtain rfl := Option.some.inj h
        exact .attempt hl (by simpa using hs) hfit
      next hunfit =>
        obtain rfl := Option.some.inj h
        exact .fall hl (by simpa using hs) (by simpa using hunfit)
  next => contradiction

theorem loopMove_of_publish (h : l.publish? = some l') : l.LoopMove now .loop l' := by
  unfold publish? at h
  split at h
  next m hl =>
    split at h
    next hc =>
      obtain rfl := Option.some.inj h
      exact .lose hl (by simpa using hc)
    next hc =>
      split at h
      next hr =>
        obtain rfl := Option.some.inj h
        exact .publish hl (by simpa using hc) hr
      next => contradiction
  next => contradiction

theorem loopMove_of_refuse {cause : String} (h : l.refuse? now cause = some l') :
    l.LoopMove now (.refuse cause) l' := by
  unfold refuse? at h
  split at h
  next hl =>
    split at h
    next htries =>
      obtain rfl := Option.some.inj h
      obtain ⟨hgoesOn, hfit⟩ := tries_iff.mp htries
      exact .refuse hl hgoesOn hfit
    next => contradiction
  next => contradiction

theorem loopMove_of_finish {r : ReadEnd} (h : l.finish? r = some l') :
    l.LoopMove now (.readEnds r) l' := by
  unfold finish? at h
  split at h
  next deadline hl =>
    split at h
    next =>
      obtain rfl := Option.some.inj h
      exact .crash hl
    next e =>
      obtain rfl := Option.some.inj h
      exact .hold hl
    next bytes reported peer =>
      dsimp only at h
      split at h
      next =>
        obtain rfl := Option.some.inj h
        exact .hold hl
      next =>
        obtain rfl := Option.some.inj h
        exact .hold hl
  next => contradiction

end Listener

namespace Trace

variable {t t' : Trace} {e : TraceEvent}

/-- A step is one of the moves. -/
theorem move_of_step (h : t.step e = some t') : Move t e t' := by
  cases e with
  | main => exact .main (mainMove_of_step h)
  | probe i =>
    obtain ⟨p, q, hp, hm⟩ := probeMove_of_step h
    exact .probe hp hm
  | sendEnds i r =>
    obtain ⟨p, q, hp, hm⟩ := probeMove_of_sendEnds h
    exact .probe hp hm
  | loop =>
    obtain ⟨l, hl, rfl⟩ := Option.map_eq_some_iff.mp h
    cases hb : t.listener.begin? t.now with
    | some l' =>
      obtain rfl : l' = l := by simpa [hb] using hl
      exact .loop (Listener.loopMove_of_begin hb)
    | none =>
      have hp : t.listener.publish? = some l := by simpa [hb] using hl
      exact .loop (Listener.loopMove_of_publish hp)
  | refuse cause =>
    obtain ⟨l, hl, rfl⟩ := Option.map_eq_some_iff.mp h
    exact .loop (Listener.loopMove_of_refuse hl)
  | readEnds r =>
    obtain ⟨l, hl, rfl⟩ := Option.map_eq_some_iff.mp h
    exact .loop (Listener.loopMove_of_finish hl)
  | dispatch => exact .dispatch (dispatchMove_of_step h)
  | passTime now =>
    obtain ⟨hn, hs⟩ := Option.ite_none_right_eq_some.mp h
    exact Option.some.inj hs ▸ .clock hn

/-- Whatever every move keeps holds throughout a run if it holds at first. -/
theorem run_invariant {P : Trace → Prop} {events : List TraceEvent} (zero : P t)
    (kept : ∀ s e s', P s → Move s e s' → P s') (hr : t.run events = some t') : P t' := by
  apply run_induction (P := fun _ s => P s) zero _ hr
  intro _ s e s' _ hs hstep
  exact kept s e s' hs (move_of_step hstep)

theorem Move.setup (move : Move t e t') : t'.setup = t.setup := by
  cases move with
  | main move => cases move <;> rfl
  | probe _ move => cases move <;> rfl
  | dispatch move => cases move <;> rfl
  | loop => rfl
  | clock => rfl

theorem setup_of_run {events : List TraceEvent} (hr : t.run events = some t') :
    t'.setup = t.setup :=
  run_invariant (P := fun s => s.setup = t.setup) rfl (fun _ _ _ hs move => move.setup.trans hs) hr

variable {setup : TraceSetup}

/-- A trace with valid parameters at its first wait. -/
theorem start_of_valid (valid : setup.params.Valid) (plugins : PluginSet) :
    ∃ plugins' fired log listening,
      fired.map (·.hook) = (setup.hostname.toList.map Hook.dnsResolve).reverse ∧
      start setup plugins =
        { setup, plugins := plugins', fired, log
          listener := {
            config := setup.listening, loop := .ready, holder := .loop, joinable := true
            log := listening }
          stage := .checking setup.params.beginHop
          gate := { capacity := setup.params.parallelRequests.toNat } } := by
  have hv : setup.params.fault? = none := valid
  unfold start
  simp only [hv, fireAll_eq, say]
  exact ⟨_, _, _, _, by rw [List.append_nil]; exact firings_hooks .., rfl⟩

/-- A trace with faulty parameters is over at once. -/
theorem start_of_fault {fault : TraceError} (hf : setup.params.fault? = some fault)
    (plugins : PluginSet) :
    start setup plugins =
      { setup, plugins
        listener := {
          config := setup.listening, stopRequested := true, consumed := false, loop := .discarded
          holder := .nobody }
        stage := .done (.error fault)
        gate := { capacity := setup.params.parallelRequests.toNat } } := by
  simp only [start, hf]
  rfl

@[simp] theorem setup_start (setup : TraceSetup) (plugins : PluginSet) :
    (start setup plugins).setup = setup := by
  unfold start
  simp only [fireAll_eq]
  split <;> rfl

theorem setup_of_start {plugins : PluginSet} {events : List TraceEvent}
    (hr : (start setup plugins).run events = some t) : t.setup = setup :=
  (setup_of_run hr).trans (setup_start setup plugins)

theorem start_empty (setup : TraceSetup) (plugins : PluginSet) :
    (start setup plugins).probes = #[] ∧ (start setup plugins).pending = [] ∧
      (start setup plugins).table = .empty := by
  unfold start
  simp only [fireAll_eq]
  split <;> exact ⟨rfl, rfl, rfl⟩

end Trace

end HopTrace
