import HopTrace.Proofs.Trace.Flight
import HopTrace.Proofs.Trace.Outside

/-!
# No wait is orphaned

Whoever waits in a trace waits for somebody who will end the wait. The main loop
waits for probes that hold units of gate or group, or for a listener that has
been asked to stop. A probe waits for its attempt to send or
for its deadline, and the receive loop for a dispatcher that has a move.
-/

namespace HopTrace.Trace

variable {t t' : Trace} {e : TraceEvent} {ttl : UInt16} {left ticket : Nat}

/-! ## The main loop before the probes have ended -/

/-- What is not a move of the main loop leaves that where it stands. -/
theorem stage_of_suspended (suspended : t.mainStep? = none) (hs : t.step e = some t') :
    t'.stage = t.stage := by
  cases move_of_step hs with
  | main => simp [step, suspended] at hs
  | probe found move => exact move.stage
  | dispatch move => exact move.rests.stage
  | loop | clock => rfl

theorem Balanced.full_of_suspended (h : t.Balanced) (stage : t.stage = .queued ttl left ticket)
    (suspended : t.mainStep? = none) :
    t.gate.admitted = t.admittedCount ∧ t.gate.capacity = t.admittedCount := by
  obtain ⟨-, howes⟩ := h.1
  rw [stage] at howes
  rcases howes with ⟨hreq, -⟩ | ⟨-, -, hunits, hfull⟩
  · simp [mainStep?, stage, Gate.poll, hreq] at suspended
  · exact ⟨hunits, hfull.symm.trans hunits⟩

theorem Balanced.busy_of_suspended (h : t.Balanced) (stage : t.stage = .draining ticket)
    (suspended : t.mainStep? = none) :
    t.group.outstanding = t.liveCount ∧ 0 < t.liveCount := by
  have hgroup := h.2
  rw [stage] at hgroup
  obtain ⟨rfl, hunits, ⟨-, hw⟩ | ⟨hlive, -⟩⟩ := hgroup
  · simp [mainStep?, stage, Barrier.poll, hw] at suspended
  · exact ⟨hunits, hlive⟩

/-- A main loop that waits for an admission has it as soon as a probe gives one back. -/
theorem Balanced.wakes_queued (h : t.Balanced) (stage : t.stage = .queued ttl left ticket)
    (suspended : t.mainStep? = none) (hs : t.step e = some t')
    (fewer : t'.admittedCount < t.admittedCount) : t'.mainStep?.isSome = true := by
  have move := move_of_step hs
  have hfull := (h.full_of_suspended stage suspended).2
  rw [Option.isSome_iff_ne_none]
  intro suspended'
  have hstage := (stage_of_suspended suspended hs).trans stage
  have hfull' := ((move.balanced h).full_of_suspended hstage suspended').2
  rw [move.capacity] at hfull'
  omega

/-- A main loop that waits for the probes goes on as soon as none is left. -/
theorem Balanced.wakes_draining (h : t.Balanced) (stage : t.stage = .draining ticket)
    (suspended : t.mainStep? = none) (hs : t.step e = some t') (none : t'.liveCount = 0) :
    t'.mainStep?.isSome = true := by
  rw [Option.isSome_iff_ne_none]
  intro suspended'
  have hstage := (stage_of_suspended suspended hs).trans stage
  have hpos := (((move_of_step hs).balanced h).busy_of_suspended hstage suspended').2
  omega

/-! ## The probes -/

def Armed (t : Trace) : Prop := ∀ s ∈ t.standings, ∀ since deadline,
  s.2 = .awaiting since deadline → deadline ≤ t.now + t.setup.params.timeout.nanos

theorem Move.armed (h : t.Armed) (move : Move t e t') : t'.Armed := by
  have hnow := move.now_le
  unfold Armed
  rw [move.setup]
  refine move.forall_standing (P := fun s => ∀ since deadline, s.2 = .awaiting since deadline →
    deadline ≤ t'.now + t.setup.params.timeout.nanos) (fun _ => nofun) ?_ ?_
  · intro i p q found move old since deadline hq
    cases move with
    | sent =>
      obtain ⟨-, rfl⟩ := Probe.Phase.awaiting.inj hq
      exact Nat.le_refl _
    | _ => cases hq
  · intro s hs since deadline hphase
    exact (h s hs since deadline hphase).trans (Nat.add_le_add_right hnow _)

theorem armed_of_run {setup : TraceSetup} {plugins : PluginSet} {events : List TraceEvent}
    (hr : (start setup plugins).run events = some t) : t.Armed := by
  refine run_invariant (P := Armed) ?_ (fun _ _ _ h move => move.armed h) hr
  simp [Armed, standings, (start_empty setup plugins).1]

/-- What lets a live probe go on: it has a move, it is being sent and goes on however that ends, or
it has a move when its time to be answered is over. -/
inductive GoesOn (t : Trace) (i : Nat) : Prop
  | now (can : (t.probeStep? i).isSome = true)
  | sent (ends : ∀ r, (t.sendEnds? i r).isSome = true)
  | later {deadline : Nat} (armed : deadline ≤ t.now + t.setup.params.timeout.nanos)
      (wakes : ∀ now, deadline ≤ now → (({ t with now } : Trace).probeStep? i).isSome = true)

theorem Armed.goesOn (h : t.Armed) {i : Nat} (live : i ∈ t.live) : t.GoesOn i := by
  obtain ⟨-, hany⟩ := List.mem_filter.mp live
  obtain ⟨p, found, hlive⟩ := (Option.any_eq_true ..).mp hany
  rw [Probe.isLive_eq] at hlive
  cases hphase : p.phase with
  | spawned | withdrawing | failing | expired | recording | released =>
    exact .now (by simp [probeStep?, found, hphase])
  | settled o arrived news =>
    exact .now (by cases arrived <;> cases news <;> simp [probeStep?, found, hphase])
  | sending since => exact .sent (isSome_sendEnds? found hphase)
  | awaiting since deadline =>
    refine .later (h _ (Array.mem_of_getElem? (getElem?_standings found)) since deadline hphase) ?_
    intro now hnow
    cases hslot : p.slot <;> simp [probeStep?, found, hphase, hslot, hnow]
  | ended o => simp [hphase, Probe.Phase.isLive] at hlive

/-! ## Receive loop and dispatcher -/

def Stage.awaits? : Stage → Option Party
  | .closing => some .dispatch
  | .joining => some .loop
  | _ => none

theorem Attended.awaits (h : t.Attended) {x : Party} (awaits : t.stage.awaits? = some x)
    (suspended : t.mainStep? = none) : t.listener.stopRequested = true ∧
      (t.listener.ended = false ∨ t.listener.stream ≠ [] ∨ x.CanAct t) := by
  cases hstage : t.stage with
  | closing =>
    rw [hstage] at awaits
    obtain rfl := Option.some.inj awaits
    refine ⟨h.stopped (by rw [hstage]; trivial), ?_⟩
    cases hd : t.dispatcher with
    | finished | crashed => simp [mainStep?, hstage, hd] at suspended
    | delivering => exact .inr (.inr ⟨.dispatch, rfl, by simp [step, dispatchStep?, hd]⟩)
    | receiving =>
      cases hended : t.listener.ended with
      | false => exact .inl rfl
      | true => exact .inr (.inr (receiving_canAct hd (.inr hended)))
  | joining => simp [mainStep?, hstage, h.joining hstage] at suspended
  | _ => simp [hstage, Stage.awaits?] at awaits

def Deaf (t : Trace) : Prop := t.dispatcher = .crashed → t.listener.consumed = false

theorem Move.deaf (h : t.Deaf) (move : Move t e t') : t'.Deaf := by
  cases move with
  | main move =>
    cases move with
    | leave => exact fun _ => rfl
    | _ => exact h
  | probe found move =>
    obtain ⟨hl, hd⟩ := move.aside
    unfold Deaf
    rw [hl, hd]
    exact h
  | dispatch move =>
    cases move with
    | crash => exact fun _ => rfl
    | ignore => exact h
    | _ => exact nofun
  | loop move => cases move <;> exact h
  | clock => exact h

theorem deaf_of_run {setup : TraceSetup} (valid : setup.params.Valid) {plugins : PluginSet}
    {events : List TraceEvent} (hr : (start setup plugins).run events = some t) : t.Deaf := by
  refine run_invariant (P := Deaf) ?_ (fun _ _ _ h move => move.deaf h) hr
  obtain ⟨plugins', fired, log, listening, -, hs⟩ := start_of_valid valid plugins
  rw [hs]
  exact nofun

/-- A message finds room, or nobody who receives, or a dispatcher that will make room. -/
theorem Deaf.holding (h : t.Deaf) (attended : t.Attended) {m : Message}
    (holding : t.listener.loop = .holding m) :
    Party.loop.CanAct t ∨ Party.dispatch.CanAct t := by
  have publishes (hp : t.listener.publish?.isSome = true) : Party.loop.CanAct t :=
    ⟨.loop, rfl, by simpa [step, Listener.begin?, holding] using hp⟩
  cases hd : t.dispatcher with
  | delivering => exact .inr ⟨.dispatch, rfl, by simp [step, dispatchStep?, hd]⟩
  | finished =>
    have hended := attended.finished hd
    simp [Listener.ended, holding] at hended
  | crashed => exact .inl (publishes (by simp [Listener.publish?, holding, h hd]))
  | receiving =>
    -- The stream holds at least one message, so it is not full while it is empty.
    by_cases hstream : t.listener.stream = []
    · have hroom : 0 < t.listener.config.bound := by
        unfold ListenerConfig.bound
        omega
      refine .inl (publishes ?_)
      cases hheard : t.listener.consumed <;>
        simp [Listener.publish?, holding, hheard, hstream, hroom]
    · exact .inr (receiving_canAct hd (.inl hstream))

/-! ## All of them -/

structure Unorphaned (t : Trace) : Prop where
  /-- A main loop that waits for an admission waits for live probes, which hold all of them, and
  goes on when one of them gives it back. -/
  gate : ∀ ttl left ticket, t.stage = .queued ttl left ticket → t.mainStep? = none →
    t.inFlight ≠ [] ∧ (∀ i ∈ t.inFlight, i ∈ t.live) ∧ t.gate.admitted = t.inFlight.length ∧
      ∀ e t', t.step e = some t' → t'.inFlight.length < t.inFlight.length →
        t'.mainStep?.isSome = true
  /-- If it waits for the group then for live probes too, until none is left. -/
  group : ∀ ticket, t.stage = .draining ticket → t.mainStep? = none →
    t.live ≠ [] ∧ t.group.outstanding = t.live.length ∧ ∀ e t', t.step e = some t' →
      t'.live = [] → t'.mainStep?.isSome = true
  probes : ∀ i ∈ t.live, t.GoesOn i
  listening : ∀ x, t.stage.awaits? = some x → t.mainStep? = none →
    t.listener.stopRequested = true ∧
      (t.listener.ended = false ∨ t.listener.stream ≠ [] ∨ x.CanAct t)
  /-- A message that has to wait for room waits for a dispatcher that has a move. -/
  stream : ∀ m, t.listener.loop = .holding m → Party.loop.CanAct t ∨ Party.dispatch.CanAct t

variable {setup : TraceSetup} {plugins : PluginSet} {events : List TraceEvent}

theorem unorphaned_of_run (valid : setup.params.Valid)
    (hr : (start setup plugins).run events = some t) : t.Unorphaned := by
  have balanced := balanced_of_run valid hr
  have attended := attended_of_run valid hr
  constructor
  case gate =>
    intro ttl left ticket stage suspended
    obtain ⟨hunits, hfull⟩ := balanced.full_of_suspended stage suspended
    have hroom := (viable_of_run valid hr).room
    refine ⟨List.length_pos_iff.mp ?_, fun i => mem_live_of_mem_inFlight, ?_,
      fun e t' hs hfewer => ?_⟩
    · rw [length_inFlight]
      omega
    · rw [length_inFlight, hunits]
    · rw [length_inFlight, length_inFlight] at hfewer
      exact balanced.wakes_queued stage suspended hs hfewer
  case group =>
    intro ticket stage suspended
    obtain ⟨hunits, hpos⟩ := balanced.busy_of_suspended stage suspended
    refine ⟨List.length_pos_iff.mp ?_, ?_, fun e t' hs hnone => ?_⟩
    · rwa [length_live]
    · rw [length_live, hunits]
    · refine balanced.wakes_draining stage suspended hs ?_
      rw [← length_live, hnone, List.length_nil]
  case probes => exact fun i live => (armed_of_run hr).goesOn live
  case listening => exact fun x awaits suspended => attended.awaits awaits suspended
  case stream => exact fun m holding => (deaf_of_run valid hr).holding attended holding

/-- No wait of a trace is orphaned, so no state of it is a deadlock: whatever the attempts to send
come to, and the reads by their deadlines, the trace can go on from there to a result. -/
theorem no_wait_orphaned (valid : setup.params.Valid)
    (hr : (start setup plugins).run events = some t) :
    t.Unorphaned ∧ ∀ o : Outside, ∃ t' result, o.Leads t t' ∧ t'.result? = some result :=
  ⟨unorphaned_of_run valid hr, (viable_of_run valid hr).exists_result⟩

/-- The main loop waits for the first probe, which has not begun to send. -/
theorem no_wait_orphaned_narrow : ∃ t, (start narrow {}).run (List.replicate 6 .main) = some t ∧
    t.mainStep? = none ∧ t.inFlight = [0] ∧ t.gate.admitted = 1 ∧
    (t.probeStep? 0).isSome = true ∧
    ∀ o : Outside, ∃ t' result, o.Leads t t' ∧ t'.result? = some result := by
  have valid : narrow.params.Valid := by decide
  obtain ⟨t, hr, hstage, suspended, hflight, hcan⟩ :
      ∃ t, (start narrow {}).run (List.replicate 6 .main) = some t ∧
        t.stage = .queued 1 0 1 ∧ t.mainStep? = none ∧ t.inFlight = [0] ∧
        (t.probeStep? 0).isSome = true :=
    ⟨_, rfl, rfl, rfl, rfl, rfl⟩
  obtain ⟨unorphaned, goesOn⟩ := no_wait_orphaned valid hr
  obtain ⟨-, -, hunits, -⟩ := unorphaned.gate _ _ _ hstage suspended
  rw [hflight] at hunits
  exact ⟨t, hr, suspended, hflight, hunits, hcan, goesOn⟩

end HopTrace.Trace
