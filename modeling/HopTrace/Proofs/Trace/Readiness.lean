import HopTrace.Proofs.Listener.Quiet
import HopTrace.Proofs.Trace.Effort

/-!
# Someone can always move

Until a trace has its result there is somebody who has a move, now or once some
time has passed: the main loop, a probe that is live, whoever sends or reads,
the receive loop or the dispatcher. A move that main loop or probes have is not
taken away from them by the others.
-/

namespace HopTrace

variable {t t' : Trace} {e : TraceEvent}

/-- Those who take turns, and those outside by whom a send or a read ends. -/
inductive Party
  | main
  | probe (i : Nat)
  | send (i : Nat)
  | loop
  | read
  | dispatch
  deriving DecidableEq, Repr

def TraceEvent.party? : TraceEvent → Option Party
  | .main => some .main
  | .probe i => some (.probe i)
  | .sendEnds i _ => some (.send i)
  | .loop => some .loop
  | .refuse _ => some .loop
  | .readEnds _ => some .read
  | .dispatch => some .dispatch
  | .passTime _ => none

def Party.works : Party → Bool
  | .main => true
  | .probe _ => true
  | .send _ => true
  | _ => false

theorem TraceEvent.isWork_of_party {x : Party} (h : e.party? = some x) : e.isWork = x.works := by
  cases e with
  | passTime => cases h
  | _ =>
    obtain rfl := Option.some.inj h
    rfl

def Party.CanAct (x : Party) (t : Trace) : Prop :=
  ∃ e, e.party? = some x ∧ (t.step e).isSome = true

/-! ## The gate keeps its capacity -/

theorem Gate.capacity_handOver (g : Gate) (line : List Nat) :
    (g.handOver line).1.capacity = g.capacity := by
  induction line with
  | nil =>
    unfold handOver
    split <;> rfl
  | cons request rest ih =>
    unfold handOver
    split
    · rfl
    · exact ih

theorem Gate.capacity_start (g : Gate) : g.start.1.capacity = g.capacity := by
  unfold start
  split <;> rfl

theorem Gate.capacity_poll (g : Gate) (request : Nat) :
    (g.poll request).1.capacity = g.capacity := by
  unfold poll
  split <;> rfl

theorem Trace.Move.capacity (move : Move t e t') : t'.gate.capacity = t.gate.capacity := by
  cases move with
  | main move =>
    cases move with
    | request => exact Gate.capacity_start _
    | grant => exact Gate.capacity_poll ..
    | _ => rfl
  | probe found move =>
    rcases move.admission found with ⟨hg, -⟩ | ⟨hg, -⟩
    · rw [hg]
    · rw [hg]
      exact Gate.capacity_handOver ..
  | dispatch move => cases move <;> rfl
  | loop => rfl
  | clock => rfl

/-! ## The listener is looked after -/

namespace Listener

variable {l l' : Listener} {now : Nat}

def Started (l : Listener) : Prop := l.loop ≠ .unstarted ∧ l.loop ≠ .discarded

theorem loop_drop (h : l.Started) : l.drop.loop = l.loop := by
  unfold drop
  have hne := h.1
  cases hl : l.loop <;> simp_all

theorem loop_reportEnd (l : Listener) : l.reportEnd.loop = l.loop := by
  unfold reportEnd
  split <;> rfl

theorem ended_eq_of_loop (h : l'.loop = l.loop) : l'.ended = l.ended := by
  unfold ended
  rw [h]

theorem LoopMove.started (move : l.LoopMove now e l') : l'.Started := by
  cases move <;> exact ⟨nofun, nofun⟩

theorem LoopMove.ended_eq_false (move : l.LoopMove now e l') : l.ended = false := by
  cases move with
  | quit loop | fall loop | attempt loop | refuse loop | crash loop | hold loop | lose loop
  | publish loop =>
    simp [ended, loop]

theorem LoopMove.stopRequested (move : l.LoopMove now e l') :
    l'.stopRequested = l.stopRequested := by
  cases move <;> rfl

end Listener

namespace Trace

structure Attended (t : Trace) : Prop where
  started : t.listener.Started
  stopped : t.stage.Drained → t.listener.stopRequested = true
  finished : t.dispatcher = .finished → t.listener.ended = true
  joining : t.stage = .joining → t.listener.ended = true

theorem MainMove.attended (h : t.Attended) (move : MainMove t t') : t'.Attended := by
  cases move with
  | release stage => exact ⟨h.started, fun _ => rfl, h.finished, nofun⟩
  | reap stage finished =>
    have hs := h.stopped (by rw [stage]; trivial)
    exact ⟨h.started, fun _ => hs, h.finished, fun _ => h.finished finished⟩
  | miss stage | fail stage | succeed stage =>
    have hs := h.stopped (by rw [stage]; trivial)
    exact ⟨h.started, fun _ => hs, h.finished, nofun⟩
  | leave stage ended =>
    have hloop := Listener.loop_reportEnd t.listener
    have hstarted : t.listener.reportEnd.Started := by
      unfold Listener.Started
      rw [hloop]
      exact h.started
    have hdrop := (Listener.loop_drop hstarted).trans hloop
    refine ⟨?_, fun _ => rfl, fun _ => (Listener.ended_eq_of_loop hdrop).trans ended, nofun⟩
    unfold Listener.Started
    rw [hdrop]
    exact h.started
  | stop | beginHop | request | grant | join | spawn | pause | nextHop | lastHop =>
    exact ⟨h.started, fun hd => hd.elim, h.finished, nofun⟩

theorem DispatchMove.attended (h : t.Attended) (move : DispatchMove t t') : t'.Attended := by
  cases move with
  | receive | deliver => exact ⟨h.started, h.stopped, nofun, h.joining⟩
  | ignore => exact ⟨h.started, h.stopped, h.finished, h.joining⟩
  | @crash d rest =>
    have hdrop := Listener.loop_drop (l := { t.listener with stream := rest }) h.started
    refine ⟨?_, fun _ => rfl, nofun, fun hs => ?_⟩
    · unfold Listener.Started
      rw [hdrop]
      exact h.started
    · exact (Listener.ended_eq_of_loop hdrop).trans (h.joining hs)
  | finish receiving closed =>
    exact ⟨h.started, h.stopped, fun _ => (t.listener.closed_iff.mp closed).2, h.joining⟩

theorem ProbeMove.aside {i : Nat} {p : Probe} {q : Probe.Phase} (move : ProbeMove t i p e q t') :
    t'.listener = t.listener ∧ t'.dispatcher = t.dispatcher := by
  cases move <;> exact ⟨rfl, rfl⟩

theorem Move.attended (h : t.Attended) (move : Move t e t') : t'.Attended := by
  cases move with
  | main move => exact move.attended h
  | probe found move =>
    obtain ⟨hl, hd⟩ := move.aside
    exact ⟨hl ▸ h.started, by rw [hl, move.stage]; exact h.stopped,
      by rw [hl, hd]; exact h.finished, by rw [hl, move.stage]; exact h.joining⟩
  | dispatch move => exact move.attended h
  | loop move =>
    have hended := move.ended_eq_false
    refine ⟨move.started, fun hd => move.stopRequested.trans (h.stopped hd), fun hf => ?_,
      fun hj => ?_⟩
    · simp [h.finished hf] at hended
    · simp [h.joining hj] at hended
  | clock => exact ⟨h.started, h.stopped, h.finished, h.joining⟩

theorem attended_of_run {setup : TraceSetup} (valid : setup.params.Valid) {plugins : PluginSet}
    {events : List TraceEvent} (hr : (start setup plugins).run events = some t) : t.Attended := by
  refine run_invariant (P := Attended) ?_ (fun _ _ _ h move => move.attended h) hr
  obtain ⟨plugins', fired, log, listening, -, hs⟩ := start_of_valid valid plugins
  rw [hs]
  exact ⟨⟨nofun, nofun⟩, fun hd => hd.elim, nofun, nofun⟩

theorem capacity_of_run {setup : TraceSetup} (valid : setup.params.Valid) {plugins : PluginSet}
    {events : List TraceEvent} (hr : (start setup plugins).run events = some t) :
    t.gate.capacity = setup.params.parallelRequests.toNat := by
  refine run_invariant (P := fun s => s.gate.capacity = setup.params.parallelRequests.toNat) ?_
    (fun _ _ _ h move => move.capacity.trans h) hr
  obtain ⟨plugins', fired, log, listening, -, hs⟩ := start_of_valid valid plugins
  rw [hs]

/-! ## Main loop and probes -/

/-- A party that works has a move from some time on, for as long as the others rest. -/
def Ready (t : Trace) : Prop :=
  ∃ x : Party, x.works = true ∧ ∃ due, ∀ s, t.Rests s → due ≤ s.now → x.CanAct s

theorem ready_of_main (h : ∀ s, t.Rests s → s.mainStep?.isSome = true) : t.Ready :=
  ⟨.main, rfl, 0, fun s hs _ => ⟨.main, rfl, h s hs⟩⟩

/-- A live probe has a move, at the latest when its time is over. -/
theorem ready_of_live (h : 0 < t.liveCount) : t.Ready := by
  obtain ⟨⟨key, phase⟩, hm, live⟩ := Array.countP_pos_iff.mp h
  obtain ⟨i, hi⟩ := Array.mem_iff_getElem?.mp hm
  have found (s : Trace) (hs : t.Rests s) :
      ∃ p : Probe, s.probes[i]? = some p ∧ p.phase = phase := by
    rw [← hs.standings] at hi
    obtain ⟨p, hp, -, hphase⟩ := getElem?_standings_iff.mp hi
    exact ⟨p, hp, hphase⟩
  have ready (due : Nat) (can : ∀ (s : Trace) (p : Probe), s.probes[i]? = some p →
      p.phase = phase → due ≤ s.now → (s.probeStep? i).isSome = true) : t.Ready := by
    refine ⟨.probe i, rfl, due, fun s hs hnow => ⟨.probe i, rfl, ?_⟩⟩
    obtain ⟨p, hp, hphase⟩ := found s hs
    exact can s p hp hphase hnow
  cases phase with
  | spawned | withdrawing | failing | expired | recording | released =>
    exact ready 0 fun s p hp hphase _ => by simp [probeStep?, hp, hphase]
  | settled o arrived news =>
    refine ready 0 fun s p hp hphase _ => ?_
    cases arrived <;> cases news <;> simp [probeStep?, hp, hphase]
  | sending since =>
    refine ⟨.send i, rfl, 0, fun s hs _ => ⟨.sendEnds i .sent, rfl, ?_⟩⟩
    obtain ⟨p, hp, hphase⟩ := found s hs
    simp [step, sendEnds?, hp, hphase]
  | awaiting since deadline =>
    refine ready deadline fun s p hp hphase hnow => ?_
    cases hslot : p.slot <;> simp [probeStep?, hp, hphase, hslot, hnow]
  | ended o => simp [Probe.Phase.isLive] at live

/-- Before the main loop has waited for the probes, it has a move or a live probe has. -/
theorem ready_of_not_drained (balanced : t.Balanced) (room : 0 < t.gate.capacity)
    (h : ¬ t.stage.Drained) : t.Ready := by
  have hb := balanced
  unfold Balanced at hb
  cases hstage : t.stage with
  | checking | admitted | joined =>
    exact ready_of_main fun s hs => by simp [mainStep?, hs.stage, hstage]
  | requesting ttl left =>
    refine ready_of_main fun s hs => ?_
    cases left with
    | zero =>
      by_cases hz : s.setup.params.ttlInterval.isZero = true <;>
        simp [mainStep?, hs.stage, hstage, hz]
    | succ left => simp [mainStep?, hs.stage, hstage]
  | pausing ttl wake =>
    refine ⟨.main, rfl, wake, fun s hs hnow => ⟨.main, rfl, ?_⟩⟩
    simp [step, mainStep?, hs.stage, hstage, hnow]
  | queued ttl left ticket =>
    rw [hstage] at hb
    rcases hb.1.2 with ⟨hreq, -⟩ | ⟨-, -, hunits, hfull⟩
    · refine ready_of_main fun s hs => ?_
      simp [mainStep?, hs.stage, hstage, hs.gate, Gate.poll, hreq]
    · -- The gate is full of probes, which are live.
      have hle := t.admittedCount_le
      exact ready_of_live (by omega)
  | draining ticket =>
    rw [hstage] at hb
    obtain ⟨rfl, -, ⟨-, hw⟩ | ⟨hlive, -⟩⟩ := hb.2
    · refine ready_of_main fun s hs => ?_
      simp [mainStep?, hs.stage, hstage, hs.group, Barrier.poll, hw]
    · exact ready_of_live hlive
  | closing | joining | concluding | done => exact absurd (by rw [hstage]; trivial) h

/-! ## Receive loop and dispatcher -/

/-- A dispatcher that receives has a move as soon as there is a message or the stream is over. -/
theorem receiving_canAct (receiving : t.dispatcher = .receiving)
    (h : t.listener.stream ≠ [] ∨ t.listener.ended = true) : Party.dispatch.CanAct t := by
  refine ⟨.dispatch, rfl, ?_⟩
  simp only [step, dispatchStep?, receiving, Listener.receive?]
  cases hs : t.listener.stream with
  | nil =>
    have hended : t.listener.ended = true := h.resolve_left fun hne => hne hs
    simp [Listener.closed, hs, hended]
  | cons m rest =>
    cases m with
    | error e => rfl
    | ok d => cases hr : t.setup.recognise d <;> simp [hr]

def Idles (t s : Trace) : Prop := ∃ now, s = { t with now }

/-- With an empty stream the receive loop is over, reads, or has a move. -/
theorem loop_canAct (started : t.listener.Started) (empty : t.listener.stream = []) :
    t.listener.ended = true ∨ (∀ s, t.Idles s → Party.loop.CanAct s) ∨
      ∀ s, t.Idles s → Party.read.CanAct s := by
  cases hl : t.listener.loop with
  | unstarted => exact absurd hl started.1
  | discarded => exact absurd hl started.2
  | exited | crashed => exact .inl (by simp [Listener.ended, hl])
  | ready =>
    refine .inr (.inl ?_)
    rintro s ⟨now, rfl⟩
    refine ⟨.loop, rfl, ?_⟩
    simp [step, Listener.Session.isSome_begin? hl now]
  | reading deadline =>
    refine .inr (.inr ?_)
    rintro s ⟨now, rfl⟩
    exact ⟨.readEnds .crashed, rfl, by simp [step, Listener.finish?, hl]⟩
  | holding m =>
    have hroom : 0 < t.listener.config.bound := by
      unfold ListenerConfig.bound
      omega
    refine .inr (.inl ?_)
    rintro s ⟨now, rfl⟩
    refine ⟨.loop, rfl, ?_⟩
    by_cases hheard : t.listener.consumed = true <;>
      simp [step, Listener.begin?, Listener.publish?, hl, hheard, empty, hroom]

/-- While the main loop waits for the listener to end, somebody has a move, whatever the time. -/
theorem canAct_of_drained (attended : t.Attended) (drained : t.stage.Drained)
    (unfinished : t.result? = none) : ∃ x : Party, ∀ s, t.Idles s → x.CanAct s := by
  have main (h : ∀ s, t.Idles s → s.mainStep?.isSome = true) :
      ∃ x : Party, ∀ s, t.Idles s → x.CanAct s :=
    ⟨.main, fun s hs => ⟨.main, rfl, h s hs⟩⟩
  have dispatch (hd : t.dispatcher = .receiving)
      (h : t.listener.stream ≠ [] ∨ t.listener.ended = true) :
      ∃ x : Party, ∀ s, t.Idles s → x.CanAct s := by
    refine ⟨.dispatch, ?_⟩
    rintro s ⟨now, rfl⟩
    exact receiving_canAct hd h
  cases hstage : t.stage with
  | closing =>
    cases hd : t.dispatcher with
    | finished | crashed =>
      apply main
      rintro s ⟨now, rfl⟩
      simp [mainStep?, hstage, hd]
    | delivering =>
      refine ⟨.dispatch, ?_⟩
      rintro s ⟨now, rfl⟩
      exact ⟨.dispatch, rfl, by simp [step, dispatchStep?, hd]⟩
    | receiving =>
      by_cases hs : t.listener.stream = []
      · rcases loop_canAct attended.started hs with hended | hcan | hcan
        · exact dispatch hd (.inr hended)
        · exact ⟨.loop, hcan⟩
        · exact ⟨.read, hcan⟩
      · exact dispatch hd (.inl hs)
  | joining =>
    have hended := attended.joining hstage
    apply main
    rintro s ⟨now, rfl⟩
    simp [mainStep?, hstage, hended]
  | concluding =>
    apply main
    rintro s ⟨now, rfl⟩
    simp [mainStep?, hstage]
  | done result => simp [result?, hstage] at unfinished
  | _ => simp [hstage, Stage.Drained] at drained

end Trace

end HopTrace
