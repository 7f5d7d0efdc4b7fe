import HopTrace.Proofs.Listener.Ending
import HopTrace.Proofs.Trace.Completion
import HopTrace.Proofs.Trace.Flight
import HopTrace.Proofs.Trace.Mail
import HopTrace.Proofs.Trace.Report

/-!
# How a trace ends

A trace with faulty parameters ends before it has begun. Any other ends with the
first failure to send that was reported, or else with the route, once its probes,
its receive loop and its dispatcher are over. Only a probe whose attempt to send
crashed stays in the list of those that wait for a reply.
-/

namespace HopTrace

def Probe.Phase.lingers : Probe.Phase → Bool
  | .sending _ => true
  | .withdrawing _ => true
  | .awaiting _ _ => true
  | .expired => true
  | q => q.outcome? = some .crashed

namespace Trace

variable {t t' : Trace} {e : TraceEvent} {i : Nat} {p : Probe} {q : Probe.Phase} {key : ProbeKey}

/-! ## Who stays in the list of those that wait -/

def Lingering (t : Trace) : Prop := ∀ key i, (key, i) ∈ t.pending →
  ∃ phase, t.standings[i]? = some (key, phase) ∧ phase.lingers = true

/-- Only by its own event a probe comes into the list. -/
theorem Move.mem_pending (move : Move t e t') (h : (key, i) ∈ t'.pending) :
    (key, i) ∈ t.pending ∨ e.probe? = some i := by
  cases move with
  | main move => cases move <;> exact .inl h
  | probe found move =>
    cases move with
    | register =>
      rcases List.mem_cons.mp h with he | h
      · exact .inr (congrArg some (Prod.mk.inj he).2.symm)
      · exact .inl (List.mem_of_mem_filter h)
    | withdraw | giveUp => exact .inl (List.mem_of_mem_filter h)
    | _ => exact .inl h
  | dispatch move =>
    cases move with
    | deliver => exact .inl (List.mem_of_mem_filter h)
    | _ => exact .inl h
  | loop | clock => exact .inl h

theorem ProbeMove.lingers (lingering : t.Lingering) (found : t.probes[i]? = some p)
    (taken : ∀ since deadline sender, p.phase = .awaiting since deadline →
      p.slot = .answered sender → (p.key, i) ∉ t.pending)
    (move : ProbeMove t i p e q t') (h : (key, i) ∈ t'.pending) :
    key = p.key ∧ q.lingers = true := by
  have before (hm : (key, i) ∈ t.pending) : key = p.key ∧ p.phase.lingers = true := by
    obtain ⟨phase, hst, hlingers⟩ := lingering key i hm
    obtain ⟨p', found', rfl, rfl⟩ := getElem?_standings_iff.mp hst
    obtain rfl := Option.some.inj (found.symm.trans found')
    exact ⟨rfl, hlingers⟩
  cases move with
  | register =>
    rcases List.mem_cons.mp h with he | h
    · exact ⟨(Prod.mk.inj he).1, rfl⟩
    · exact ⟨(before (List.mem_of_mem_filter h)).1, rfl⟩
  | sent | refused | crash | expire => exact ⟨(before h).1, rfl⟩
  | withdraw | giveUp =>
    obtain ⟨hm, hne⟩ := List.mem_filter.mp h
    simp [(before hm).1] at hne
  | fail phase | record phase =>
    have hlingers := (before h).2
    simp [phase, Probe.Phase.lingers, Probe.Phase.outcome?] at hlingers
  | signal phase | tell phase | giveBack phase | leave phase =>
    rw [phase] at before
    exact before h
  | accept phase answered =>
    obtain ⟨rfl, -⟩ := before h
    exact absurd h (taken _ _ _ phase answered)

theorem Move.lingering (lingering : t.Lingering)
    (taken : ∀ (i : Nat) (p : Probe) since deadline sender, t.probes[i]? = some p →
      p.phase = .awaiting since deadline → p.slot = .answered sender → (p.key, i) ∉ t.pending)
    (move : Move t e t') : t'.Lingering := by
  intro key i h
  cases found : t.probes[i]? with
  | none =>
    have hm := (move.mem_pending h).resolve_right (move.standing_of_none found).1
    obtain ⟨phase, hst, -⟩ := lingering key i hm
    simp [standings, found] at hst
  | some p =>
    rcases move.standing found with ⟨hne, hsame⟩ | ⟨q, hmove, hnew⟩
    · obtain ⟨phase, hst, hlingers⟩ :=
        lingering key i ((move.mem_pending h).resolve_right hne)
      rw [getElem?_standings found] at hst
      exact ⟨phase, hsame.trans hst, hlingers⟩
    · obtain ⟨rfl, hlingers⟩ :=
        hmove.lingers lingering found (fun _ _ _ => taken i p _ _ _ found) h
      exact ⟨q, hnew, hlingers⟩

variable {setup : TraceSetup} {plugins : PluginSet} {events : List TraceEvent}

/-- A probe that was answered has been taken off the list. -/
theorem not_mem_pending_of_answered (hr : (start setup plugins).run events = some t)
    {since deadline : Nat} {sender : Address} (found : t.probes[i]? = some p)
    (phase : p.phase = .awaiting since deadline) (answered : p.slot = .answered sender) :
    (p.key, i) ∉ t.pending := by
  have haccount := accounted_of_run hr i
  rw [Accounted, found] at haccount
  have htold := haccount.told
  rw [Probe.Told, phase] at htold
  rcases htold with ⟨-, hslot, -⟩ | ⟨hno, -⟩
  · simp [answered] at hslot
  · exact hno

theorem lingering_of_run (hr : (start setup plugins).run events = some t) : t.Lingering := by
  refine run_induction (P := fun _ s => s.Lingering) ?_ ?_ hr
  · intro key i h
    simp [(start_empty setup plugins).2.1] at h
  · intro events s e s' hr' ih hs
    exact (move_of_step hs).lingering ih fun i p _ _ _ => not_mem_pending_of_answered hr'

theorem crashed_of_pending (hr : (start setup plugins).run events = some t)
    (drained : t.stage.Drained) (h : (key, i) ∈ t.pending) :
    ∃ p : Probe, t.probes[i]? = some p ∧ p.key = key ∧ .sendEnds i .crashed ∈ events := by
  obtain ⟨phase, hst, hlingers⟩ := lingering_of_run hr key i h
  obtain ⟨p, found, hkey, -⟩ := getElem?_standings_iff.mp hst
  refine ⟨p, found, hkey, (sendEnds_iff hr i .crashed).mpr ⟨key, phase, hst, ?_⟩⟩
  obtain ⟨o, rfl⟩ := exists_outcome_of_drained hr drained hst
  cases o with
  | crashed => rfl
  | recorded | failed => simp [Probe.Phase.lingers, Probe.Phase.outcome?] at hlingers

/-! ## Who has the connection -/

theorem housed_of_loopMove {l l' : Listener} {now : Nat} (h : l.Housed)
    (move : l.LoopMove now e l') : l'.Housed := by
  cases move with
  | attempt loop | refuse loop | hold loop | publish loop =>
    unfold Listener.Housed at h ⊢
    rw [h, loop]
    rfl
  | quit | fall | crash | lose => rfl

theorem MainMove.housed (h : t.listener.Housed) (move : MainMove t t') : t'.listener.Housed := by
  cases move with
  | leave =>
    have hreport : t.listener.reportEnd.Housed := by
      unfold Listener.reportEnd
      split <;> exact h
    exact hreport.drop
  | _ => exact h

theorem DispatchMove.housed (h : t.listener.Housed) (move : DispatchMove t t') :
    t'.listener.Housed := by
  cases move with
  | @crash d rest =>
    have hrest : Listener.Housed { t.listener with stream := rest } := h
    exact hrest.drop
  | _ => exact h

theorem Move.housed (h : t.listener.Housed) (move : Move t e t') : t'.listener.Housed := by
  cases move with
  | main move => exact move.housed h
  | probe found move => exact move.aside.1 ▸ h
  | dispatch move => exact move.housed h
  | loop move => exact housed_of_loopMove h move
  | clock => exact h

theorem housed_of_run (valid : setup.params.Valid)
    (hr : (start setup plugins).run events = some t) : t.listener.Housed := by
  refine run_invariant (P := fun s => s.listener.Housed) ?_ (fun _ _ _ h move => move.housed h) hr
  obtain ⟨plugins', fired, log, listening, -, hs⟩ := start_of_valid valid plugins
  rw [hs]
  rfl

/-! ## The end -/

structure Settled (setup : TraceSetup) (plugins : PluginSet) (events : List TraceEvent)
    (t : Trace) (result : Except TraceError HopTable) : Prop where
  reported : ∀ i cause, (i, cause) ∈ (start setup plugins).reports events ↔
    .sendEnds i (.failed cause) ∈ events
  /-- No later report, no hop and no answer of the destination hides the first report. -/
  failed : (∃ i cause, .sendEnds i (.failed cause) ∈ events) →
    ∃ i cause, ((start setup plugins).reports events).head? = some (i, cause) ∧
      result = .error cause
  walked : (∀ i cause, .sendEnds i (.failed cause) ∉ events) →
    result = .ok (t.table.reduce (HopTable.boundAfter setup.params.maxHops) setup.destination)
  nobody : t.live = []
  pending : ∀ key i, (key, i) ∈ t.pending →
    ∃ p : Probe, t.probes[i]? = some p ∧ p.key = key ∧ .sendEnds i .crashed ∈ events
  /-- Unless a datagram has crashed the dispatcher, the receive loop has come to an end and all that
  it published has been received. -/
  mail : (∀ d, .ok d ∈ (start setup plugins).observe receivedBy events →
      setup.recognise d ≠ .crash) →
    t.listener.ended = true ∧ t.listener.holdsConnection = false ∧ t.listener.stream = [] ∧
      (start setup plugins).observe publishedBy events =
        (start setup plugins).observe receivedBy events

theorem settled_of_result (valid : setup.params.Valid)
    (hr : (start setup plugins).run events = some t) {result : Except TraceError HopTable}
    (hd : t.result? = some result) : Settled setup plugins events t result := by
  have drained := drained_of_result hd
  have reaped : t.stage.Reaped := by
    rw [result?_eq_some_iff.mp hd]
    trivial
  have hnobody : t.live = [] := by
    have hlive := (balanced_of_run valid hr).liveCount_eq_zero drained
    rwa [← length_live, List.length_eq_zero_iff] at hlive
  exact {
    reported := fun i cause => mem_reports_iff_failed hr drained
    failed := result_of_failed valid hr hd
    walked := result_of_sent valid hr hd
    nobody := hnobody
    pending := fun key i => crashed_of_pending hr drained
    mail := fun calm => by
      obtain ⟨hended, hempty, hsame⟩ := mail_of_reaped valid hr reaped calm
      have hdropped := (housed_of_run valid hr).holdsConnection_iff.mpr (.inl hended)
      exact ⟨hended, hdropped, hempty, hsame⟩ }

/-- A trace with faulty parameters ends with what is wrong with them, and does nothing. Any other
gets its result in every fair run, and has settled everything by then. -/
theorem ends_settled (setup : TraceSetup) (plugins : PluginSet) :
    (∀ fault, setup.params.fault? = some fault → ∀ events t,
      (start setup plugins).run events = some t → t.result? = some (.error fault) ∧
        t.fired = [] ∧ t.plugins = plugins ∧ t.listener.attempts = 0 ∧ t.probes = #[] ∧
        t.sent = []) ∧
    (setup.params.Valid →
      (∀ r : Endless (start setup plugins), r.Fair →
        ∃ n result, (r.state n).result? = some result) ∧
      ∀ events t result, (start setup plugins).run events = some t → t.result? = some result →
        Settled setup plugins events t result) := by
  refine ⟨fun fault hf events t hr => ?_, fun valid => ⟨fun r fair => fair.completes valid,
    fun events t result hr hd => settled_of_result valid hr hd⟩⟩
  obtain ⟨now, rfl⟩ := eq_start_of_fault hf hr
  rw [start_of_fault hf]
  exact ⟨rfl, rfl, rfl, rfl, rfl, rfl⟩

/-- The second of two failures to send is reported first, a third attempt crashes, and so does the
receive loop. -/
def brokenRun : List TraceEvent :=
  List.replicate 14 .main ++
    [.probe 0, .probe 1, .probe 2, .sendEnds 0 (.failed (.writeFailed "down")),
      .sendEnds 1 (.failed (.writeFailed "unreachable")), .sendEnds 2 .crashed] ++
    List.replicate 4 (.probe 1) ++ List.replicate 4 (.probe 0) ++ List.replicate 2 (.probe 2) ++
    [.loop, .readEnds .crashed, .main, .dispatch, .main, .main, .main]

def noProbe : TraceSetup := { oneHop with params := { numMeasurements := 0 } }

theorem ends_settled_broken :
    (∃ t, (start oneHop {}).run brokenRun = some t ∧
      Settled oneHop {} brokenRun t (.error (.writeFailed "unreachable")) ∧
      (start oneHop {}).reports brokenRun =
        [(1, .writeFailed "unreachable"), (0, .writeFailed "down")] ∧
      t.pending = [(⟨1, 2⟩, 2)] ∧ t.listener.ended = true) ∧
    (∃ r : Endless (start oneHop {}), r.Fair ∧ ∃ n result, (r.state n).result? = some result) ∧
    ∃ fault, (start noProbe {}).result? = some (.error fault) ∧ (start noProbe {}).sent = [] := by
  have valid : oneHop.params.Valid := by decide
  obtain ⟨-, valid_case⟩ := ends_settled oneHop {}
  obtain ⟨completes, settles⟩ := valid_case valid
  obtain ⟨t, hr, hs, hd, hreports, hpending, hreceived⟩ :
      ∃ t, (start oneHop {}).run brokenRun = some t ∧
        t.stage = .done (.error (.writeFailed "unreachable")) ∧ t.dispatcher = .finished ∧
        (start oneHop {}).reports brokenRun =
          [(1, .writeFailed "unreachable"), (0, .writeFailed "down")] ∧
        t.pending = [(⟨1, 2⟩, 2)] ∧ (start oneHop {}).observe receivedBy brokenRun = [] :=
    ⟨_, rfl, rfl, rfl, rfl, rfl, rfl⟩
  have settled := settles brokenRun t _ hr (result?_eq_some_iff.mpr hs)
  obtain ⟨r, fair, -⟩ := Endless.exists_fair hr (balanced_of_run valid hr)
    (attended_of_run valid hr) hd hs
  refine ⟨⟨t, hr, settled, hreports, hpending, ?_⟩, ⟨r, fair, completes r fair⟩, ?_⟩
  · exact (settled.mail (by simp [hreceived])).1
  · obtain ⟨fault, hf⟩ : ∃ fault, noProbe.params.fault? = some fault := ⟨_, rfl⟩
    obtain ⟨hresult, -, -, -, -, hsent⟩ := (ends_settled noProbe {}).1 fault hf [] _ rfl
    exact ⟨fault, hresult, hsent⟩

end Trace

end HopTrace
