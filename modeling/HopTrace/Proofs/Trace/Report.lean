import HopTrace.Proofs.Trace.Attribution
import HopTrace.Proofs.Trace.Conclusion

/-!
# Which failure a trace ends with

A probe that could not be sent reports that once it has left the list of those
that wait. The first report decides what the trace ends with; no later one, no
hop and no answer of the destination changes that.
-/

namespace HopTrace

def Probe.Phase.reported (q : Probe.Phase) : List TraceError :=
  match q.outcome? with
  | some (.failed e) => [e]
  | _ => []

namespace Trace

variable {t t' : Trace} {e : TraceEvent} {i : Nat} {p : Probe} {q : Probe.Phase}
  {cause : TraceError}

def reportedBy (t : Trace) : TraceEvent → Option (Nat × TraceError)
  | .probe i => t.probes[i]?.bind fun p =>
    match p.phase with
    | .failing cause => some (i, cause)
    | _ => none
  | _ => none

def reports (t : Trace) (events : List TraceEvent) : List (Nat × TraceError) :=
  t.observe reportedBy events

theorem reportedBy_probe (found : t.probes[i]? = some p)
    (other : ∀ cause, p.phase ≠ .failing cause) : t.reportedBy (.probe i) = none := by
  cases hp : p.phase with
  | failing cause => exact absurd hp (other cause)
  | _ => simp [reportedBy, found, hp]

theorem reportedBy_of_failing (found : t.probes[i]? = some p) (phase : p.phase = .failing cause) :
    t.reportedBy (.probe i) = some (i, cause) := by
  simp [reportedBy, found, phase]

theorem probe_of_reportedBy (h : t.reportedBy e = some (i, cause)) : e.probe? = some i := by
  cases e with
  | probe j =>
    obtain ⟨p, -, hp⟩ := Option.bind_eq_some_iff.mp h
    cases hphase : p.phase with
    | failing e =>
      obtain ⟨rfl, -⟩ : j = i ∧ e = cause := by simpa [hphase] using hp
      rfl
    | _ => simp [hphase] at hp
  | _ => cases h

/-! ## The first report -/

theorem Move.sendError (move : Move t e t') :
    t'.sendError = t.sendError.or ((t.reportedBy e).map Prod.snd) := by
  have aside (hnone : t.reportedBy e = none) (hsame : t'.sendError = t.sendError) :
      t'.sendError = t.sendError.or ((t.reportedBy e).map Prod.snd) := by
    rw [hnone, hsame, Option.map_none, Option.or_none]
  cases move with
  | main move => exact aside rfl (by cases move <;> rfl)
  | probe found move =>
    cases move with
    | @fail cause phase =>
      rw [reportedBy_of_failing found phase]
      change (t.sendError <|> some cause) = _
      cases t.sendError <;> rfl
    | sent | refused | crash => exact aside rfl rfl
    | register phase | withdraw phase | accept phase | expire phase | giveUp phase | record phase
    | signal phase | tell phase | giveBack phase | leave phase =>
      exact aside (reportedBy_probe found (by simp [phase])) rfl
  | dispatch move => exact aside rfl (by cases move <;> rfl)
  | loop move => exact aside (by cases move <;> rfl) rfl
  | clock => exact aside rfl rfl

variable {setup : TraceSetup} {plugins : PluginSet} {events : List TraceEvent}

/-- The first report is kept, and no other. -/
theorem sendError_of_run (valid : setup.params.Valid)
    (hr : (start setup plugins).run events = some t) :
    t.sendError = ((start setup plugins).reports events).head?.map Prod.snd := by
  refine run_induction (P := fun events s =>
    s.sendError = ((start setup plugins).reports events).head?.map Prod.snd) ?_ ?_ hr
  · obtain ⟨plugins', fired, log, listening, -, hs⟩ := start_of_valid valid plugins
    rw [hs]
    rfl
  · intro events s e s' hr' ih hs
    rw [reports, observe_concat _ hr' hs, ← reports, List.head?_append, Option.map_or, ← ih,
      (move_of_step hs).sendError]
    cases s.reportedBy e <;> rfl

theorem result_of_run (valid : setup.params.Valid)
    (hr : (start setup plugins).run events = some t) {result : Except TraceError HopTable}
    (hd : t.result? = some result) :
    result = match ((start setup plugins).reports events).head? with
      | some (_, cause) => .error cause
      | none => .ok (t.table.reduce (HopTable.boundAfter setup.params.maxHops)
          setup.destination) := by
  rw [concluded_of_run valid hr result (result?_eq_some_iff.mp hd), verdict,
    sendError_of_run valid hr, setup_of_start hr]
  cases ((start setup plugins).reports events).head? <;> rfl

/-! ## Who reports -/

def reportOf (i : Nat) (t : Trace) (e : TraceEvent) : Option (Nat × TraceError) :=
  (t.reportedBy e).filter (·.1 = i)

theorem reportOf_of_ne (h : e.probe? ≠ some i) : t.reportOf i e = none := by
  rw [reportOf, Option.filter_eq_none_iff]
  rintro ⟨j, cause⟩ hr hj
  obtain rfl : j = i := of_decide_eq_true hj
  exact h (probe_of_reportedBy hr)

theorem ProbeMove.reported (found : t.probes[i]? = some p) (move : ProbeMove t i p e q t') :
    q.reported.map (i, ·) = p.phase.reported.map (i, ·) ++ (t.reportOf i e).toList := by
  rw [reportOf]
  cases move with
  | fail phase =>
    rw [reportedBy_of_failing found phase, phase]
    simp [Probe.Phase.reported, Probe.Phase.outcome?, Option.filter]
  | register phase | withdraw phase | accept phase | expire phase | giveUp phase | record phase =>
    rw [reportedBy_probe found (by simp [phase]), phase]
    rfl
  | signal phase | tell phase | giveBack phase | leave phase =>
    rw [reportedBy_probe found (by simp [phase]), phase]
    exact (List.append_nil _).symm
  | sent phase | refused phase | crash phase =>
    rw [phase]
    rfl

/-- What a probe has reported shows in its phase. -/
theorem mem_reports_iff (hr : (start setup plugins).run events = some t) :
    (i, cause) ∈ (start setup plugins).reports events ↔
      ∃ key q, t.standings[i]? = some (key, q) ∧ q.outcome? = some (.failed cause) := by
  have hshown : (start setup plugins).observe (reportOf i) events =
      t.shown (fun q => q.reported.map (i, ·)) i :=
    observe_eq_shown (start_empty ..).1 rfl (fun _ _ => reportOf_of_ne)
      (fun _ _ _ _ _ found move => move.reported found) hr
  have hmem : (i, cause) ∈ (start setup plugins).reports events ↔
      (i, cause) ∈ t.shown (fun q => q.reported.map (i, ·)) i := by
    rw [← hshown, show reportOf i = fun s e => (s.reportedBy e).filter (·.1 = i) from rfl,
      observe_filter, List.mem_filter, reports]
    simp
  rw [hmem, shown]
  cases t.standings[i]? with
  | none => simp
  | some s =>
    obtain ⟨key, phase⟩ := s
    cases ho : phase.outcome? with
    | none => simp [Probe.Phase.reported, ho]
    | some o => cases o <;> simp [Probe.Phase.reported, ho, eq_comm]

/-- In the end every failure to send has been reported, and nothing else. -/
theorem mem_reports_iff_failed (hr : (start setup plugins).run events = some t)
    (drained : t.stage.Drained) :
    (i, cause) ∈ (start setup plugins).reports events ↔ .sendEnds i (.failed cause) ∈ events := by
  rw [mem_reports_iff hr, sendEnds_iff hr]
  constructor
  · rintro ⟨key, phase, hst, ho⟩
    exact ⟨key, phase, hst, Probe.Phase.sendEnd_of_outcome ho⟩
  · rintro ⟨key, phase, hst, hfailed⟩
    obtain ⟨o, rfl⟩ := exists_outcome_of_drained hr drained hst
    cases o with
    | failed e =>
      obtain rfl : e = cause := by simpa [Probe.Phase.sendEnd?, Probe.Outcome.sendEnd] using hfailed
      exact ⟨key, _, hst, rfl⟩
    | recorded | crashed => cases hfailed

/-- A trace that could not send a probe ends with the first failure reported. -/
theorem result_of_failed (valid : setup.params.Valid)
    (hr : (start setup plugins).run events = some t) {result : Except TraceError HopTable}
    (hd : t.result? = some result) (failed : ∃ i cause, .sendEnds i (.failed cause) ∈ events) :
    ∃ i cause, ((start setup plugins).reports events).head? = some (i, cause) ∧
      result = .error cause := by
  obtain ⟨j, other, hm⟩ := failed
  have hne := List.ne_nil_of_mem ((mem_reports_iff_failed hr (drained_of_result hd)).mpr hm)
  obtain ⟨⟨i, cause⟩, hfirst⟩ := Option.isSome_iff_exists.mp (List.isSome_head?.mpr hne)
  exact ⟨i, cause, hfirst, by rw [result_of_run valid hr hd, hfirst]⟩

/-- A trace all of whose probes were sent ends with the route in its table. -/
theorem result_of_sent (valid : setup.params.Valid)
    (hr : (start setup plugins).run events = some t) {result : Except TraceError HopTable}
    (hd : t.result? = some result) (sent : ∀ i cause, .sendEnds i (.failed cause) ∉ events) :
    result = .ok (t.table.reduce (HopTable.boundAfter setup.params.maxHops) setup.destination) := by
  have hnil : (start setup plugins).reports events = [] := by
    rw [List.eq_nil_iff_forall_not_mem]
    rintro ⟨i, cause⟩ hm
    exact sent i cause ((mem_reports_iff_failed hr (drained_of_result hd)).mp hm)
  rw [result_of_run valid hr hd, hnil]
  rfl

theorem result_of_unfailing (valid : setup.params.Valid) (hu : Unfailing events)
    (hr : (start setup plugins).run events = some t) {result : Except TraceError HopTable}
    (hd : t.result? = some result) :
    t.stage.Drained ∧ result = .ok (t.table.reduce
      (HopTable.boundAfter setup.params.maxHops) setup.destination) := by
  refine ⟨drained_of_result hd, result_of_sent valid hr hd fun i cause hm => ?_⟩
  cases hu i _ hm

end Trace

end HopTrace
