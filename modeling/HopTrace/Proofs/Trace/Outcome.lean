import HopTrace.Network
import HopTrace.Proofs.Trace.Balance

/-!
# One outcome for each probe

A probe records one hop, unless the attempt to send it fails or crashes. The
table holds what has been recorded, in that order, and once the main loop has
waited for the probes nothing is missing from it.
-/

namespace HopTrace

def Probe.Phase.isOpen : Probe.Phase → Bool
  | .withdrawing _ => false
  | .failing _ => false
  | .settled _ _ _ => false
  | .released _ => false
  | .ended _ => false
  | _ => true

def Hop.Answers (h : Hop) (ttl : UInt16) : Prop :=
  h = .timeout ttl ∨ ∃ sender rtt, h = .reply ttl sender rtt

theorem Hop.Answers.ttl_eq {h : Hop} {ttl : UInt16} (ha : h.Answers ttl) : h.ttl = ttl := by
  rcases ha with rfl | ⟨sender, rtt, rfl⟩ <;> rfl

def Probe.Sound (s : ProbeKey × Probe.Phase) : Prop :=
  ∀ h, s.2.hop? = some h → h.Answers s.1.ttl

namespace Trace

variable {t t' : Trace} {e : TraceEvent} {i : Nat} {p : Probe} {q : Probe.Phase} {ttl : UInt16}

def recordedBy (t : Trace) : TraceEvent → Option Hop
  | .probe i => t.probes[i]?.bind fun p =>
    match p.phase with
    | .recording h => some h
    | _ => none
  | _ => none

def failedBy (t : Trace) : TraceEvent → Option UInt16
  | .sendEnds i (.failed _) => t.probes[i]?.map (·.key.ttl)
  | _ => none

def crashedBy (t : Trace) : TraceEvent → Option UInt16
  | .sendEnds i .crashed => t.probes[i]?.map (·.key.ttl)
  | _ => none

def recorded (t : Trace) (events : List TraceEvent) : List Hop := t.observe recordedBy events

def failedSends (t : Trace) (events : List TraceEvent) : List UInt16 := t.observe failedBy events

def crashedSends (t : Trace) (events : List TraceEvent) : List UInt16 := t.observe crashedBy events

/-! ## The table -/

theorem recordedBy_probe (found : t.probes[i]? = some p) (other : ∀ h, p.phase ≠ .recording h) :
    t.recordedBy (.probe i) = none := by
  cases hp : p.phase with
  | recording h => exact absurd hp (other h)
  | _ => simp [recordedBy, found, hp]

theorem recordedBy_of_recording {h : Hop} (found : t.probes[i]? = some p)
    (phase : p.phase = .recording h) : t.recordedBy (.probe i) = some h := by
  simp [recordedBy, found, phase]

theorem exists_of_recordedBy {h : Hop} (hrec : t.recordedBy e = some h) :
    ∃ (i : Nat) (p : Probe), t.probes[i]? = some p ∧ p.phase = .recording h := by
  cases e with
  | probe i =>
    obtain ⟨p, found, hp⟩ := Option.bind_eq_some_iff.mp hrec
    refine ⟨i, p, found, ?_⟩
    cases hphase : p.phase with
    | recording h' =>
      obtain rfl : h' = h := by simpa [hphase] using hp
      rfl
    | _ => simp [hphase] at hp
  | _ => simp [recordedBy] at hrec

theorem Move.table (move : Move t e t') :
    t'.table = (t.recordedBy e).toList.foldl HopTable.record t.table := by
  cases move with
  | main move => cases move <;> rfl
  | probe found move =>
    cases move with
    | record phase =>
      rw [recordedBy_of_recording found phase]
      rfl
    | sent | refused | crash => rfl
    | register phase | withdraw phase | fail phase | accept phase | expire phase | giveUp phase
    | signal phase | tell phase | giveBack phase | leave phase =>
      rw [recordedBy_probe found (by simp [phase])]
      rfl
  | dispatch move => cases move <;> rfl
  | loop move => cases move <;> rfl
  | clock => rfl

theorem table_of_run {events : List TraceEvent} (empty : t.table = .empty)
    (hr : t.run events = some t') : t'.table = .ofHops (t.recorded events) := by
  refine run_induction (P := fun events s => s.table = .ofHops (t.recorded events)) empty ?_ hr
  intro events s e s' hr' htable hs
  rw [recorded, observe_concat _ hr' hs, HopTable.ofHops, List.foldl_append,
    (move_of_step hs).table, htable]
  rfl

theorem ProbeMove.sound (move : ProbeMove t i p e q t') (h : Probe.Sound (p.key, p.phase)) :
    Probe.Sound (p.key, q) := by
  cases move with
  | accept =>
    rintro h ⟨⟩
    exact .inr ⟨_, _, rfl⟩
  | giveUp =>
    rintro h ⟨⟩
    exact .inl rfl
  | record phase | signal phase | tell phase | giveBack phase | leave phase =>
    rw [phase] at h
    exact h
  | register | sent | refused | crash | withdraw | fail | expire => exact nofun

/-! ## Counting -/

def ofIndex (ttl : UInt16) (s : ProbeKey × Probe.Phase) : Bool := s.1.ttl = ttl

def openAt (ttl : UInt16) (s : ProbeKey × Probe.Phase) : Bool := s.1.ttl = ttl && s.2.isOpen

theorem count_ofIndex (t : Trace) (ttl : UInt16) :
    t.count (ofIndex ttl) = t.keys.countP (·.ttl = ttl) := by
  rw [keys, Array.countP_map]
  rfl

/-- By each of its moves a probe stays open or closed, or its fate is decided and shows. -/
theorem ProbeMove.fates (found : t.probes[i]? = some p) (sound : Probe.Sound (p.key, p.phase))
    (move : ProbeMove t i p e q t') (ttl : UInt16) :
    (t.recordedBy e).toList.countP (·.ttl = ttl) + (t.failedBy e).toList.count ttl +
      (t.crashedBy e).toList.count ttl + t'.count (openAt ttl) = t.count (openAt ttl) := by
  have hc := move.count found (openAt ttl)
  cases move with
  | record phase =>
    rw [phase] at sound
    have hk : _ = p.key.ttl := (sound _ rfl).ttl_eq
    rw [recordedBy_of_recording found phase]
    by_cases httl : p.key.ttl = ttl <;>
      simp [openAt, phase, Probe.Phase.isOpen, httl, hk, failedBy, crashedBy] at hc ⊢ <;> omega
  | refused phase | crash phase =>
    by_cases httl : p.key.ttl = ttl <;>
      simp [openAt, phase, Probe.Phase.isOpen, httl, found, recordedBy, failedBy, crashedBy]
        at hc ⊢ <;> omega
  | sent phase =>
    simp [openAt, phase, Probe.Phase.isOpen, recordedBy, failedBy, crashedBy] at hc ⊢
    omega
  | register phase | withdraw phase | fail phase | accept phase | expire phase | giveUp phase
  | signal phase | tell phase | giveBack phase | leave phase =>
    rw [recordedBy_probe found (by simp [phase])]
    simp [openAt, phase, Probe.Phase.isOpen, failedBy, crashedBy] at hc ⊢
    omega

/-- Every probe of an index is open, or has recorded a hop, failed or crashed. -/
theorem Move.fates (sound : ∀ s ∈ t.standings, Probe.Sound s) (move : Move t e t')
    (ttl : UInt16) :
    (t.recordedBy e).toList.countP (·.ttl = ttl) + (t.failedBy e).toList.count ttl +
      (t.crashedBy e).toList.count ttl + t'.count (openAt ttl) + t.count (ofIndex ttl) =
      t.count (openAt ttl) + t'.count (ofIndex ttl) := by
  cases move with
  | main move =>
    cases move with
    | @spawn k left stage =>
      unfold count standings
      rw [Array.map_push, Array.countP_push, Array.countP_push]
      by_cases hk : k = ttl
      · simp [hk, recordedBy, failedBy, crashedBy, openAt, ofIndex, Probe.standing,
          Probe.Phase.isOpen]
        omega
      · simp [hk, recordedBy, failedBy, crashedBy, openAt, ofIndex, Probe.standing]
    | _ => simp [recordedBy, failedBy, crashedBy, count, standings]
  | probe found move =>
    have hs := sound _ (Array.mem_of_getElem? (getElem?_standings found))
    have hf := move.fates found hs ttl
    rw [count_ofIndex, count_ofIndex, move.keys found]
    omega
  | dispatch move =>
    cases move with
    | deliver =>
      unfold count standings
      rw [standings_deliver]
      simp [recordedBy, failedBy, crashedBy, standings]
    | _ => simp [recordedBy, failedBy, crashedBy, count, standings]
  | loop move => cases move <;> simp [recordedBy, failedBy, crashedBy, count, standings]
  | clock => simp [recordedBy, failedBy, crashedBy, count, standings]

theorem Move.sound (move : Move t e t') (h : ∀ s ∈ t.standings, Probe.Sound s) :
    ∀ s ∈ t'.standings, Probe.Sound s :=
  move.forall_standing (fun _ => nofun) (fun _ _ _ _ move h => move.sound h) h

theorem sound_of_run {events : List TraceEvent} (none : t.probes = #[])
    (hr : t.run events = some t') : ∀ s ∈ t'.standings, Probe.Sound s :=
  run_invariant (P := fun t => ∀ s ∈ t.standings, Probe.Sound s) (by simp [standings, none])
    (fun _ _ _ h move => move.sound h) hr

theorem fates_of_run {events : List TraceEvent} (none : t.probes = #[])
    (hr : t.run events = some t') (ttl : UInt16) :
    (t.recorded events).countP (·.ttl = ttl) + (t.failedSends events).count ttl +
      (t.crashedSends events).count ttl + t'.count (openAt ttl) = t'.count (ofIndex ttl) := by
  refine run_induction (P := fun events s => (t.recorded events).countP (·.ttl = ttl) +
    (t.failedSends events).count ttl + (t.crashedSends events).count ttl +
      s.count (openAt ttl) = s.count (ofIndex ttl)) ?_ ?_ hr
  · simp [recorded, failedSends, crashedSends, count, standings, none]
  · intro events s e s' hr' ih hs
    have hf := (move_of_step hs).fates (sound_of_run none hr') ttl
    simp only [recorded, failedSends, crashedSends] at ih ⊢
    rw [observe_concat _ hr' hs, observe_concat _ hr' hs, observe_concat _ hr' hs,
      List.countP_append, List.count_append, List.count_append]
    omega

/-- By each event as many probes get a hop for their outcome as it records. -/
theorem Move.count_outcome (move : Move t e t') (h : Hop) :
    t'.count (·.2.outcome? = some (.recorded h)) =
      t.count (·.2.outcome? = some (.recorded h)) + (t.recordedBy e).toList.count h := by
  cases move with
  | main move =>
    cases move with
    | spawn =>
      unfold count standings
      rw [Array.map_push, Array.countP_push_of_neg (by simp [Probe.standing, Probe.Phase.outcome?])]
      rfl
    | _ => rfl
  | probe found move =>
    have hc := move.count found fun s => s.2.outcome? = some (.recorded h)
    cases move with
    | @record x phase =>
      rw [recordedBy_of_recording found phase]
      by_cases hx : x = h <;> simpa [phase, Probe.Phase.outcome?, hx] using hc
    | sent phase | refused phase | crash phase =>
      simpa [phase, Probe.Phase.outcome?, recordedBy] using hc
    | register phase | withdraw phase | fail phase | accept phase | expire phase | giveUp phase
    | signal phase | tell phase | giveBack phase | leave phase =>
      rw [recordedBy_probe found (by simp [phase])]
      simpa [phase, Probe.Phase.outcome?] using hc
  | dispatch move =>
    cases move with
    | deliver =>
      unfold count standings
      rw [standings_deliver]
      rfl
    | _ => rfl
  | loop move => cases move <;> rfl
  | clock => rfl

/-- What has been recorded are the hops that probes have for their outcome. -/
theorem mem_recorded_iff {events : List TraceEvent} (none : t.probes = #[])
    (hr : t.run events = some t') {h : Hop} :
    h ∈ t.recorded events ↔ ∃ s ∈ t'.standings, s.2.outcome? = some (.recorded h) := by
  have hcount : t'.count (·.2.outcome? = some (.recorded h)) = (t.recorded events).count h := by
    refine run_induction (P := fun events s =>
      s.count (·.2.outcome? = some (.recorded h)) = (t.recorded events).count h) ?_ ?_ hr
    · simp [recorded, count, standings, none]
    · intro events s e s' hr' ih hs
      unfold recorded at ih ⊢
      rw [(move_of_step hs).count_outcome, ih, observe_concat _ hr' hs, List.count_append]
  rw [← List.count_pos_iff, ← hcount, count, Array.countP_pos_iff]
  simp only [decide_eq_true_iff]

theorem recorded_answers {events : List TraceEvent} (none : t.probes = #[])
    (hr : t.run events = some t') : ∀ h ∈ t.recorded events, h.Answers h.ttl := by
  refine run_induction (P := fun events _ => ∀ h ∈ t.recorded events, h.Answers h.ttl) ?_ ?_ hr
  · simp [recorded]
  · intro events s e s' hr' ih hs h hm
    rw [recorded, observe_concat _ hr' hs, List.mem_append] at hm
    rcases hm with hm | hm
    · exact ih h hm
    · obtain ⟨i, p, found, phase⟩ := exists_of_recordedBy (Option.mem_toList.mp hm)
      have hsound := sound_of_run none hr' _ (Array.mem_of_getElem? (getElem?_standings found))
      rw [phase] at hsound
      exact (hsound h rfl).ttl_eq.symm ▸ hsound h rfl

theorem count_openAt_le (t : Trace) (ttl : UInt16) : t.count (openAt ttl) ≤ t.liveCount := by
  apply Array.countP_mono_left
  intro s _ hs
  obtain ⟨key, phase⟩ := s
  cases phase <;> simp [openAt, Probe.Phase.isOpen, Probe.Phase.isLive] at hs ⊢

variable {setup : TraceSetup} {plugins : PluginSet} {events : List TraceEvent}

theorem table_of_start (hr : (start setup plugins).run events = some t) :
    t.table = .ofHops ((start setup plugins).recorded events) :=
  table_of_run (start_empty ..).2.2 hr

/-- What becomes of the probes of an index: a hop, a failure, a crash, or they are still open; the
hop in progress may lack some. -/
theorem fates_of_start (valid : setup.params.Valid)
    (hr : (start setup plugins).run events = some t) (ttl : UInt16) :
    (t.table.hops ttl).length + ((start setup plugins).failedSends events).count ttl +
      ((start setup plugins).crashedSends events).count ttl + t.count (openAt ttl) +
        (if t.stage.hop? = some ttl then t.stage.due else 0) =
      if ttl ∈ t.begun then setup.params.numMeasurements.toNat else 0 := by
  have hf := fates_of_run (start_empty ..).1 hr ttl
  have hs := (schedule_of_run valid hr).share ttl
  rw [← count_ofIndex] at hs
  rw [table_of_start hr, HopTable.hops_ofHops, ← List.countP_eq_length_filter, ← hs, ← hf]

theorem mem_begun_of_hops {h : Hop} (valid : setup.params.Valid)
    (hr : (start setup plugins).run events = some t) (hm : h ∈ t.table.hops ttl) :
    ttl ∈ t.begun := by
  have hpos := List.length_pos_of_mem hm
  have hf := fates_of_start valid hr ttl
  by_contra hno
  rw [if_neg hno] at hf
  omega

theorem length_hops_le (valid : setup.params.Valid)
    (hr : (start setup plugins).run events = some t) (ttl : UInt16) :
    (t.table.hops ttl).length ≤ setup.params.numMeasurements.toNat := by
  have hf := fates_of_start valid hr ttl
  split_ifs at hf <;> omega

theorem exists_hop_of_mem_keys (hr : (start setup plugins).run events = some t)
    (hk : ttl ∈ t.table.keys) : ∃ h, h ∈ t.table.hops ttl := by
  rw [table_of_start hr] at hk ⊢
  rw [HopTable.mem_keys_iff, HopTable.get?_ofHops] at hk
  have hex : ∃ h ∈ (start setup plugins).recorded events, h.ttl = ttl := by
    by_contra hno
    simp [hno] at hk
  obtain ⟨h, hm, he⟩ := hex
  exact ⟨h, HopTable.mem_hops_ofHops.mpr ⟨hm, he⟩⟩

/-- Once the main loop has waited for the probes, no fate is open. -/
theorem fates_of_drained (valid : setup.params.Valid)
    (hr : (start setup plugins).run events = some t) (drained : t.stage.Drained)
    (hb : ttl ∈ t.begun) :
    (t.table.hops ttl).length + ((start setup plugins).failedSends events).count ttl +
      ((start setup plugins).crashedSends events).count ttl =
        setup.params.numMeasurements.toNat := by
  have hlive := (balanced_of_run valid hr).liveCount_eq_zero drained
  have hopen := count_openAt_le t ttl
  have hdue : t.stage.hop? ≠ some ttl := by
    intro hhop
    cases hs : t.stage <;> simp [hs, Stage.hop?, Stage.Drained] at hhop drained
  have hf := fates_of_start valid hr ttl
  rw [if_pos hb, if_neg hdue] at hf
  omega

/-- Each probe has one outcome: the table holds at most `n` hops for an index and none that is not
its own, and once the main loop has waited for the probes, exactly those of all probes that were
sent. -/
theorem one_outcome_per_probe (valid : setup.params.Valid)
    (hr : (start setup plugins).run events = some t) :
    (∀ ttl, (t.table.hops ttl).length ≤ setup.params.numMeasurements.toNat) ∧
    (∀ ttl, ∀ h ∈ t.table.hops ttl, h.ttl = ttl ∧ (h.success = true ↔ h.address.isSome = true) ∧
      (h.address.isSome = true ↔ h.rtt.isSome = true)) ∧
    (∀ ttl ∈ t.table.keys, ttl ∈ t.begun) ∧
    (t.stage.Drained → ∀ ttl ∈ t.begun,
      (t.table.hops ttl).length + ((start setup plugins).failedSends events).count ttl +
        ((start setup plugins).crashedSends events).count ttl =
      setup.params.numMeasurements.toNat) := by
  refine ⟨fun ttl => ?_, fun ttl h hm => ?_, fun ttl hk => ?_, fun drained ttl hb => ?_⟩
  · have hf := fates_of_start valid hr ttl
    split_ifs at hf <;> omega
  · rw [table_of_start hr, HopTable.mem_hops_ofHops] at hm
    obtain ⟨hm, rfl⟩ := hm
    rcases recorded_answers (start_empty ..).1 hr h hm with he | ⟨sender, rtt, he⟩ <;>
      rw [he] <;> simp [Hop.timeout, Hop.reply]
  · obtain ⟨h, hm⟩ := exists_hop_of_mem_keys hr hk
    exact mem_begun_of_hops valid hr hm
  · exact fates_of_drained valid hr drained hb

def oneHop : TraceSetup where
  destination := .v4 ⟨192, 0, 2, 1⟩
  params := { maxHops := 1 }
  listening := { bufferSize := 6 }
  recognise := recogniseKey

/-- Of three probes one is answered, one cannot be sent, and one crashes. -/
def mixedRun : List TraceEvent :=
  List.replicate 14 .main ++
    [.probe 0, .probe 1, .probe 2, .sendEnds 0 .sent,
      .sendEnds 1 (.failed (.writeFailed "unreachable")), .sendEnds 2 .crashed, .loop,
      .readEnds (.received (ProbeKey.bytes ⟨1, 0⟩) 6 ⟨.v4 ⟨192, 0, 2, 1⟩, 0, 0⟩), .loop,
      .dispatch, .dispatch] ++ List.replicate 6 (.probe 0) ++ List.replicate 4 (.probe 1) ++
    List.replicate 2 (.probe 2) ++ [.main]

theorem one_outcome_per_probe_mixed : ∃ t, (start oneHop {}).run mixedRun = some t ∧
    t.stage.Drained ∧ t.begun = [1] ∧
    (start oneHop {}).failedSends mixedRun = [1] ∧ (start oneHop {}).crashedSends mixedRun = [1] ∧
    (t.table.hops 1).length + [1].count (1 : UInt16) + [1].count (1 : UInt16) = 3 := by
  have valid : oneHop.params.Valid := by decide
  obtain ⟨t, hr, drained, hb, hfailed, hcrashed⟩ : ∃ t, (start oneHop {}).run mixedRun = some t ∧
      t.stage.Drained ∧ t.begun = [1] ∧ (start oneHop {}).failedSends mixedRun = [1] ∧
      (start oneHop {}).crashedSends mixedRun = [1] := ⟨_, rfl, trivial, rfl, rfl, rfl⟩
  have h := (one_outcome_per_probe valid hr).2.2.2 drained 1 (by simp [hb])
  rw [hfailed, hcrashed] at h
  exact ⟨t, hr, drained, hb, hfailed, hcrashed, h⟩

end Trace

end HopTrace
