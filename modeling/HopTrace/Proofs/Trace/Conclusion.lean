import HopTrace.Proofs.Route.Walk
import HopTrace.Proofs.Trace.Outcome

/-!
# What a trace ends with

The main loop stops before the last hop only if the destination has answered.
Its result is the first failure to send, or else the route in the table as it
stands, which no probe changes any more.
-/

namespace HopTrace

def Probe.Candid (destination : Address) (s : ProbeKey × Probe.Phase) : Prop :=
  ∀ o news, s.2 = .settled o true news → ∃ h, o = .recorded h ∧ h.reached destination = true

namespace Trace

def Stage.Probing : Stage → Prop
  | .draining _ => False
  | .closing => False
  | .joining => False
  | .concluding => False
  | .done _ => False
  | _ => True

theorem Stage.Drained.not_probing {stage : Stage} (h : stage.Drained) : ¬ stage.Probing := by
  cases stage <;> simp [Stage.Probing, Stage.Drained] at h ⊢

def Arrived (t : Trace) : Prop := ∃ ttl, HopTable.Reached t.setup.destination (t.table.hops ttl)

/-- Whether an answer of the destination has been recorded for good, that is signalled too. -/
def Noted (t : Trace) : Prop :=
  ∃ s ∈ t.standings, ∃ h, s.2.noted? = some h ∧ h.reached t.setup.destination = true

/-- The main loop has not been told to stop without reason, nor has it stopped so. -/
structure Earnest (t : Trace) : Prop where
  raised : t.arrival.pending = true → t.Noted
  stopped : ¬ t.stage.Probing → t.Noted ∨
    t.setup.params.beginHop.toNat + t.begun.length = t.setup.params.maxHops.toNat + 1

def verdict (t : Trace) : Except TraceError HopTable :=
  match t.sendError with
  | some e => .error e
  | none => .ok (t.table.reduce (HopTable.boundAfter t.setup.params.maxHops) t.setup.destination)

section

variable {t t' : Trace} {e : TraceEvent} {i : Nat} {p : Probe} {q : Probe.Phase}

/-! ## When the main loop stops -/

theorem ProbeMove.noted {x : Hop} (move : ProbeMove t i p e q t')
    (h : p.phase.noted? = some x) : q.noted? = some x := by
  cases move with
  | tell phase | giveBack phase | leave phase =>
    rw [phase] at h
    exact h
  | register phase | sent phase | refused phase | crash phase | withdraw phase | fail phase
  | accept phase | expire phase | giveUp phase | record phase | signal phase =>
    rw [phase] at h
    cases h

theorem Move.noted (move : Move t e t') (h : t.Noted) : t'.Noted := by
  obtain ⟨⟨key, phase⟩, hs, x, hx, hreached⟩ := h
  rw [← move.setup] at hreached
  obtain ⟨i, hi⟩ := Array.mem_iff_getElem?.mp hs
  obtain ⟨p, found, -, rfl⟩ := getElem?_standings_iff.mp hi
  rcases move.standing found with ⟨-, hsame⟩ | ⟨q, hmove, hnew⟩
  · exact ⟨_, Array.mem_of_getElem? hsame, x, hx, hreached⟩
  · exact ⟨_, Array.mem_of_getElem? hnew, x, hmove.noted hx, hreached⟩

theorem ProbeMove.candid {destination : Address} (hd : t.setup.destination = destination)
    (move : ProbeMove t i p e q t') : Probe.Candid destination (p.key, q) := by
  intro o news hq
  cases move with
  | @record h =>
    obtain ⟨ho, harrived, -⟩ := Probe.Phase.settled.inj hq
    exact ⟨h, ho.symm, hd ▸ harrived⟩
  | _ => cases hq

theorem ProbeMove.earnest (candid : Probe.Candid t.setup.destination (p.key, p.phase))
    (found : t.probes[i]? = some p) (move : ProbeMove t i p e q t') (h : t.Earnest) :
    t'.Earnest := by
  have later : t.Noted → t'.Noted := (Move.probe found move).noted
  have stopped : ¬ t'.stage.Probing → t'.Noted ∨
      t'.setup.params.beginHop.toNat + t'.begun.length = t'.setup.params.maxHops.toNat + 1 := by
    rw [move.stage, move.begun, (Move.probe found move).setup]
    exact fun hs => (h.stopped hs).imp_left later
  refine ⟨fun hp => ?_, stopped⟩
  have hself := move.standing_self found
  cases move with
  | signal phase =>
    obtain ⟨x, rfl, hreached⟩ := candid _ _ phase
    exact ⟨_, Array.mem_of_getElem? hself, x, rfl, hreached⟩
  | _ => exact later (h.raised hp)

theorem MainMove.earnest (scheduled : t.Scheduled) (move : MainMove t t') (h : t.Earnest) :
    t'.Earnest := by
  have later : t.Noted → t'.Noted := (Move.main move).noted
  cases move with
  | stop stage raised =>
    exact ⟨nofun, fun _ => .inl (h.raised raised)⟩
  | beginHop => exact ⟨nofun, fun hs => absurd trivial hs⟩
  | lastHop passed last => exact ⟨h.raised, fun _ => .inr (scheduled.through passed last)⟩
  | release stage | reap stage | miss stage | leave stage | fail stage | succeed stage =>
    have hs : ¬ t.stage.Probing := by simp [stage, Stage.Probing]
    exact ⟨h.raised, fun _ => h.stopped hs⟩
  | request | grant | join | spawn | pause | nextHop =>
    exact ⟨fun hp => later (h.raised hp), fun hs => absurd trivial hs⟩

theorem Move.earnest (scheduled : t.Scheduled)
    (candid : ∀ s ∈ t.standings, Probe.Candid t.setup.destination s) (move : Move t e t')
    (h : t.Earnest) : t'.Earnest := by
  have later : t.Noted → t'.Noted := move.noted
  cases move with
  | main move => exact move.earnest scheduled h
  | probe found move =>
    exact move.earnest (candid _ (Array.mem_of_getElem? (getElem?_standings found))) found h
  | dispatch move =>
    cases move <;>
      exact ⟨fun hp => later (h.raised hp), fun hs => (h.stopped hs).imp_left later⟩
  | loop => exact ⟨h.raised, h.stopped⟩
  | clock => exact ⟨h.raised, h.stopped⟩

/-! ## What is left to change -/

theorem ProbeMove.live (move : ProbeMove t i p e q t') : p.phase.isLive = true := by
  cases move with
  | register phase | sent phase | refused phase | crash phase | withdraw phase | fail phase
  | accept phase | expire phase | giveUp phase | record phase | signal phase | tell phase
  | giveBack phase | leave phase => rw [phase]; rfl

theorem result?_eq_some_iff {result : Except TraceError HopTable} :
    t.result? = some result ↔ t.stage = .done result := by
  unfold result?
  split
  next r hs => rw [hs, Option.some.injEq, Stage.done.injEq]
  next hno => exact ⟨nofun, fun hs => absurd hs (hno result)⟩

theorem drained_of_result {result : Except TraceError HopTable} (h : t.result? = some result) :
    t.stage.Drained := by
  rw [result?_eq_some_iff.mp h]
  trivial

/-- The result of a trace is the verdict on it, however long ago it was found. -/
def Concluded (t : Trace) : Prop := ∀ result, t.stage = .done result → result = t.verdict

theorem Move.concluded (balanced : t.Balanced) (move : Move t e t') (h : t.Concluded) :
    t'.Concluded := by
  intro result hs
  cases move with
  | main move =>
    cases move with
    | fail stage failed =>
      cases hs
      simp [verdict, failed]
    | succeed stage clean =>
      cases hs
      simp [verdict, clean]
    | _ => cases hs
  | probe found move =>
    rw [move.stage] at hs
    have hdrained : t.stage.Drained := by rw [hs]; trivial
    have hpos := liveCount_pos found move.live
    have hzero := balanced.liveCount_eq_zero hdrained
    omega
  | dispatch move => cases move <;> exact h result hs
  | loop => exact h result hs
  | clock => exact h result hs

/-! ## Runs in which every probe is sent -/

def Unfailing (events : List TraceEvent) : Prop :=
  ∀ i r, TraceEvent.sendEnds i r ∈ events → r = .sent

variable {events : List TraceEvent}

theorem failedSends_eq_nil (hu : Unfailing events) : t.failedSends events = [] := by
  apply observe_eq_nil
  intro e he s
  cases e with
  | sendEnds i r => rw [hu i r he]; rfl
  | _ => rfl

theorem crashedSends_eq_nil (hu : Unfailing events) : t.crashedSends events = [] := by
  apply observe_eq_nil
  intro e he s
  cases e with
  | sendEnds i r => rw [hu i r he]; rfl
  | _ => rfl

end

/-! ## Runs from the start -/

variable {setup : TraceSetup} {plugins : PluginSet} {events : List TraceEvent} {t : Trace}
  {ttl : UInt16}

theorem candid_of_run (hr : (start setup plugins).run events = some t) :
    ∀ s ∈ t.standings, Probe.Candid t.setup.destination s := by
  apply And.right (a := t.setup = setup)
  refine run_invariant (P := fun s => s.setup = setup ∧
    ∀ x ∈ s.standings, Probe.Candid s.setup.destination x)
    ⟨setup_start .., by simp [standings, (start_empty setup plugins).1]⟩ ?_ hr
  rintro s e s' ⟨hset, hcandid⟩ move
  rw [move.setup]
  refine ⟨hset, move.forall_standing (fun _ o news h => ?_)
    (fun _ _ _ _ move _ => move.candid rfl) hcandid⟩
  cases h

/-- An answer of the destination that has been recorded for good is in the table. -/
theorem arrived_of_noted (hr : (start setup plugins).run events = some t) (h : t.Noted) :
    t.Arrived := by
  obtain ⟨s, hs, x, hx, hreached⟩ := h
  have hrec := (mem_recorded_iff (start_empty ..).1 hr).mpr
    ⟨s, hs, Probe.Phase.outcome_of_noted hx⟩
  refine ⟨x.ttl, x, ?_, hreached⟩
  rw [table_of_start hr]
  exact HopTable.mem_hops_ofHops.mpr ⟨hrec, rfl⟩

theorem earnest_of_run (valid : setup.params.Valid)
    (hr : (start setup plugins).run events = some t) : t.Earnest := by
  refine run_induction (P := fun _ s => s.Earnest) ?_ ?_ hr
  · obtain ⟨plugins', fired, log, listening, -, hs⟩ := start_of_valid valid plugins
    rw [hs]
    exact ⟨nofun, fun hp => absurd trivial hp⟩
  · intro events s e s' hr' h hs
    exact (move_of_step hs).earnest (scheduled_of_run valid hr') (candid_of_run hr') h

theorem concluded_of_run (valid : setup.params.Valid)
    (hr : (start setup plugins).run events = some t) : t.Concluded := by
  refine run_induction (P := fun _ s => s.Concluded) ?_ ?_ hr
  · obtain ⟨plugins', fired, log, listening, -, hs⟩ := start_of_valid valid plugins
    rw [hs]
    exact nofun
  · intro events s e s' hr' h hs
    exact (move_of_step hs).concluded (balanced_of_run valid hr') h

theorem row_length (valid : setup.params.Valid) (hu : Unfailing events)
    (hr : (start setup plugins).run events = some t) (drained : t.stage.Drained)
    (hb : ttl ∈ t.begun) : (t.table.hops ttl).length = setup.params.numMeasurements.toNat := by
  have hf := fates_of_drained valid hr drained hb
  rw [failedSends_eq_nil hu, crashedSends_eq_nil hu] at hf
  simpa using hf

/-- In the end something has been recorded for exactly the hops that have been begun. -/
theorem mem_begun_iff_recorded (valid : setup.params.Valid) (hu : Unfailing events)
    (hr : (start setup plugins).run events = some t) (drained : t.stage.Drained) :
    ttl ∈ t.begun ↔ ∃ h ∈ (start setup plugins).recorded events, h.ttl = ttl := by
  constructor
  · intro hb
    have hlen := row_length valid hu hr drained hb
    have hpos := valid.numMeasurements_pos
    rw [← hlen, table_of_start hr] at hpos
    obtain ⟨h, hm⟩ := List.exists_mem_of_length_pos hpos
    exact ⟨h, HopTable.mem_hops_ofHops.mp hm⟩
  · rintro ⟨h, hm, he⟩
    apply mem_begun_of_hops valid hr (h := h)
    rw [table_of_start hr]
    exact HopTable.mem_hops_ofHops.mpr ⟨hm, he⟩

/-- Exactly the indices that have been begun have a row in the end, with what was recorded for
them, in that order. -/
theorem row_of_drained (valid : setup.params.Valid) (hu : Unfailing events)
    (hr : (start setup plugins).run events = some t) (drained : t.stage.Drained) (ttl : UInt16) :
    t.table.get? ttl = if ttl ∈ t.begun then
      some (((start setup plugins).recorded events).filter (·.ttl = ttl)) else none := by
  rw [table_of_start hr, HopTable.get?_ofHops]
  exact if_congr (mem_begun_iff_recorded valid hu hr drained).symm rfl rfl

theorem begun_ne_nil (valid : setup.params.Valid)
    (hr : (start setup plugins).run events = some t) (past : ¬ t.stage.Probing) :
    t.begun ≠ [] := by
  intro hnil
  rcases (earnest_of_run valid hr).stopped past with hnoted | hlen
  · obtain ⟨ttl, h, hm, -⟩ := arrived_of_noted hr hnoted
    have hb := mem_begun_of_hops valid hr hm
    simp [hnil] at hb
  · rw [hnil, setup_of_start hr] at hlen
    have hle := valid.beginHop_le
    simp only [List.length_nil] at hlen
    omega

end Trace

end HopTrace
