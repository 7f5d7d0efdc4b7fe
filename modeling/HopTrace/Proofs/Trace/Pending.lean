import HopTrace.Proofs.Trace.Schedule

/-!
# Who waits for a reply

No key is given out twice. So the list of those that wait has at most one probe
for a key, and no probe that registers pushes out another.
-/

namespace HopTrace.Trace

variable {t t' : Trace} {e : TraceEvent} {i j : Nat} {p : Probe} {q : Probe.Phase} {k : ProbeKey}

def Distinct (t : Trace) : Prop :=
  ∀ (i j : Nat) (p q : Probe), t.probes[i]? = some p → t.probes[j]? = some q → p.key = q.key → i = j

def Listed (t : Trace) : Prop := ∀ k j, (k, j) ∈ t.pending →
  ∃ p : Probe, t.probes[j]? = some p ∧ p.key = k ∧ p.phase ≠ .spawned

/-! ## Keys -/

theorem Scheduled.distinct (h : t.Scheduled) : t.Distinct := by
  intro i j p q hp hq hk
  have hi := (h.key i p.key (getElem?_keys hp)).2
  have hj := (h.key j q.key (getElem?_keys hq)).2
  rw [← hi, ← hj, hk]

variable {setup : TraceSetup} {plugins : PluginSet} {events : List TraceEvent}

/-- With faulty parameters nothing can move but the clock. -/
theorem eq_start_of_fault {fault : TraceError} (hf : setup.params.fault? = some fault)
    (hr : (start setup plugins).run events = some t) :
    ∃ now, t = { start setup plugins with now } := by
  refine run_invariant (P := fun s => ∃ now, s = { start setup plugins with now }) ⟨_, rfl⟩ ?_ hr
  rintro s e s' ⟨now, rfl⟩ move
  rw [start_of_fault hf] at move ⊢
  cases move with
  | main move =>
    cases move with
    | nextHop passed | lastHop passed => cases passed.hop.1
    | _ => contradiction
  | probe found move => simp at found
  | dispatch move =>
    cases move with
    | finish receiving closed => simp [Listener.closed, Listener.ended] at closed
    | _ => contradiction
  | loop move => cases move <;> contradiction
  | clock => exact ⟨_, rfl⟩

theorem probes_of_faulty (faulty : ¬ setup.params.Valid)
    (hr : (start setup plugins).run events = some t) : t.probes = #[] := by
  obtain ⟨fault, hf⟩ := Option.ne_none_iff_exists'.mp faulty
  obtain ⟨now, rfl⟩ := eq_start_of_fault hf hr
  exact (start_empty ..).1

theorem distinct_of_run (hr : (start setup plugins).run events = some t) : t.Distinct := by
  by_cases valid : setup.params.Valid
  · exact (scheduled_of_run valid hr).distinct
  · intro i j p q hp
    simp [probes_of_faulty valid hr] at hp

/-! ## The list of those that wait -/

theorem pending?_eq_some_iff (distinct : t.Distinct) (listed : t.Listed) :
    t.pending? k = some i ↔ (k, i) ∈ t.pending := by
  have mem {j : Nat} (h : t.pending? k = some j) : (k, j) ∈ t.pending := by
    obtain ⟨before, after, hsplit, -⟩ := List.lookup_eq_some_iff.mp h
    simp [hsplit]
  refine ⟨mem, fun h => ?_⟩
  cases hl : t.pending? k with
  | none =>
    have hno := List.lookup_eq_none_iff.mp hl _ h
    simp at hno
  | some j =>
    obtain ⟨p, hp, hpk, -⟩ := listed k i h
    obtain ⟨q, hq, hqk, -⟩ := listed k j (mem hl)
    rw [distinct i j p q hp hq (hpk.trans hqk.symm)]

theorem exists_of_pending? (distinct : t.Distinct) (listed : t.Listed)
    (h : t.pending? k = some i) : ∃ p : Probe, t.probes[i]? = some p ∧ p.key = k ∧
      p.phase ≠ .spawned :=
  listed k i ((pending?_eq_some_iff distinct listed).mp h)

theorem pending?_eq_none (distinct : t.Distinct) (listed : t.Listed)
    (found : t.probes[i]? = some p) (h : (p.key, i) ∉ t.pending) : t.pending? p.key = none := by
  cases hl : t.pending? p.key with
  | none => rfl
  | some j =>
    have hm := (pending?_eq_some_iff distinct listed).mp hl
    obtain ⟨q, hq, hqk, -⟩ := listed p.key j hm
    obtain rfl := distinct i j p q found hq hqk.symm
    exact absurd hm h

/-- A probe that registers finds nobody else under its key. -/
theorem not_pending_of_spawned (distinct : t.Distinct) (listed : t.Listed)
    (found : t.probes[i]? = some p) (phase : p.phase = .spawned) : t.pending? p.key = none := by
  apply pending?_eq_none distinct listed found
  intro hm
  obtain ⟨q, hq, -, hphase⟩ := listed p.key i hm
  obtain rfl := Option.some.inj (found.symm.trans hq)
  exact hphase phase

/-! ## What a move of a probe changes -/

theorem ProbeMove.probes (distinct : t.Distinct) (listed : t.Listed)
    (found : t.probes[i]? = some p) (move : ProbeMove t i p e q t') :
    t'.probes = t.probes.setIfInBounds i { p with phase := q } := by
  cases move with
  | register phase =>
    have hnone := not_pending_of_spawned distinct listed found phase
    change (t.probesAt p.key _).setIfInBounds i _ = _
    rw [probesAt, hnone]
  | _ => rfl

theorem ProbeMove.getElem?_self (distinct : t.Distinct) (listed : t.Listed)
    (found : t.probes[i]? = some p) (move : ProbeMove t i p e q t') :
    t'.probes[i]? = some { p with phase := q } := by
  have hi : i < t.probes.size := (Array.getElem?_eq_some_iff.mp found).choose
  rw [move.probes distinct listed found, Array.getElem?_setIfInBounds_self_of_lt hi]

theorem ProbeMove.getElem?_ne (distinct : t.Distinct) (listed : t.Listed)
    (found : t.probes[i]? = some p) (move : ProbeMove t i p e q t') (hne : i ≠ j) :
    t'.probes[j]? = t.probes[j]? := by
  rw [move.probes distinct listed found, Array.getElem?_setIfInBounds_ne hne]

/-- Another probe waits after the move exactly if it waited before. -/
theorem ProbeMove.mem_pending_ne {o : Probe} (distinct : t.Distinct)
    (found : t.probes[i]? = some p) (move : ProbeMove t i p e q t')
    (other : t.probes[j]? = some o) (hne : i ≠ j) :
    (o.key, j) ∈ t'.pending ↔ (o.key, j) ∈ t.pending := by
  have hk : o.key ≠ p.key := fun he => hne (distinct i j p o found other he.symm)
  cases move with
  | register =>
    change (o.key, j) ∈ (p.key, i) :: t.pending.filter (·.1 ≠ p.key) ↔ _
    simp [hk]
  | withdraw | giveUp =>
    change (o.key, j) ∈ t.pending.filter (·.1 ≠ p.key) ↔ _
    simp [hk]
  | _ => exact Iff.rfl

theorem ProbeMove.listed (distinct : t.Distinct) (listed : t.Listed)
    (found : t.probes[i]? = some p) (move : ProbeMove t i p e q t') : t'.Listed := by
  have hself := move.getElem?_self distinct listed found
  have hphase : q ≠ .spawned := by cases move <;> exact nofun
  -- Whoever waited is still a probe with that key, in another phase perhaps.
  have still (k : ProbeKey) (j : Nat) (hm : (k, j) ∈ t.pending) :
      ∃ o : Probe, t'.probes[j]? = some o ∧ o.key = k ∧ o.phase ≠ .spawned := by
    obtain ⟨o, ho, hok, hop⟩ := listed k j hm
    by_cases hij : i = j
    · subst hij
      obtain rfl := Option.some.inj (found.symm.trans ho)
      exact ⟨_, hself, hok, hphase⟩
    · exact ⟨o, (move.getElem?_ne distinct listed found hij).trans ho, hok, hop⟩
  intro k j hm
  cases move with
  | register =>
    rcases List.mem_cons.mp hm with he | hm
    · obtain ⟨rfl, rfl⟩ := Prod.mk.inj he
      exact ⟨_, hself, rfl, hphase⟩
    · exact still k j ((List.mem_filter.mp hm).1)
  | withdraw | giveUp => exact still k j ((List.mem_filter.mp hm).1)
  | _ => exact still k j hm

theorem getElem?_answer (k : ProbeKey) (sender : Address) :
    (t.probesAt k (·.answer sender))[j]? =
      if t.pending? k = some j then t.probes[j]?.map (·.answer sender) else t.probes[j]? := by
  unfold probesAt
  cases hl : t.pending? k with
  | none => simp
  | some i => simp [Array.getElem?_modify]

theorem Move.listed (distinct : t.Distinct) (listed : t.Listed) (move : Move t e t') :
    t'.Listed := by
  cases move with
  | main move =>
    cases move with
    | spawn =>
      intro k j hm
      obtain ⟨o, ho, hok, hop⟩ := listed k j hm
      have hj : j < t.probes.size := (Array.getElem?_eq_some_iff.mp ho).choose
      refine ⟨o, ?_, hok, hop⟩
      change (t.probes.push _)[j]? = _
      rw [Array.getElem?_push_lt hj, ← ho]
      exact (Array.getElem?_eq_getElem hj).symm
    | _ => exact listed
  | probe found move => exact move.listed distinct listed found
  | dispatch move =>
    cases move with
    | deliver =>
      intro k j hm
      obtain ⟨o, ho, hok, hop⟩ := listed k j ((List.mem_filter.mp hm).1)
      change ∃ p, (t.probesAt _ _)[j]? = some p ∧ _
      rw [getElem?_answer]
      split_ifs
      · exact ⟨_, congrArg _ ho, by simpa using hok, by simpa using hop⟩
      · exact ⟨o, ho, hok, hop⟩
    | _ => exact listed
  | loop => exact listed
  | clock => exact listed

theorem listed_of_run (hr : (start setup plugins).run events = some t) : t.Listed := by
  refine run_induction (P := fun _ s => s.Listed) ?_ ?_ hr
  · intro k j hm
    simp [(start_empty setup plugins).2.1] at hm
  · intro events s e s' hr' h hs
    exact (move_of_step hs).listed (distinct_of_run hr') h

end HopTrace.Trace
