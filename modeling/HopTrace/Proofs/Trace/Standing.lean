import HopTrace.Proofs.Replacement
import HopTrace.Proofs.Trace.Move

/-!
# Where the probes stand

The standing of a probe is its key and its phase; its slot is left aside. A
move of a probe changes its own standing, the spawn of a probe adds one, and
nothing else changes any.
-/

namespace HopTrace

def Probe.Phase.isLive : Probe.Phase → Bool
  | .ended _ => false
  | _ => true

/-- Whether a probe in this phase holds its admission, which it gives back before its unit. -/
def Probe.Phase.isAdmitted : Probe.Phase → Bool
  | .released _ => false
  | .ended _ => false
  | _ => true

theorem Probe.Phase.isLive_of_isAdmitted {q : Phase} (h : q.isAdmitted = true) :
    q.isLive = true := by
  cases q with
  | ended => cases h
  | _ => rfl

def Probe.Phase.outcome? : Probe.Phase → Option Probe.Outcome
  | .settled o _ _ => some o
  | .released o => some o
  | .ended o => some o
  | _ => none

def Probe.Outcome.hop? : Probe.Outcome → Option Hop
  | .recorded h => some h
  | _ => none

theorem Probe.Outcome.hop?_eq_some_iff {o : Outcome} {h : Hop} :
    o.hop? = some h ↔ o = .recorded h := by
  cases o <;> simp [hop?]

def Probe.Phase.hop? : Probe.Phase → Option Hop
  | .recording h => some h
  | q => q.outcome?.bind Probe.Outcome.hop?

/-- What a probe in this phase has recorded for good: the hop is in the table, and its arrival has
been signalled if it is one. -/
def Probe.Phase.noted? : Probe.Phase → Option Hop
  | .settled _ true _ => none
  | q => q.outcome?.bind Probe.Outcome.hop?

theorem Probe.isLive_eq (p : Probe) : p.isLive = p.phase.isLive := by
  obtain ⟨key, phase, slot⟩ := p
  cases phase <;> rfl

theorem Probe.Phase.outcome_of_noted {q : Phase} {h : Hop} (noted : q.noted? = some h) :
    q.outcome? = some (.recorded h) := by
  cases q with
  | settled o arrived =>
    cases arrived with
    | true => cases noted
    | false => exact congrArg some (Outcome.hop?_eq_some_iff.mp noted)
  | released o | ended o => exact congrArg some (Outcome.hop?_eq_some_iff.mp noted)
  | _ => cases noted

theorem Probe.exists_outcome {p : Probe} (h : p.isLive = false) : ∃ o, p.phase = .ended o := by
  rw [Probe.isLive_eq] at h
  cases hp : p.phase with
  | ended o => exact ⟨o, rfl⟩
  | _ => simp [hp, Phase.isLive] at h

def Probe.standing (p : Probe) : ProbeKey × Probe.Phase := (p.key, p.phase)

@[simp] theorem Probe.standing_answer (p : Probe) (sender : Address) :
    (p.answer sender).standing = p.standing := by
  unfold answer
  split <;> rfl

@[simp] theorem Probe.key_answer (p : Probe) (sender : Address) : (p.answer sender).key = p.key :=
  congrArg Prod.fst (p.standing_answer sender)

@[simp] theorem Probe.phase_answer (p : Probe) (sender : Address) :
    (p.answer sender).phase = p.phase :=
  congrArg Prod.snd (p.standing_answer sender)

@[simp] theorem Probe.standing_abandon (p : Probe) : p.abandon.standing = p.standing := by
  unfold abandon
  split <;> rfl

def TraceEvent.probe? : TraceEvent → Option Nat
  | .probe i => some i
  | .sendEnds i _ => some i
  | _ => none

namespace Trace

variable {t t' : Trace} {e : TraceEvent} {i : Nat} {p : Probe} {q : Probe.Phase}

def standings (t : Trace) : Array (ProbeKey × Probe.Phase) := t.probes.map Probe.standing

def keys (t : Trace) : Array ProbeKey := t.standings.map (·.1)

@[simp] theorem size_standings (t : Trace) : t.standings.size = t.probes.size := by
  simp [standings]

@[simp] theorem size_keys (t : Trace) : t.keys.size = t.probes.size := by simp [keys]

theorem getElem?_standings (found : t.probes[i]? = some p) :
    t.standings[i]? = some (p.key, p.phase) := by
  simp [standings, found, Probe.standing]

theorem getElem?_standings_iff {key : ProbeKey} : t.standings[i]? = some (key, q) ↔
    ∃ p : Probe, t.probes[i]? = some p ∧ p.key = key ∧ p.phase = q := by
  simp [standings, Probe.standing]

theorem getElem?_keys (found : t.probes[i]? = some p) : t.keys[i]? = some p.key := by
  simp [keys, getElem?_standings found]

theorem map_probesAt (t : Trace) (key : ProbeKey) {change : Probe → Probe}
    (blind : ∀ p, (change p).standing = p.standing) :
    (t.probesAt key change).map Probe.standing = t.standings := by
  unfold probesAt standings
  cases t.pending? key with
  | none => rfl
  | some j =>
    apply Array.ext_getElem?
    intro k
    rw [Array.getElem?_map, Array.getElem?_map, Array.getElem?_modify]
    by_cases hk : j = k
    · cases t.probes[k]? <;> simp [hk, blind]
    · simp [hk]

theorem ProbeMove.standings (move : ProbeMove t i p e q t') :
    t'.standings = t.standings.setIfInBounds i (p.key, q) := by
  cases move with
  | register phase =>
    unfold Trace.standings
    rw [Array.map_setIfInBounds, map_probesAt t p.key Probe.standing_abandon]
    rfl
  | _ => exact Array.map_setIfInBounds

theorem standings_deliver (t : Trace) (key : ProbeKey) (sender : Address) :
    (t.probesAt key (·.answer sender)).map Probe.standing = t.standings :=
  map_probesAt t key fun p => p.standing_answer sender

theorem ProbeMove.keys (found : t.probes[i]? = some p) (move : ProbeMove t i p e q t') :
    t'.keys = t.keys := by
  unfold Trace.keys
  rw [move.standings, Array.map_setIfInBounds]
  apply Array.ext_getElem?
  intro k
  rw [Array.getElem?_setIfInBounds]
  split_ifs with hk hlt
  · exact hk ▸ (getElem?_keys found).symm
  · exact absurd (Array.getElem?_eq_some_iff.mp (getElem?_keys found)).choose hlt
  · rfl

theorem ProbeMove.standing_self (found : t.probes[i]? = some p)
    (move : ProbeMove t i p e q t') : t'.standings[i]? = some (p.key, q) := by
  have hi := (Array.getElem?_eq_some_iff.mp (getElem?_standings found)).choose
  rw [move.standings, Array.getElem?_setIfInBounds_self_of_lt hi]

def count (t : Trace) (f : ProbeKey × Probe.Phase → Bool) : Nat := t.standings.countP f

theorem ProbeMove.count (found : t.probes[i]? = some p) (move : ProbeMove t i p e q t')
    (f : ProbeKey × Probe.Phase → Bool) :
    t'.count f + (f (p.key, p.phase)).toNat = t.count f + (f (p.key, q)).toNat := by
  unfold Trace.count
  rw [move.standings]
  exact countP_setIfInBounds f (getElem?_standings found) (p.key, q)

/-- What each move of a probe keeps, and a probe just spawned has, holds of every probe. -/
theorem Move.forall_standing {P : ProbeKey × Probe.Phase → Prop} (move : Move t e t')
    (spawned : ∀ key, P (key, .spawned))
    (kept : ∀ i p q, t.probes[i]? = some p → ProbeMove t i p e q t' → P (p.key, p.phase) →
      P (p.key, q))
    (h : ∀ s ∈ t.standings, P s) : ∀ s ∈ t'.standings, P s := by
  intro s hs
  cases move with
  | main move =>
    cases move with
    | spawn =>
      unfold Trace.standings at hs
      rw [Array.map_push, Array.mem_push] at hs
      rcases hs with hs | rfl
      · exact h s hs
      · exact spawned _
    | _ => exact h s hs
  | @probe i p e q _ found move =>
    rw [move.standings] at hs
    rcases Array.mem_or_eq_of_mem_setIfInBounds hs with hs | rfl
    · exact h s hs
    · exact kept i p q found move (h _ (Array.mem_of_getElem? (getElem?_standings found)))
  | dispatch move =>
    cases move with
    | deliver =>
      unfold Trace.standings at hs
      rw [standings_deliver] at hs
      exact h s hs
    | _ => exact h s hs
  | loop => exact h s hs
  | clock => exact h s hs

theorem ProbeMove.probe? (move : ProbeMove t i p e q t') : e.probe? = some i := by
  cases move <;> rfl

/-- A probe stays where it is, or makes a move. -/
theorem Move.standing (move : Move t e t') (found : t.probes[i]? = some p) :
    (e.probe? ≠ some i ∧ t'.standings[i]? = some (p.key, p.phase)) ∨
      ∃ q, ProbeMove t i p e q t' ∧ t'.standings[i]? = some (p.key, q) := by
  have hstand := getElem?_standings found
  have hi : i < t.standings.size := (Array.getElem?_eq_some_iff.mp hstand).choose
  cases move with
  | main move =>
    refine .inl ⟨nofun, ?_⟩
    cases move with
    | spawn =>
      unfold Trace.standings
      rw [Array.map_push]
      exact (Array.getElem?_push_lt hi).trans (Array.getElem?_eq_getElem hi ▸ hstand)
    | _ => exact hstand
  | @probe j o _ q _ found' move =>
    by_cases hij : j = i
    · subst hij
      obtain rfl := Option.some.inj (found.symm.trans found')
      exact .inr ⟨q, move, move.standing_self found⟩
    · refine .inl ⟨by simpa [move.probe?] using hij, ?_⟩
      rw [move.standings, Array.getElem?_setIfInBounds_ne hij]
      exact hstand
  | dispatch move =>
    refine .inl ⟨nofun, ?_⟩
    cases move with
    | deliver =>
      unfold Trace.standings
      rw [standings_deliver]
      exact hstand
    | _ => exact hstand
  | loop move => exact .inl ⟨by cases move <;> exact nofun, hstand⟩
  | clock => exact .inl ⟨nofun, hstand⟩

/-- A number without a probe may get one that has just been spawned. -/
theorem Move.standing_of_none (move : Move t e t') (none : t.probes[i]? = none) :
    e.probe? ≠ some i ∧
      (t'.standings[i]? = .none ∨ ∃ key, t'.standings[i]? = some (key, .spawned)) := by
  have hstand : t.standings[i]? = .none := by simp [standings, none]
  cases move with
  | main move =>
    refine ⟨nofun, ?_⟩
    cases move with
    | spawn =>
      unfold Trace.standings
      rw [Array.map_push, Array.getElem?_push]
      split_ifs
      · exact .inr ⟨_, rfl⟩
      · exact .inl hstand
    | _ => exact .inl hstand
  | @probe j p _ _ _ found move =>
    have hij : j ≠ i := by
      rintro rfl
      simp [none] at found
    refine ⟨by simpa [move.probe?] using hij, .inl ?_⟩
    rw [move.standings, Array.getElem?_setIfInBounds_ne hij]
    exact hstand
  | dispatch move =>
    refine ⟨nofun, .inl ?_⟩
    cases move with
    | deliver =>
      unfold Trace.standings
      rw [standings_deliver]
      exact hstand
    | _ => exact hstand
  | loop move => exact ⟨by cases move <;> exact nofun, .inl hstand⟩
  | clock => exact ⟨nofun, .inl hstand⟩

/-- Where a probe stands it stood before, unless it has made a move or has just been spawned. -/
theorem Move.standing_cases {key : ProbeKey} (move : Move t e t')
    (h : t'.standings[i]? = some (key, q)) :
    t.standings[i]? = some (key, q) ∨ q = .spawned ∨
      ∃ p, t.probes[i]? = some p ∧ p.key = key ∧ ProbeMove t i p e q t' := by
  cases found : t.probes[i]? with
  | none =>
    rcases (move.standing_of_none found).2 with hnone | ⟨key', hspawned⟩
    · simp [hnone] at h
    · obtain ⟨-, rfl⟩ := Prod.mk.inj (Option.some.inj (h.symm.trans hspawned))
      exact .inr (.inl rfl)
  | some p =>
    rcases move.standing found with ⟨-, hsame⟩ | ⟨q', hmove, hnew⟩
    · obtain ⟨rfl, rfl⟩ := Prod.mk.inj (Option.some.inj (hsame.symm.trans h))
      exact .inl (getElem?_standings found)
    · obtain ⟨rfl, rfl⟩ := Prod.mk.inj (Option.some.inj (hnew.symm.trans h))
      exact .inr (.inr ⟨p, rfl, rfl, hmove⟩)

/-! ## What phases show -/

section

variable {α : Type} {f : Probe.Phase → List α} {see : Trace → TraceEvent → Option α}

def shown (f : Probe.Phase → List α) (t : Trace) (i : Nat) : List α :=
  (t.standings[i]?.map fun s => f s.2).getD []

theorem shown_of_getElem? {key : ProbeKey} (h : t.standings[i]? = some (key, q)) :
    t.shown f i = f q := by
  rw [shown, h]
  rfl

theorem Move.shown (spawned : f .spawned = []) (aside : e.probe? ≠ some i → see t e = none)
    (kept : ∀ p q, t.probes[i]? = some p → ProbeMove t i p e q t' →
      f q = f p.phase ++ (see t e).toList) (move : Move t e t') :
    t'.shown f i = t.shown f i ++ (see t e).toList := by
  cases hp : t.probes[i]? with
  | none =>
    obtain ⟨hne, hnew⟩ := move.standing_of_none hp
    have hstand : t.shown f i = [] := by simp [Trace.shown, standings, hp]
    rw [aside hne, hstand]
    rcases hnew with hnone | ⟨key, hkey⟩
    · rw [Trace.shown, hnone]
      rfl
    · rw [shown_of_getElem? hkey, spawned]
      rfl
  | some p =>
    rw [shown_of_getElem? (getElem?_standings hp)]
    rcases move.standing hp with ⟨hne, hsame⟩ | ⟨q, hmove, hnew⟩
    · rw [shown_of_getElem? hsame, aside hne]
      simp
    · rw [shown_of_getElem? hnew]
      exact kept p q hp hmove

/-- The phase of a probe shows what the events of a run have shown, if each of its moves adds to
it what the event shows. -/
theorem observe_eq_shown {events : List TraceEvent} (none : t.probes = #[])
    (spawned : f .spawned = []) (aside : ∀ s e, e.probe? ≠ some i → see s e = .none)
    (kept : ∀ s p e q s', s.probes[i]? = some p → ProbeMove s i p e q s' →
      f q = f p.phase ++ (see s e).toList) (hr : t.run events = some t') :
    t.observe see events = t'.shown f i := by
  refine run_induction (P := fun events s => t.observe see events = s.shown f i) ?_ ?_ hr
  · simp [Trace.shown, standings, none]
  · intro events s e s' hr' ih hs
    rw [observe_concat _ hr' hs, ih]
    exact ((move_of_step hs).shown spawned (aside s e) fun p q => kept s p e q s').symm

end

end Trace

end HopTrace
