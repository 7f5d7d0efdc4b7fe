import HopTrace.Proofs.Replacement
import HopTrace.Proofs.Gate.Move
import Mathlib.Data.List.Infix

/-!
# The accounts of a gate

Every unit handed out has been granted and not been given back. If nobody gives
back more than has been observed, the units handed out are those that somebody
holds: grants not yet observed, and observed ones not yet given back.
-/

namespace HopTrace.Gate

open GateCall

variable {g g' : Gate} {c : GateCall} {ready : Bool} {events : List GateEvent} {r : Nat}
  {s s' : Standing} {calls : List GateCall}

def isGrant : GateEvent → Bool
  | .granted _ => true
  | _ => false

def isReturn : GateEvent → Bool
  | .returned _ => true
  | _ => false

def grants (events : List GateEvent) : Nat := events.countP isGrant

/-- How often a grant that nobody had observed was dropped. -/
def returns (events : List GateEvent) : Nat := events.countP isReturn

def warnings (events : List GateEvent) : Nat :=
  (events.filterMap (·.log?)).countP (·.level = .warn)

def givenBack (calls : List GateCall) (events : List GateEvent) : Nat :=
  calls.count .finished + returns events

/-- How many grants nobody has observed yet, of those whose handles are still there. -/
def unobserved (g : Gate) : Nat := g.requests.countP (· = .granted)

def observed (g : Gate) : Nat := g.requests.countP (· = .observed)

@[simp] theorem grants_append (e e' : List GateEvent) : grants (e ++ e') = grants e + grants e' :=
  List.countP_append

@[simp] theorem returns_append (e e' : List GateEvent) :
    returns (e ++ e') = returns e + returns e' :=
  List.countP_append

@[simp] theorem warnings_append (e e' : List GateEvent) :
    warnings (e ++ e') = warnings e + warnings e' := by
  simp [warnings]

theorem unobserved_put (found : g.requests[r]? = some s') (s : Standing) :
    (g.put r s).unobserved + (decide (s' = .granted)).toNat =
      g.unobserved + (decide (s = .granted)).toNat :=
  countP_setIfInBounds _ found s

theorem observed_put (found : g.requests[r]? = some s') (s : Standing) :
    (g.put r s).observed + (decide (s' = .observed)).toNat =
      g.observed + (decide (s = .observed)).toNat :=
  countP_setIfInBounds _ found s

theorem unobserved_push (h : g'.requests = g.requests.push s) :
    g'.unobserved = g.unobserved + (decide (s = .granted)).toNat := by
  rw [unobserved, h, Array.countP_push]
  cases s <;> rfl

theorem observed_push (h : g'.requests = g.requests.push s) :
    g'.observed = g.observed + (decide (s = .observed)).toNat := by
  rw [observed, h, Array.countP_push]
  cases s <;> rfl

theorem counts_skipped (l : List Nat) : grants (l.map .skipped) = 0 ∧
    returns (l.map .skipped) = 0 ∧ warnings (l.map .skipped) = 0 := by
  induction l with
  | nil => exact ⟨rfl, rfl, rfl⟩
  | cons d l ih => exact ih

/-- What a unit given back does to the counts: it is granted again, or freed, or complained
about. -/
theorem Release.counts {line : List Nat} (release : g.Release line g' events) :
    g'.admitted + 1 = g.admitted + grants events + warnings events ∧ returns events = 0 ∧
      g'.unobserved = g.unobserved + grants events ∧ g'.observed = g.observed ∧
      (warnings events ≠ 0 → g.admitted = 0) := by
  cases release with
  | @handOver gone r parked rest passed waits =>
    obtain ⟨hg, hr, hw⟩ := counts_skipped gone
    have hu : (g.put r .granted).unobserved + 0 = g.unobserved + 1 := unobserved_put waits _
    have ho : (g.put r .granted).observed + 0 = g.observed + 0 := observed_put waits _
    have he : grants (.granted r :: if parked then [.woken r] else []) = 1 ∧
        returns (.granted r :: if parked then [.woken r] else []) = 0 ∧
        warnings (.granted r :: if parked then [.woken r] else []) = 0 := by
      cases parked <;> exact ⟨rfl, rfl, rfl⟩
    rw [grants_append, returns_append, warnings_append, hg, hr, hw, he.1, he.2.1, he.2.2]
    exact ⟨rfl, rfl, hu, ho, fun hne => absurd rfl hne⟩
  | free passed held =>
    obtain ⟨hg, hr, hw⟩ := counts_skipped line
    rw [hg, hr, hw]
    exact ⟨Nat.sub_add_cancel held, rfl, rfl, rfl, fun hne => absurd rfl hne⟩
  | @complain gone passed idle =>
    obtain ⟨hg, hr, hw⟩ := counts_skipped line
    rw [grants_append, returns_append, warnings_append, hg, hr, hw]
    exact ⟨rfl, rfl, rfl, rfl, fun _ => idle⟩

theorem Release.grants_le_one {line : List Nat} (release : g.Release line g' events) :
    grants events ≤ 1 := by
  cases release with
  | @handOver gone r parked rest passed waits =>
    rw [grants_append, (counts_skipped gone).1]
    cases parked <;> exact Nat.le_refl 1
  | free =>
    rw [(counts_skipped line).1]
    exact Nat.zero_le 1
  | complain =>
    rw [grants_append, (counts_skipped line).1]
    exact Nat.zero_le 1

theorem Move.grants_le_one (move : g.Move c g' ready events) : grants events ≤ 1 := by
  cases move with
  | enter => exact Nat.le_refl 1
  | giveBack standing release => exact release.grants_le_one
  | finish release => exact release.grants_le_one
  | queue | observe | again | park | ignore | leave | keep => exact Nat.zero_le 1

/-- What a call does to the counts. -/
theorem Move.counts (move : g.Move c g' ready events) :
    g'.admitted + [c].count .finished + returns events =
        g.admitted + grants events + warnings events ∧
      g'.unobserved + g'.observed + returns events =
        g.unobserved + g.observed + grants events := by
  cases move with
  | enter room =>
    refine ⟨rfl, ?_⟩
    rw [unobserved_push (g := g) rfl, observed_push (g := g) rfl]
    show _ + 1 + (_ + 0) + 0 = _ + _ + 1
    omega
  | queue full =>
    refine ⟨rfl, ?_⟩
    rw [unobserved_push (g := g) rfl, observed_push (g := g) rfl]
    rfl
  | observe standing =>
    have hu : (g.put _ .observed).unobserved + 1 = g.unobserved + 0 := unobserved_put standing _
    have ho : (g.put _ .observed).observed + 0 = g.observed + 1 := observed_put standing _
    exact ⟨rfl, show _ + _ + 0 = _ + _ + 0 by omega⟩
  | park standing =>
    have hu : (g.put _ (.queued true)).unobserved + 0 = g.unobserved + 0 :=
      unobserved_put standing _
    have ho : (g.put _ (.queued true)).observed + 0 = g.observed + 0 := observed_put standing _
    exact ⟨rfl, show _ + _ + 0 = _ + _ + 0 by omega⟩
  | leave standing =>
    have hu : (g.put _ .withdrawn).unobserved + 0 = g.unobserved + 0 := unobserved_put standing _
    have ho : (g.put _ .withdrawn).observed + 0 = g.observed + 0 := observed_put standing _
    exact ⟨rfl, show _ + _ + 0 = _ + _ + 0 by omega⟩
  | @giveBack r g' events standing release =>
    have hu : (g.put r .withdrawn).unobserved + 1 = g.unobserved + 0 := unobserved_put standing _
    have ho : (g.put r .withdrawn).observed + 0 = g.observed + 0 := observed_put standing _
    have ha : (g.put r .withdrawn).admitted = g.admitted := rfl
    have hg : grants (.returned r :: events) = grants events := rfl
    have hr : returns (.returned r :: events) = returns events + 1 := List.countP_cons_of_pos rfl
    have hw : warnings (.returned r :: events) = warnings events := rfl
    have hf : [GateCall.drop r].count .finished = 0 := rfl
    obtain ⟨hunits, hnone, hmore, hsame, -⟩ := release.counts
    omega
  | finish release =>
    have hf : [GateCall.finished].count .finished = 1 := rfl
    obtain ⟨hunits, hnone, hmore, hsame, -⟩ := release.counts
    omega
  | again | ignore | keep => exact ⟨rfl, rfl⟩

/-- The gate complains only if no unit is in use when one is given back. -/
theorem Move.warnings (move : g.Move c g' ready events) (warned : warnings events ≠ 0) :
    g.admitted = 0 ∧ (c = .finished ∧ g'.observed = g.observed ∨ 0 < g.unobserved) := by
  cases move with
  | @giveBack r g' events standing release =>
    have hu : (g.put r .withdrawn).unobserved + 1 = g.unobserved + 0 := unobserved_put standing _
    exact ⟨release.counts.2.2.2.2 warned, .inr (by omega)⟩
  | finish release =>
    obtain ⟨-, -, -, hsame, hidle⟩ := release.counts
    exact ⟨hidle warned, .inl ⟨rfl, hsame⟩⟩
  | enter | queue | observe | again | park | ignore | leave | keep => exact absurd rfl warned

theorem Move.room (h : g.admitted ≤ g.capacity) (move : g.Move c g' ready events) :
    g'.admitted ≤ g'.capacity ∧ g'.capacity = g.capacity := by
  have released {f f' : Gate} {line : List Nat} {events : List GateEvent}
      (hf : f.admitted ≤ f.capacity) (release : f.Release line f' events) :
      f'.admitted ≤ f'.capacity ∧ f'.capacity = f.capacity := by
    cases release with
    | handOver => exact ⟨hf, rfl⟩
    | free => exact ⟨Nat.le_trans (Nat.sub_le ..) hf, rfl⟩
    | complain => exact ⟨hf, rfl⟩
  cases move with
  | enter room => exact ⟨room, rfl⟩
  | giveBack standing release => exact released (f := g.put _ .withdrawn) h release
  | finish release => exact released h release
  | queue | observe | again | park | ignore | leave | keep => exact ⟨h, rfl⟩

structure Squared (calls : List GateCall) (events : List GateEvent) (g : Gate) : Prop where
  units : g.admitted + givenBack calls events = grants events + warnings events
  fates : grants events = g.unobserved + g.observed + returns events

theorem squared_of_run (capacity : Nat) (calls : List GateCall) :
    Squared calls (happened (serve.history (opened capacity) calls))
      (serve.after (opened capacity) calls) := by
  refine serve.run_induction (P := fun calls h g => Squared calls (happened h) g) ⟨rfl, rfl⟩
    (fun calls h g c hs => ?_) calls
  obtain ⟨hunits, hfates⟩ := hs
  obtain ⟨hunits', hfates'⟩ := (move_serve g c).counts
  unfold givenBack at hunits
  constructor
  · rw [givenBack, happened_append, happened_singleton, grants_append, returns_append,
      warnings_append, List.count_append]
    dsimp only [Service.entry]
    omega
  · rw [happened_append, happened_singleton, grants_append, returns_append]
    dsimp only [Service.entry]
    omega

theorem room_of_run (capacity : Nat) (calls : List GateCall) :
    (serve.after (opened capacity) calls).admitted ≤ capacity ∧
      (serve.after (opened capacity) calls).capacity = capacity := by
  refine serve.run_induction (P := fun _ _ g => g.admitted ≤ capacity ∧ g.capacity = capacity)
    ⟨Nat.zero_le _, rfl⟩ (fun _ _ g c h => ?_) calls
  obtain ⟨hroom, hsame⟩ := (move_serve g c).room (h.2.symm ▸ h.1)
  rw [h.2] at hsame
  exact ⟨hsame ▸ hroom, hsame⟩

/-- The units are given back only by those who have observed their admissions. -/
def Earned (capacity : Nat) (calls : List GateCall) : Prop :=
  ∀ p, p <+: calls → p.count .finished ≤ (serve.after (opened capacity) p).observed

def holders (calls : List GateCall) (g : Gate) : Nat :=
  g.unobserved + (g.observed - calls.count .finished)

theorem warnings_of_earned {capacity : Nat} (earned : Earned capacity calls) :
    warnings (happened (serve.history (opened capacity) calls)) = 0 := by
  induction calls using List.reverseRecOn with
  | nil => rfl
  | append_singleton calls c ih =>
    have hquiet := ih fun p hp => earned p (hp.trans (List.prefix_append ..))
    obtain ⟨hunits, hfates⟩ := squared_of_run capacity calls
    have hbefore := earned calls (List.prefix_append ..)
    have hafter := earned (calls ++ [c]) List.prefix_rfl
    rw [Service.after_concat, List.count_append] at hafter
    rw [Service.history_concat, happened_append, happened_singleton, warnings_append, hquiet]
    by_contra hne
    -- A complaint needs an idle gate, but whoever gives back a unit still holds one.
    obtain ⟨hidle, ⟨rfl, hsame⟩ | hheld⟩ :=
      (move_serve (serve.after (opened capacity) calls) c).warnings
        (by simpa [Service.entry] using hne)
    · rw [hsame] at hafter
      have hone : [GateCall.finished].count .finished = 1 := rfl
      unfold givenBack at hunits
      omega
    · unfold givenBack at hunits
      omega

/-- The units handed out are the admissions granted, less the units given back, plus one for each
complaint. They never exceed the capacity, and while nobody gives back more than has been observed,
they are those that somebody holds. -/
theorem admitted_eq_accounts (capacity : Nat) (calls : List GateCall) :
    let g := serve.after (opened capacity) calls
    let events := happened (serve.history (opened capacity) calls)
    g.admitted ≤ capacity ∧
      (g.admitted : Int) = grants events - givenBack calls events + warnings events ∧
      (Earned capacity calls →
        warnings events = 0 ∧ holders calls g = g.admitted ∧ holders calls g ≤ capacity) := by
  intro g events
  obtain ⟨hunits, hfates⟩ : Squared calls events g := squared_of_run capacity calls
  have hroom : g.admitted ≤ capacity := (room_of_run capacity calls).1
  refine ⟨hroom, by omega, fun earned => ?_⟩
  have hquiet : warnings events = 0 := warnings_of_earned earned
  have hobserved : calls.count .finished ≤ g.observed := earned calls List.prefix_rfl
  have hholders : holders calls g = g.admitted := by
    unfold holders
    unfold givenBack at hunits
    omega
  exact ⟨hquiet, hholders, by omega⟩

def passing : List GateCall :=
  [.start, .poll 0, .start, .poll 1, .start, .drop 1, .finished]

theorem admitted_eq_accounts_passing : Earned 1 passing ∧
    warnings (happened (serve.history (opened 1) passing)) = 0 ∧
    holders passing (serve.after (opened 1) passing) = 1 := by
  have earned : Earned 1 passing := by
    intro p hp
    rw [← List.mem_inits] at hp
    revert p
    decide
  obtain ⟨hquiet, hholders, -⟩ := (admitted_eq_accounts 1 passing).2.2 earned
  exact ⟨earned, hquiet, hholders⟩

end HopTrace.Gate
