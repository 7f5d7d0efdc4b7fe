import HopTrace.Proofs.Address
import HopTrace.Proofs.Route.Walk
import Mathlib.Data.List.Sort

/-!
# What the route depends on

The walk looks at an index if every index before it has a row that the
destination did not answer. The route consists of the rows that it finds there,
as they stand. So nothing else matters: no row that the walk does not look at,
and of the others only which hosts answered.
-/

namespace HopTrace.HopTable

variable {t t' : HopTable} {bound k j : UInt16} {destination destination' : Address}

/-! ## Tables by their rows -/

theorem ext_get? (h : ∀ k, t'.get? k = t.get? k) : t' = t := by
  have : Std.Irrefl (fun a b : Row => a.1 < b.1) := ⟨fun a => UInt16.lt_irrefl a.1⟩
  have : Std.Antisymm (fun a b : Row => a.1 < b.1) :=
    ⟨fun _ _ hab hba => absurd (UInt16.lt_trans hab hba) (UInt16.lt_irrefl _)⟩
  apply ext_rows
  refine t'.sorted.eq_of_mem_iff t.sorted fun r => ?_
  rw [← get?_eq_some_iff, ← get?_eq_some_iff, h]

theorem keys_eq_of_mem_iff (h : ∀ k, k ∈ t'.keys ↔ k ∈ t.keys) : t'.keys = t.keys := by
  have sorted (t : HopTable) : t.keys.Pairwise (· < ·) := List.pairwise_map.mpr t.sorted
  exact (sorted t').eq_of_mem_iff (sorted t) h

theorem mem_keys_iff_isSome : k ∈ t.keys ↔ (t.get? k).isSome = true := by
  rw [mem_keys_iff, Option.isSome_iff_exists]

/-- Rows that show the same hosts are answered by the destination alike. -/
theorem reached_iff_of_alike {hops hops' : List Hop} (h : List.Forall₂ Hop.Alike hops hops')
    (hd : destination.Alias destination') :
    Reached destination hops ↔ Reached destination' hops' := by
  rw [← any_reached_iff, ← any_reached_iff]
  induction h with
  | nil => rfl
  | cons hx _ ih => simp only [List.any_cons, hx.reached hd, Bool.or_eq_true, ih]

/-! ## Where the walk looks -/

/-- Whether the walk looks for a row with an index. -/
def Visits (t : HopTable) (bound : UInt16) (destination : Address) (k : UInt16) : Prop :=
  1 ≤ k ∧ k < bound ∧
    ∀ j, 1 ≤ j → j < k → ∃ hops, t.get? j = some hops ∧ ¬ Reached destination hops

theorem Visits.before (h : t.Visits bound destination k) (first : 1 ≤ j) (lt : j < k) :
    t.Visits bound destination j :=
  ⟨first, UInt16.lt_trans lt h.2.1, fun i hi hlt => h.2.2 i hi (UInt16.lt_trans hlt lt)⟩

/-- The route has the rows that the walk finds. -/
theorem get?_reduce_iff {hops : List Hop} :
    (t.reduce bound destination).get? k = some hops ↔
      t.get? k = some hops ∧ t.Visits bound destination k :=
  get?_reduce_eq_some_iff

theorem mem_keys_reduce_iff : k ∈ (t.reduce bound destination).keys ↔
    k ∈ t.keys ∧ t.Visits bound destination k := by
  simp only [mem_keys_iff, get?_reduce_iff, exists_and_right]

theorem get?_of_mem_reduce (h : k ∈ (t.reduce bound destination).keys) :
    (t.reduce bound destination).get? k = t.get? k := by
  obtain ⟨hops, hrow⟩ := mem_keys_iff.mp h
  rw [hrow, (get?_reduce_iff.mp hrow).1]

/-- Rows that show the same hosts, wherever the walk looks. -/
def SameHosts (t t' : HopTable) (bound : UInt16) (destination : Address) : Prop :=
  ∀ k, t.Visits bound destination k →
    Option.Rel (List.Forall₂ Hop.Alike) (t.get? k) (t'.get? k)

theorem SameHosts.of_eq (h : ∀ k, t.Visits bound destination k → t'.get? k = t.get? k) :
    t.SameHosts t' bound destination := by
  intro k hk
  rw [h k hk]
  cases t.get? k with
  | none => exact .none
  | some hops => exact .some (List.forall₂_same.mpr fun x _ => x.alike_refl)

theorem SameHosts.mem_keys_iff (h : t.SameHosts t' bound destination)
    (hk : t.Visits bound destination k) : k ∈ t'.keys ↔ k ∈ t.keys := by
  rw [mem_keys_iff_isSome, mem_keys_iff_isSome]
  have hrow := h k hk
  generalize t.get? k = row, t'.get? k = row' at hrow ⊢
  cases hrow <;> rfl

/-- Where a row is passed by in one table it is in the other. -/
theorem SameHosts.passed_iff (h : t.SameHosts t' bound destination)
    (hd : destination.Alias destination') (hk : t.Visits bound destination k) :
    (∃ hops, t'.get? k = some hops ∧ ¬ Reached destination' hops) ↔
      ∃ hops, t.get? k = some hops ∧ ¬ Reached destination hops := by
  have hrow := h k hk
  generalize t.get? k = row, t'.get? k = row' at hrow ⊢
  cases hrow with
  | none => simp
  | some hall => simp [reached_iff_of_alike hall hd]

/-- The walk looks at the same indices as long as it finds rows that show the same hosts. -/
theorem SameHosts.visits_iff (h : t.SameHosts t' bound destination)
    (hd : destination.Alias destination') (k : UInt16) :
    t'.Visits bound destination' k ↔ t.Visits bound destination k := by
  refine ⟨fun hk => ?_, fun hk => ⟨hk.1, hk.2.1, fun j first lt =>
    (h.passed_iff hd (hk.before first lt)).mpr (hk.2.2 j first lt)⟩⟩
  -- In the other table the walk has come this far only by rows that it passes by here too.
  induction hn : k.toNat using Nat.strong_induction_on generalizing k with
  | _ n ih =>
    refine ⟨hk.1, hk.2.1, fun j first lt => ?_⟩
    have hlt : j.toNat < n := hn ▸ UInt16.lt_iff_toNat_lt.mp lt
    exact (h.passed_iff hd (ih _ hlt j (hk.before first lt) rfl)).mp (hk.2.2 j first lt)

theorem SameHosts.keys_reduce (h : t.SameHosts t' bound destination)
    (hd : destination.Alias destination') :
    (t'.reduce bound destination').keys = (t.reduce bound destination).keys := by
  refine keys_eq_of_mem_iff fun k => ?_
  rw [mem_keys_reduce_iff, mem_keys_reduce_iff, h.visits_iff hd]
  exact and_congr_left fun hk => h.mem_keys_iff hk

/-- Rows that the walk does not look at do not matter. -/
theorem reduce_eq_of_visits (h : ∀ k, t.Visits bound destination k → t'.get? k = t.get? k) :
    t'.reduce bound destination = t.reduce bound destination := by
  have same := SameHosts.of_eq h
  refine ext_get? fun k => Option.ext fun hops => ?_
  rw [get?_reduce_iff, get?_reduce_iff, same.visits_iff (.same destination)]
  exact and_congr_left fun hk => by rw [h k hk]

/-- The walk looks at an index exactly if it is within the bound and every index before it has a
row without an answer of the destination. -/
theorem visits_iff : t.Visits bound destination k ↔ 1 ≤ k ∧ k < bound ∧
    (∀ j, 1 ≤ j → j < k → j ∈ t.keys) ∧
      ∀ j, 1 ≤ j → j < k → ∀ h ∈ t.hops j, h.success = true →
        ∀ a, h.address = some a → ¬ a.Alias destination := by
  have passed (j : UInt16) : (∃ hops, t.get? j = some hops ∧ ¬ Reached destination hops) ↔
      j ∈ t.keys ∧ ∀ h ∈ t.hops j, h.success = true →
        ∀ a, h.address = some a → ¬ a.Alias destination := by
    rw [mem_keys_iff_isSome]
    cases hj : t.get? j with
    | none => simp
    | some hops =>
      simp [HopTable.hops, hj, Reached, Hop.reached_iff, Hop.From, Address.canonical_eq_iff]
  unfold Visits
  simp only [passed, forall_and]

/-- The route has exactly the indices within the bound up to which no row is missing and before
which the destination did not answer, each with its row as it stands. It does not depend on any row
that the walk does not look at, and its indices depend only on who answered, in whatever form the
addresses are written: not on times, nor on the addresses of probes that failed. -/
theorem route_exact (t : HopTable) (bound : UInt16) (destination : Address) :
    (∀ k, k ∈ (t.reduce bound destination).keys ↔ 1 ≤ k ∧ k < bound ∧
      (∀ j, 1 ≤ j → j ≤ k → j ∈ t.keys) ∧
        ∀ j, 1 ≤ j → j < k → ∀ h ∈ t.hops j, h.success = true →
          ∀ a, h.address = some a → ¬ a.Alias destination) ∧
    (∀ k ∈ (t.reduce bound destination).keys,
      (t.reduce bound destination).get? k = t.get? k) ∧
    (∀ t' : HopTable, (∀ k, t.Visits bound destination k → t'.get? k = t.get? k) →
      t'.reduce bound destination = t.reduce bound destination) ∧
    (∀ (t' : HopTable) (destination' : Address), t.SameHosts t' bound destination →
      destination.Alias destination' →
        (t'.reduce bound destination').keys = (t.reduce bound destination).keys) ∧
    ∀ x y : Hop, x.success = y.success →
      (x.success = true → Option.Rel Address.Alias x.address y.address) → x.Alike y := by
  refine ⟨fun k => ?_, fun k => get?_of_mem_reduce, fun t' => reduce_eq_of_visits,
    fun t' destination' same hd => same.keys_reduce hd, fun x y => Hop.alike_of_success⟩
  rw [mem_keys_reduce_iff, visits_iff]
  constructor
  · rintro ⟨hk, first, within, rows, unanswered⟩
    refine ⟨first, within, fun j hj hle => ?_, unanswered⟩
    by_cases he : j = k
    · exact he ▸ hk
    · exact rows j hj (UInt16.lt_of_le_of_ne hle he)
  · rintro ⟨first, within, rows, unanswered⟩
    exact ⟨rows k first (UInt16.le_refl _), first, within,
      fun j hj hlt => rows j hj (UInt16.le_of_lt hlt), unanswered⟩

def crossing : HopTable where
  rows := [(0, []), (1, [.timeout 1]),
    (2, [.timeout 2, .reply 2 (.v6 (Octets.mapped ⟨192, 0, 2, 1⟩)) ⟨5⟩]),
    (3, [.reply 3 (.v4 ⟨192, 0, 2, 1⟩) ⟨7⟩])]
  sorted := by decide

theorem route_exact_crossing :
    2 ∈ (crossing.reduce 30 (.v4 ⟨192, 0, 2, 1⟩)).keys ∧
    3 ∉ (crossing.reduce 30 (.v4 ⟨192, 0, 2, 1⟩)).keys ∧
    (crossing.set 3 []).reduce 30 (.v4 ⟨192, 0, 2, 1⟩) =
      crossing.reduce 30 (.v4 ⟨192, 0, 2, 1⟩) ∧
    (crossing.reduce 30 (.v6 (Octets.mapped ⟨192, 0, 2, 1⟩))).keys =
      (crossing.reduce 30 (.v4 ⟨192, 0, 2, 1⟩)).keys := by
  obtain ⟨mem, -, unseen, forms, -⟩ := route_exact crossing 30 (.v4 ⟨192, 0, 2, 1⟩)
  refine ⟨by decide, ?_, unseen _ fun k hk => ?_,
    forms _ _ (SameHosts.of_eq fun _ _ => rfl) (.unmapped _)⟩
  · intro h3
    obtain ⟨-, -, -, unanswered⟩ := (mem 3).mp h3
    exact unanswered 2 (by decide) (by decide) _ (List.mem_cons_of_mem _ List.mem_cons_self) rfl
      _ rfl (.mapped _)
  · -- The walk ends at the second row, so it does not look at the third.
    rw [get?_set, if_neg]
    rintro rfl
    obtain ⟨hops, hrow, unanswered⟩ := hk.2.2 2 (by decide) (by decide)
    obtain rfl := Option.some.inj hrow
    exact unanswered ⟨_, List.mem_cons_of_mem _ List.mem_cons_self, by decide⟩

end HopTrace.HopTable
