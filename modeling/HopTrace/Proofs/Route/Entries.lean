import HopTrace.Route.Reduction
import Mathlib.Data.List.Induction
import Mathlib.Data.List.Pairwise
import Mathlib.Tactic.ByContra

/-!
# What a hop table says about an index

A row is in a table exactly if the table has these outcomes for its index.
Outcomes entered one after the other leave, for each index, those of that index
in the order in which they were entered, and no empty row.
-/

namespace HopTrace

theorem toNat_succ {ttl bound : UInt16} (h : ttl < bound) : (ttl + 1).toNat = ttl.toNat + 1 := by
  have hb := bound.toNat_lt
  have hlt := UInt16.lt_iff_toNat_lt.mp h
  rw [UInt16.toNat_add, show (1 : UInt16).toNat = 1 from rfl]
  omega

theorem succ_le_iff {ttl bound j : UInt16} (h : ttl < bound) : ttl + 1 ≤ j ↔ ttl < j := by
  rw [UInt16.le_iff_toNat_le, UInt16.lt_iff_toNat_lt, toNat_succ h]
  exact Nat.succ_le_iff

namespace HopTable

variable {t : HopTable} {ttl k : UInt16} {hops : List Hop}

theorem ext_rows {a b : HopTable} (h : a.rows = b.rows) : a = b := by
  cases a
  cases b
  simpa using h

/-- Two rows of one index are the same row. -/
theorem row_eq {r q : Row} (hr : r ∈ t.rows) (hq : q ∈ t.rows) (h : r.1 = q.1) : r = q := by
  have hne : ∀ a b : Row, a.1 < b.1 → a.1 ≠ b.1 := fun _ _ hlt he =>
    UInt16.lt_irrefl _ (he ▸ hlt)
  by_contra hrq
  have hs : t.rows.Pairwise (fun a b => a.1 ≠ b.1) := t.sorted.imp (hne _ _)
  have : Std.Symm (fun a b : Row => a.1 ≠ b.1) := ⟨fun _ _ => Ne.symm⟩
  exact hs.forall hr hq hrq h

theorem get?_eq_some_iff : t.get? ttl = some hops ↔ (ttl, hops) ∈ t.rows := by
  unfold get?
  rw [Option.map_eq_some_iff]
  constructor
  · rintro ⟨r, hr, rfl⟩
    have hk : r.1 = ttl := by simpa using List.find?_some hr
    exact hk ▸ List.mem_of_find?_eq_some hr
  · intro hm
    cases hf : t.rows.find? (fun r => r.1 == ttl) with
    | none =>
      have := List.find?_eq_none.mp hf _ hm
      simp at this
    | some r =>
      have hk : r.1 = ttl := by simpa using List.find?_some hf
      exact ⟨r, rfl, congrArg Prod.snd (row_eq (List.mem_of_find?_eq_some hf) hm hk)⟩

theorem mem_keys_iff : ttl ∈ t.keys ↔ ∃ hops, t.get? ttl = some hops := by
  simp [keys, get?_eq_some_iff]

@[simp] theorem get?_empty (ttl : UInt16) : empty.get? ttl = none := rfl

theorem find?_place (r : Row) (rows : List Row) :
    (place r rows).find? (fun q => q.1 == k) =
      if r.1 = k then some r else rows.find? (fun q => q.1 == k) := by
  induction rows with
  | nil => by_cases hk : r.1 = k <;> simp [place, hk]
  | cons q rest ih =>
    rw [place]
    by_cases hk : r.1 = k
    · rw [if_pos hk] at ih ⊢
      split_ifs with hlt heq
      · simp [hk]
      · simp [hk]
      · have hq : q.1 ≠ k := fun he => heq (hk.trans he.symm)
        simp [hq, ih]
    · rw [if_neg hk] at ih ⊢
      split_ifs with hlt heq
      · simp [hk]
      · have hq : q.1 ≠ k := fun he => hk (heq.trans he)
        simp [hk, hq]
      · simp [List.find?_cons, ih]

theorem get?_set (t : HopTable) (ttl k : UInt16) (hops : List Hop) :
    (t.set ttl hops).get? k = if ttl = k then some hops else t.get? k := by
  unfold get? set
  rw [find?_place]
  by_cases hk : ttl = k <;> simp [hk]

theorem get?_record (t : HopTable) (h : Hop) (k : UInt16) :
    (t.record h).get? k = if h.ttl = k then some (t.hops k ++ [h]) else t.get? k := by
  unfold record
  rw [get?_set]
  by_cases hk : h.ttl = k <;> simp [hk]

theorem hops_record (t : HopTable) (h : Hop) (k : UInt16) :
    (t.record h).hops k = if h.ttl = k then t.hops k ++ [h] else t.hops k := by
  unfold hops
  rw [get?_record]
  by_cases hk : h.ttl = k <;> simp [hk, hops]

def ofHops (hops : List Hop) : HopTable := hops.foldl record empty

@[simp] theorem ofHops_nil : ofHops [] = empty := rfl

theorem ofHops_concat (hops : List Hop) (h : Hop) :
    ofHops (hops ++ [h]) = (ofHops hops).record h := by
  simp [ofHops]

theorem hops_ofHops (hops : List Hop) (ttl : UInt16) :
    (ofHops hops).hops ttl = hops.filter (·.ttl = ttl) := by
  induction hops using List.reverseRecOn with
  | nil => rfl
  | append_singleton hops h ih =>
    rw [ofHops_concat, hops_record, ih]
    by_cases hk : h.ttl = ttl <;> simp [hk]

theorem get?_ofHops (hops : List Hop) (ttl : UInt16) :
    (ofHops hops).get? ttl =
      if (∃ h ∈ hops, h.ttl = ttl) then some (hops.filter (·.ttl = ttl)) else none := by
  induction hops using List.reverseRecOn with
  | nil => simp
  | append_singleton hops h ih =>
    rw [ofHops_concat, get?_record, hops_ofHops, ih]
    by_cases hk : h.ttl = ttl
    · have hm : ∃ x ∈ hops ++ [h], x.ttl = ttl := ⟨h, by simp, hk⟩
      rw [if_pos hk, if_pos hm]
      simp [hk]
    · have hm : (∃ x ∈ hops ++ [h], x.ttl = ttl) ↔ ∃ x ∈ hops, x.ttl = ttl := by
        simp [or_and_right, exists_or, hk]
      simp only [hk, hm, if_false, List.filter_append]
      simp [hk]

theorem mem_hops_ofHops {hops : List Hop} {h : Hop} :
    h ∈ (ofHops hops).hops ttl ↔ h ∈ hops ∧ h.ttl = ttl := by
  rw [hops_ofHops]
  simp

end HopTable

end HopTrace
