import HopTrace.Proofs.Route.Entries

/-!
# Which rows belong to the route

A row of the table is in the route exactly if its index is within the bound and
each index from one up to it has a row that the destination did not answer.
-/

namespace HopTrace.HopTable

variable {destination : Address} {bound ttl k : UInt16}

def Reached (destination : Address) (hops : List Hop) : Prop := ∃ h ∈ hops, h.reached destination

theorem any_reached_iff {hops : List Hop} :
    hops.any (·.reached destination) = true ↔ Reached destination hops := by
  simp [Reached]

/-- In sorted rows only the first one has its index. -/
theorem eq_head_of_index {q x : Row} {rest : List Row} (hq : ∀ r ∈ rest, q.1 < r.1)
    (hx : x ∈ q :: rest) (he : x.1 = q.1) : x = q := by
  rcases List.mem_cons.mp hx with rfl | hx
  · rfl
  · exact absurd (he ▸ hq x hx) (UInt16.lt_irrefl _)

/-- No row of sorted rows lies before the first one. -/
theorem head_le {q x : Row} {rest : List Row} (hq : ∀ r ∈ rest, q.1 < r.1) (hx : x ∈ q :: rest) :
    q.1 ≤ x.1 := by
  rcases List.mem_cons.mp hx with rfl | hx
  · exact UInt16.le_refl _
  · exact UInt16.le_of_lt (hq x hx)

/-- The walk takes a row if every index before it, from where the walk begins, has a row that the
destination did not answer. -/
theorem mem_walk {rows : List Row} {r : Row} (hs : rows.Pairwise (fun a b => a.1 < b.1))
    (hge : ∀ q ∈ rows, ttl ≤ q.1) :
    r ∈ walk destination bound ttl rows ↔ r ∈ rows ∧ r.1 < bound ∧
      ∀ j, ttl ≤ j → j < r.1 → ∃ q ∈ rows, q.1 = j ∧ ¬ Reached destination q.2 := by
  induction rows generalizing ttl with
  | nil => simp [walk]
  | cons q rest ih =>
    obtain ⟨hq, hrest⟩ := List.pairwise_cons.mp hs
    rw [walk]
    split_ifs with hhead hreach
    · -- The walk ends after its first row.
      obtain ⟨rfl, hlt⟩ := hhead
      rw [any_reached_iff] at hreach
      constructor
      · intro hr
        obtain rfl : r = q := by simpa using hr
        exact ⟨by simp, hlt, fun j h1 h2 => absurd h2 (UInt16.not_lt.mpr h1)⟩
      · rintro ⟨hr, -, hall⟩
        rcases List.mem_cons.mp hr with rfl | hr
        · simp
        · obtain ⟨x, hx, hx1, hx2⟩ := hall q.1 (UInt16.le_refl _) (hq r hr)
          obtain rfl := eq_head_of_index hq hx hx1
          exact absurd hreach hx2
    · -- The walk goes on from the next index.
      obtain ⟨rfl, hlt⟩ := hhead
      rw [any_reached_iff] at hreach
      rw [List.mem_cons, ih hrest fun x hx => (succ_le_iff hlt).mpr (hq x hx)]
      constructor
      · rintro (rfl | ⟨hr, hb, hall⟩)
        · exact ⟨by simp, hlt, fun j h1 h2 => absurd h2 (UInt16.not_lt.mpr h1)⟩
        · refine ⟨List.mem_cons_of_mem _ hr, hb, ?_⟩
          intro j h1 h2
          by_cases hj : j = q.1
          · exact ⟨q, by simp, hj.symm, hreach⟩
          · have hj' : q.1 < j := UInt16.lt_of_le_of_ne h1 fun he => hj he.symm
            obtain ⟨x, hx, hx1, hx2⟩ := hall j ((succ_le_iff hlt).mpr hj') h2
            exact ⟨x, List.mem_cons_of_mem _ hx, hx1, hx2⟩
      · rintro ⟨hr, hb, hall⟩
        rcases List.mem_cons.mp hr with rfl | hr
        · exact .inl rfl
        · refine .inr ⟨hr, hb, ?_⟩
          intro j h1 h2
          have hj : q.1 < j := (succ_le_iff hlt).mp h1
          obtain ⟨x, hx, hx1, hx2⟩ := hall j (UInt16.le_of_lt hj) h2
          rcases List.mem_cons.mp hx with rfl | hx
          · exact absurd hj (hx1 ▸ UInt16.lt_irrefl _)
          · exact ⟨x, hx, hx1, hx2⟩
    · -- The first index has no row, or lies beyond the bound.
      simp only [List.not_mem_nil, false_iff, not_and]
      intro hr hb hall
      apply hhead
      have hfirst : q.1 ≤ r.1 := head_le hq hr
      have hqt : q.1 = ttl := by
        by_contra hne
        have hlt : ttl < q.1 :=
          UInt16.lt_of_le_of_ne (hge q (by simp)) (fun he => hne he.symm)
        obtain ⟨x, hx, hx1, -⟩ := hall ttl (UInt16.le_refl _) (UInt16.lt_of_lt_of_le hlt hfirst)
        exact UInt16.not_lt.mpr (hx1 ▸ head_le hq hx) hlt
      exact ⟨hqt, hqt ▸ UInt16.lt_of_le_of_lt hfirst hb⟩

theorem one_le_iff : 1 ≤ k ↔ k ≠ 0 := by
  rw [UInt16.le_iff_toNat_le, Ne, ← UInt16.toNat_inj, show (1 : UInt16).toNat = 1 from rfl,
    show (0 : UInt16).toNat = 0 from rfl]
  omega

/-- Of sorted rows, only the first can have index zero. -/
theorem mem_dropWhile_zero {rows : List Row} (hs : rows.Pairwise (fun a b => a.1 < b.1)) (r : Row) :
    r ∈ rows.dropWhile (·.1 == 0) ↔ r ∈ rows ∧ 1 ≤ r.1 := by
  induction rows with
  | nil => simp
  | cons q rest ih =>
    obtain ⟨hq, hrest⟩ := List.pairwise_cons.mp hs
    rw [one_le_iff] at ih ⊢
    by_cases h0 : q.1 = 0
    · rw [List.dropWhile_cons_of_pos (by simpa using h0), ih hrest, List.mem_cons]
      constructor
      · rintro ⟨hr, hne⟩
        exact ⟨.inr hr, hne⟩
      · rintro ⟨rfl | hr, hne⟩
        · exact absurd h0 hne
        · exact ⟨hr, hne⟩
    · rw [List.dropWhile_cons_of_neg (by simpa using h0)]
      constructor
      · intro hr
        refine ⟨hr, ?_⟩
        rcases List.mem_cons.mp hr with rfl | hr
        · exact h0
        · intro he
          exact UInt16.not_lt_zero (he ▸ hq r hr)
      · exact And.left

/-- The rows that the reduction keeps. -/
theorem mem_reduce (t : HopTable) (bound : UInt16) (destination : Address) (r : Row) :
    r ∈ (t.reduce bound destination).rows ↔ r ∈ t.rows ∧ 1 ≤ r.1 ∧ r.1 < bound ∧
      ∀ j, 1 ≤ j → j < r.1 → ∃ q ∈ t.rows, q.1 = j ∧ ¬ Reached destination q.2 := by
  have hmem := mem_dropWhile_zero t.sorted
  change r ∈ walk destination bound 1 (t.rows.dropWhile (·.1 == 0)) ↔ _
  rw [mem_walk (t.sorted.sublist (List.dropWhile_sublist _)) (fun q hq => ((hmem q).mp hq).2),
    hmem, and_assoc]
  constructor
  · rintro ⟨hr, h1, hb, hall⟩
    refine ⟨hr, h1, hb, fun j hj hlt => ?_⟩
    obtain ⟨q, hq, hk⟩ := hall j hj hlt
    exact ⟨q, ((hmem q).mp hq).1, hk⟩
  · rintro ⟨hr, h1, hb, hall⟩
    refine ⟨hr, h1, hb, fun j hj hlt => ?_⟩
    obtain ⟨q, hq, rfl, hk⟩ := hall j hj hlt
    exact ⟨q, (hmem q).mpr ⟨hq, hj⟩, rfl, hk⟩

/-- What the reduced table says about an index. -/
theorem get?_reduce_eq_some_iff {t : HopTable} {hops : List Hop} :
    (t.reduce bound destination).get? k = some hops ↔
      t.get? k = some hops ∧ 1 ≤ k ∧ k < bound ∧
        ∀ j, 1 ≤ j → j < k →
          ∃ earlier, t.get? j = some earlier ∧ ¬ Reached destination earlier := by
  rw [get?_eq_some_iff, mem_reduce, get?_eq_some_iff]
  refine and_congr_right fun _ => and_congr_right fun _ => and_congr_right fun _ => ?_
  refine forall_congr' fun j => imp_congr_right fun _ => imp_congr_right fun _ => ?_
  constructor
  · rintro ⟨q, hq, rfl, hk⟩
    exact ⟨q.2, get?_eq_some_iff.mpr hq, hk⟩
  · rintro ⟨earlier, hm, hk⟩
    exact ⟨(j, earlier), get?_eq_some_iff.mp hm, rfl, hk⟩

/-- If the rows begin at index one and leave none out, the route consists of those up to the first
one that the destination answered, or of all of them. -/
theorem get?_reduce_of_initial {t : HopTable} {r : UInt16}
    (initial : ∀ j k, 1 ≤ j → j ≤ k → (t.get? k).isSome → (t.get? j).isSome)
    (row : (t.get? r).isSome) (first : 1 ≤ r) (within : r < bound)
    (before : ∀ k, k < r → ¬ Reached destination (t.hops k))
    (ends : Reached destination (t.hops r) ∨ ∀ k, r < k → t.get? k = none) :
    (t.reduce bound destination).get? k = if 1 ≤ k ∧ k ≤ r then t.get? k else none := by
  have hops_eq {j : UInt16} {hops : List Hop} (hj : t.get? j = some hops) : t.hops j = hops := by
    simp [HopTable.hops, hj]
  split_ifs with hk
  · obtain ⟨h1, hle⟩ := hk
    obtain ⟨hops, hhops⟩ := Option.isSome_iff_exists.mp (initial k r h1 hle row)
    rw [hhops, get?_reduce_eq_some_iff]
    refine ⟨hhops, h1, UInt16.lt_of_le_of_lt hle within, fun j hj hlt => ?_⟩
    obtain ⟨earlier, he⟩ := Option.isSome_iff_exists.mp
      (initial j k hj (UInt16.le_of_lt hlt) (by simp [hhops]))
    exact ⟨earlier, he, hops_eq he ▸ before j (UInt16.lt_of_lt_of_le hlt hle)⟩
  · -- An index beyond the last row would need that row to be unanswered.
    rw [Option.eq_none_iff_forall_ne_some]
    intro hops hhops
    obtain ⟨hrow, h1, -, hall⟩ := get?_reduce_eq_some_iff.mp hhops
    have hlt : r < k := UInt16.not_le.mp fun hle => hk ⟨h1, hle⟩
    rcases ends with hreached | hnone
    · obtain ⟨earlier, he, hno⟩ := hall r first hlt
      exact hno (hops_eq he ▸ hreached)
    · rw [hnone k hlt] at hrow
      contradiction

/-- Without a row for index one there is no route. -/
theorem reduce_eq_empty {t : HopTable} (h : t.get? 1 = none) :
    t.reduce bound destination = .empty := by
  have absent (q : Row) (hq : q ∈ t.rows) : q.1 ≠ 1 := by
    intro he
    have hrow := get?_eq_some_iff.mpr hq
    rw [he, h] at hrow
    contradiction
  apply ext_rows
  rw [empty, List.eq_nil_iff_forall_not_mem]
  intro r hm
  obtain ⟨hm, h1, -, hall⟩ := (mem_reduce t bound destination r).mp hm
  have hlt : 1 < r.1 := UInt16.lt_of_le_of_ne h1 (absent r hm).symm
  obtain ⟨q, hq, hq1, -⟩ := hall 1 (UInt16.le_refl _) hlt
  exact absent q hq hq1

end HopTrace.HopTable
