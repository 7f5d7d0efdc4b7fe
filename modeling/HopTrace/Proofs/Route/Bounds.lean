import HopTrace.Proofs.Route.Exactness
import Mathlib.Data.List.Infix
import Mathlib.Tactic.SplitIfs

/-!
# Routes under different bounds

What is kept of a table is an initial part of it. A route that is reduced again
loses only what lies beyond the smaller of the two bounds, although the rows
that ended it are no longer there.
-/

namespace HopTrace.HopTable

variable {destination : Address} {bound bound' ttl : UInt16} {row : Row} {rows : List Row}

theorem lt_min_iff : ttl < min bound bound' ↔ ttl < bound ∧ ttl < bound' := by
  rw [UInt16.min_def]
  split_ifs with h
  · exact ⟨fun hlt => ⟨hlt, UInt16.lt_of_lt_of_le hlt h⟩, And.left⟩
  · have hle := UInt16.le_of_lt (UInt16.not_le.mp h)
    exact ⟨fun hlt => ⟨UInt16.lt_of_lt_of_le hlt hle, hlt⟩, And.right⟩

/-! ## The walk -/

theorem walk_of_taken (head : row.1 = ttl ∧ ttl < bound) :
    walk destination bound ttl (row :: rows) =
      row :: (if row.2.any (·.reached destination) then []
        else walk destination bound (ttl + 1) rows) := if_pos head

theorem walk_of_left (head : ¬ (row.1 = ttl ∧ ttl < bound)) :
    walk destination bound ttl (row :: rows) = [] := if_neg head

theorem isPrefix_walk (destination : Address) (bound ttl : UInt16) (rows : List Row) :
    walk destination bound ttl rows <+: rows := by
  induction rows generalizing ttl with
  | nil => exact List.nil_prefix
  | cons row rest ih =>
    by_cases head : row.1 = ttl ∧ ttl < bound
    · rw [walk_of_taken head, List.prefix_cons_inj]
      split_ifs
      · exact List.nil_prefix
      · exact ih (ttl + 1)
    · rw [walk_of_left head]
      exact List.nil_prefix

/-- The second walk ends where the first has ended, or at its own bound before. -/
theorem walk_walk : walk destination bound ttl (walk destination bound' ttl rows) =
    walk destination (min bound bound') ttl rows := by
  induction rows generalizing ttl with
  | nil => rfl
  | cons row rest ih =>
    by_cases first : row.1 = ttl ∧ ttl < bound'
    · rw [walk_of_taken first]
      by_cases second : ttl < bound
      · rw [walk_of_taken ⟨first.1, second⟩,
          walk_of_taken ⟨first.1, lt_min_iff.mpr ⟨second, first.2⟩⟩]
        split_ifs
        · rfl
        · rw [ih]
      · rw [walk_of_left fun h => second h.2,
          walk_of_left fun h => second (lt_min_iff.mp h.2).1]
    · rw [walk_of_left first, walk_of_left fun h => first ⟨h.1, (lt_min_iff.mp h.2).2⟩]
      rfl

/-- A walk that begins at another index keeps no row of index zero. -/
theorem dropWhile_walk (hne : ttl ≠ 0) :
    (walk destination bound ttl rows).dropWhile (·.1 == 0) =
      walk destination bound ttl rows := by
  cases rows with
  | nil => rfl
  | cons row rest =>
    by_cases head : row.1 = ttl ∧ ttl < bound
    · rw [walk_of_taken head, List.dropWhile_cons_of_neg]
      simpa [head.1] using hne
    · rw [walk_of_left head]
      rfl

/-! ## Reductions -/

theorem rows_reduce (t : HopTable) (bound : UInt16) (destination : Address) :
    (t.reduce bound destination).rows =
      walk destination bound 1 (t.rows.dropWhile (·.1 == 0)) := rfl

theorem reduce_reduce (t : HopTable) (bound bound' : UInt16) (destination : Address) :
    (t.reduce bound' destination).reduce bound destination =
      t.reduce (min bound bound') destination := by
  apply ext_rows
  rw [rows_reduce, rows_reduce, rows_reduce, dropWhile_walk (by decide), walk_walk]

theorem isPrefix_reduce (t : HopTable) (bound : UInt16) (destination : Address) :
    (t.reduce bound destination).rows <+: t.rows.dropWhile (·.1 == 0) :=
  isPrefix_walk ..

/-- To reduce a route again is to reduce its table by the smaller bound. So the same bound changes
nothing, and a lower one takes away the end of the route and nothing else. -/
theorem reductions_compose (t : HopTable) (destination : Address) :
    (∀ bound bound', (t.reduce bound' destination).reduce bound destination =
      t.reduce (min bound bound') destination) ∧
    (∀ bound, (t.reduce bound destination).reduce bound destination =
      t.reduce bound destination) ∧
    ∀ bound bound', bound ≤ bound' →
      (t.reduce bound destination).rows <+: (t.reduce bound' destination).rows := by
  refine ⟨fun bound bound' => t.reduce_reduce bound bound' destination, fun bound => ?_,
    fun bound bound' hle => ?_⟩
  · rw [reduce_reduce, UInt16.min_def, if_pos (UInt16.le_refl bound)]
  · -- The shorter route is what a second reduction leaves of the longer one.
    have hmin : min bound bound' = bound := by rw [UInt16.min_def, if_pos hle]
    have hcut := (t.reduce bound' destination).isPrefix_reduce bound destination
    rwa [reduce_reduce, hmin, rows_reduce t bound', dropWhile_walk (by decide),
      ← rows_reduce] at hcut

theorem reductions_compose_crossing :
    (crossing.reduce 30 (.v4 ⟨192, 0, 2, 1⟩)).keys = [1, 2] ∧
    (crossing.reduce 2 (.v4 ⟨192, 0, 2, 1⟩)).keys = [1] ∧
    (crossing.reduce 2 (.v4 ⟨192, 0, 2, 1⟩)).rows <+:
      (crossing.reduce 30 (.v4 ⟨192, 0, 2, 1⟩)).rows :=
  ⟨by decide, by decide,
    (reductions_compose crossing (.v4 ⟨192, 0, 2, 1⟩)).2.2 2 30 (by decide)⟩

end HopTrace.HopTable
