import HopTrace.Route.Table

/-!
# The route that was walked

A hop table is cut down to the hops from index one up to, and not including, a
bound. It ends before the first index without a row, and after the first hop
that the destination answered.
-/

namespace HopTrace.HopTable

/-- The rows from index `ttl` on that belong to the route. -/
def walk (destination : Address) (bound : UInt16) : UInt16 → List Row → List Row
  | _, [] => []
  | ttl, row :: rest =>
    if row.1 = ttl ∧ ttl < bound then
      row :: (if row.2.any (·.reached destination) then []
        else walk destination bound (ttl + 1) rest)
    else []

theorem walk_sublist (destination : Address) (bound ttl : UInt16) (rows : List Row) :
    (walk destination bound ttl rows).Sublist rows := by
  induction rows generalizing ttl with
  | nil => exact .slnil
  | cons row rest ih =>
    by_cases h : row.1 = ttl ∧ ttl < bound
    · by_cases hr : row.2.any (·.reached destination)
      · simp only [walk, h, hr, and_self, if_true]
        exact (List.nil_sublist rest).cons_cons row
      · simp only [walk, h, hr, and_self, if_true]
        exact (ih (ttl + 1)).cons_cons row
    · simp only [walk, h, if_false]
      exact List.nil_sublist _

/-- The route towards `destination`, of indices below `bound`. -/
def reduce (t : HopTable) (bound : UInt16) (destination : Address) : HopTable :=
  ⟨walk destination bound 1 (t.rows.dropWhile (·.1 == 0)),
    t.sorted.sublist ((walk_sublist ..).trans (List.dropWhile_sublist _))⟩

/-- The bound that keeps `maxHops` itself, as far as sixteen bits allow. -/
def boundAfter (maxHops : UInt16) : UInt16 := if maxHops = 0xffff then maxHops else maxHops + 1

end HopTrace.HopTable
