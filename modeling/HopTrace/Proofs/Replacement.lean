import Mathlib.Algebra.GroupWithZero.Nat

/-!
# Replacing one entry

What the replacement of one entry of an array or a list does to its entries,
and to a count or a sum over all of them.
-/

namespace HopTrace

section

variable {α : Type} {xs : Array α} {i : Nat} {a : α}

theorem lt_size_of_getElem? (found : xs[i]? = some a) : i < xs.size :=
  (Array.getElem?_eq_some_iff.mp found).1

theorem getElem?_setIfInBounds_of_found (found : xs[i]? = some a) (b : α) :
    (xs.setIfInBounds i b)[i]? = some b :=
  Array.getElem?_setIfInBounds_self_of_lt (lt_size_of_getElem? found)

theorem getElem?_push_of_found (found : xs[i]? = some a) (b : α) : (xs.push b)[i]? = some a := by
  have hlt := lt_size_of_getElem? found
  rw [Array.getElem?_push_lt hlt, ← found, Array.getElem?_eq_getElem hlt]

end

theorem countP_setIfInBounds {α : Type} (f : α → Bool) {xs : Array α} {i : Nat} {a : α}
    (found : xs[i]? = some a) (b : α) :
    (xs.setIfInBounds i b).countP f + (f a).toNat = xs.countP f + (f b).toNat := by
  obtain ⟨hi, ha⟩ := Array.getElem?_eq_some_iff.mp found
  have hpos := Array.boole_getElem_le_countP (p := f) hi
  rw [Array.setIfInBounds_def, dif_pos hi, Array.countP_set hi]
  rw [ha] at hpos ⊢
  cases h1 : f a <;> cases h2 : f b <;>
    simp only [h1, if_true, Bool.toNat_true, Bool.toNat_false, Bool.false_eq_true, if_false]
      at hpos ⊢ <;> omega

theorem sum_map_set {α : Type} (f : α → Nat) {l : List α} {i : Nat} {a : α} (h : l[i]? = some a)
    (b : α) : ((l.set i b).map f).sum + f a = (l.map f).sum + f b := by
  induction l generalizing i with
  | nil => simp at h
  | cons x rest ih =>
    cases i with
    | zero =>
      obtain rfl : x = a := by simpa using h
      simp only [List.set_cons_zero, List.map_cons, List.sum_cons]
      omega
    | succ i =>
      have hi := ih (i := i) (by simpa using h)
      simp only [List.set_cons_succ, List.map_cons, List.sum_cons]
      omega

/-- If a replacement changes what an entry adds to a list in some way, it changes the whole list in
that way, up to order. -/
theorem flatMap_set_perm {α β : Type} (f : α → List β) {l : List α} {i : Nat} {a b : α}
    (found : l[i]? = some a) {before after : List β} (change : before ++ f b = f a ++ after) :
    (before ++ (l.set i b).flatMap f).Perm (l.flatMap f ++ after) := by
  induction l generalizing i with
  | nil => simp at found
  | cons x rest ih =>
    cases i with
    | zero =>
      obtain rfl : x = a := by simpa using found
      rw [List.set_cons_zero, List.flatMap_cons, List.flatMap_cons, ← List.append_assoc, change,
        List.append_assoc, List.append_assoc]
      exact List.perm_append_comm.append_left _
    | succ i =>
      have hrest := ih (i := i) (by simpa using found)
      rw [List.set_cons_succ, List.flatMap_cons, List.flatMap_cons, List.append_assoc]
      exact (List.perm_append_comm_assoc ..).trans (hrest.append_left _)

/-- A list to which only one entry adds anything. -/
theorem flatMap_eq_of_single {α β : Type} (f : α → List β) {l : List α} {i : Nat} {a : α}
    (found : l[i]? = some a) (single : ∀ j b, l[j]? = some b → j ≠ i → f b = []) :
    l.flatMap f = f a := by
  induction l generalizing i with
  | nil => simp at found
  | cons x rest ih =>
    cases i with
    | zero =>
      obtain rfl : x = a := by simpa using found
      have hrest : rest.flatMap f = [] := by
        rw [List.flatMap_eq_nil_iff]
        intro b hb
        obtain ⟨j, hj⟩ := List.mem_iff_getElem?.mp hb
        exact single (j + 1) b (by simpa using hj) (by simp)
      rw [List.flatMap_cons, hrest, List.append_nil]
    | succ i =>
      have hx : f x = [] := single 0 x rfl (by simp)
      rw [List.flatMap_cons, hx, List.nil_append]
      exact ih (by simpa using found) fun j b hj hne =>
        single (j + 1) b (by simpa using hj) (by simpa using hne)

end HopTrace
