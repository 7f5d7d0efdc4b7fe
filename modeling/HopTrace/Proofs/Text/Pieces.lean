import HopTrace.Text.Blank
import Mathlib.Data.List.Basic
import Mathlib.Data.List.TakeWhile

/-!
# Pieces and blanks

A text joined from two by a separator has the pieces of the one and then those
of the other, and a text without separators is its own piece. A trimmed text is
what is left between the blanks at the ends, and there is one such rest.
-/

namespace HopTrace.Text

variable {sep : Char} {s t : List Char}

/-! ## Pieces -/

theorem splitAt_ne_nil (sep : Char) (s : List Char) : splitAt sep s ≠ [] := by
  cases s with
  | nil => simp [splitAt]
  | cons c s =>
    rw [splitAt]
    split
    · simp
    · split <;> simp

theorem splitAt_sep (sep : Char) (s : List Char) : splitAt sep (sep :: s) = [] :: splitAt sep s :=
  if_pos rfl

theorem splitAt_other {c : Char} {piece : List Char} {rest : List (List Char)} (other : c ≠ sep)
    (split : splitAt sep s = piece :: rest) : splitAt sep (c :: s) = (c :: piece) :: rest := by
  rw [splitAt, if_neg other, split]

theorem splitAt_append (sep : Char) (s t : List Char) :
    splitAt sep (s ++ sep :: t) = splitAt sep s ++ splitAt sep t := by
  induction s with
  | nil => exact splitAt_sep sep t
  | cons c s ih =>
    by_cases same : c = sep
    · subst same
      rw [List.cons_append, splitAt_sep, ih, splitAt_sep, List.cons_append]
    · obtain ⟨piece, rest, hs⟩ := List.exists_cons_of_ne_nil (splitAt_ne_nil sep s)
      rw [hs, List.cons_append] at ih
      rw [List.cons_append, splitAt_other same ih, splitAt_other same hs, List.cons_append]

theorem splitAt_of_not_mem (h : sep ∉ s) : splitAt sep s = [s] := by
  induction s with
  | nil => rfl
  | cons c s ih =>
    have hother : c ≠ sep := (List.ne_of_not_mem_cons h).symm
    exact splitAt_other hother (ih (List.not_mem_of_not_mem_cons h))

theorem listedNames_append (a b : String) :
    listedNames (a ++ "," ++ b) = listedNames a ++ listedNames b := by
  have hlist : (a ++ "," ++ b).toList = a.toList ++ ',' :: b.toList := by simp
  rw [listedNames, hlist, splitAt_append, List.map_append]
  rfl

theorem listedNames_of_not_mem {a : String} (h : ',' ∉ a.toList) :
    listedNames a = [String.ofList (trim a.toList)] := by
  rw [listedNames, splitAt_of_not_mem h]
  rfl

/-! ## Blanks -/

structure Trimmed (s t : List Char) : Prop where
  cut : ∃ left right, s = left ++ t ++ right ∧ (∀ c ∈ left, isBlank c = true) ∧
    ∀ c ∈ right, isBlank c = true
  first : ∀ c ∈ t.head?, isBlank c = false
  last : ∀ c ∈ t.getLast?, isBlank c = false

theorem dropWhile_of_head {p : Char → Bool} (h : ∀ c ∈ s.head?, p c = false) :
    s.dropWhile p = s := by
  cases s with
  | nil => rfl
  | cons c s => exact List.dropWhile_cons_of_neg (by simp [h c rfl])

theorem head_dropWhile (p : Char → Bool) (s : List Char) :
    ∀ c ∈ (s.dropWhile p).head?, p c = false := by
  intro c hc
  have hnot := List.head?_dropWhile_not p s
  rw [hc] at hnot
  simpa using hnot

theorem Trimmed.trim_eq (h : Trimmed s t) : trim s = t := by
  obtain ⟨⟨left, right, rfl, hleft, hright⟩, first, last⟩ := h
  by_cases empty : t = []
  · subst empty
    have hall : ∀ c ∈ left ++ [] ++ right, isBlank c = true := by
      intro c hc
      rw [List.append_nil, List.mem_append] at hc
      exact hc.elim (hleft c) (hright c)
    rw [trim, List.dropWhile_eq_nil_iff.mpr hall]
    rfl
  · have hfront : (left ++ t ++ right).dropWhile isBlank = t ++ right := by
      rw [List.append_assoc, List.dropWhile_append_of_pos hleft]
      refine dropWhile_of_head fun c hc => first c ?_
      rwa [List.head?_append_of_ne_nil _ empty] at hc
    have hback : (t ++ right).reverse.dropWhile isBlank = t.reverse := by
      rw [List.reverse_append, List.dropWhile_append_of_pos (by simpa using hright)]
      refine dropWhile_of_head fun c hc => last c ?_
      rwa [List.head?_reverse] at hc
    rw [trim, hfront, hback, List.reverse_reverse]

theorem trimmed_trim (s : List Char) : Trimmed s (trim s) := by
  let front := s.dropWhile isBlank
  let left := s.takeWhile isBlank
  let right := (front.reverse.takeWhile isBlank).reverse
  have hfront : trim s ++ right = front := by
    rw [trim, ← List.reverse_append, List.takeWhile_append_dropWhile, List.reverse_reverse]
  refine ⟨⟨left, right, ?_, fun _ => List.mem_takeWhile_imp, ?_⟩, ?_, ?_⟩
  · rw [List.append_assoc, hfront, List.takeWhile_append_dropWhile]
  · intro c hc
    exact List.mem_takeWhile_imp (List.mem_reverse.mp hc)
  · intro c hc
    refine head_dropWhile isBlank s c ?_
    obtain ⟨rest, hrest⟩ := List.head?_eq_some_iff.mp hc
    have hhead : front = c :: (rest ++ right) := by rw [← hfront, hrest, List.cons_append]
    exact congrArg List.head? hhead
  · rw [trim, List.getLast?_reverse]
    exact head_dropWhile isBlank front.reverse

theorem trimmed_iff : Trimmed s t ↔ trim s = t := ⟨Trimmed.trim_eq, fun h => h ▸ trimmed_trim s⟩

end HopTrace.Text
