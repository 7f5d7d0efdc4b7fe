import HopTrace.Text.Digits
import Mathlib.Algebra.Group.Nat.Defs
import Mathlib.Data.List.Basic
import Mathlib.Data.List.Infix
import Mathlib.Tactic.SplitIfs

/-!
# Numbers read back from their digits

The digits of a number are taken one after the other, and what they come to is
the number, whatever follows them. Only the digits of zero begin with a zero.
-/

namespace HopTrace.Text

variable {base limit n d : Nat} {c : Char} {s : List Char}

theorem digitOf?_digitChar (h : d < base) (le : base ≤ 16) :
    digitOf? base (digitChar d) = some d := by
  have hvalue : ∀ d < 16, digitValue? (digitChar d) = some d := by decide
  rw [digitOf?, hvalue d (Nat.lt_of_lt_of_le h le)]
  exact Option.filter_some_pos (by simpa using h)

theorem digits_of_lt (h : n < base) : digits base n = [digitChar n] := by
  rw [digits, if_pos (.inl h)]

theorem digits_of_le (two : 2 ≤ base) (h : base ≤ n) :
    digits base n = digits base (n / base) ++ [digitChar (n % base)] := by
  rw [digits, if_neg (by omega)]

/-- What holds of one digit, and of a number if it holds without its last digit, holds always. -/
theorem digits_induction {P : Nat → Prop} (two : 2 ≤ base) (one : ∀ n < base, P n)
    (more : ∀ n, base ≤ n → P (n / base) → P n) (n : Nat) : P n := by
  induction n using Nat.strongRecOn with
  | ind n ih =>
    by_cases h : n < base
    · exact one n h
    · exact more n (Nat.not_lt.mp h) (ih _ (Nat.div_lt_self (by omega) (by omega)))

theorem digits_ne_nil (base n : Nat) : digits base n ≠ [] := by
  rw [digits]
  split_ifs <;> simp

theorem isSome_of_mem_digits (two : 2 ≤ base) (le : base ≤ 16) (h : c ∈ digits base n) :
    (digitOf? base c).isSome := by
  induction n using digits_induction two with
  | one n hlt =>
    rw [digits_of_lt hlt, List.mem_singleton] at h
    rw [h, digitOf?_digitChar hlt le]
    rfl
  | more n hle ih =>
    rw [digits_of_le two hle, List.mem_append, List.mem_singleton] at h
    rcases h with h | rfl
    · exact ih h
    · rw [digitOf?_digitChar (Nat.mod_lt n (by omega)) le]
      rfl

theorem length_digits_le (two : 2 ≤ base) {k : Nat} (h : n < base ^ (k + 1)) :
    (digits base n).length ≤ k + 1 := by
  induction k generalizing n with
  | zero =>
    rw [Nat.zero_add, Nat.pow_one] at h
    rw [digits_of_lt h]
    exact Nat.le_refl 1
  | succ k ih =>
    by_cases hlt : n < base
    · rw [digits_of_lt hlt]
      simp
    · rw [digits_of_le two (Nat.not_lt.mp hlt), List.length_append, List.length_singleton]
      have hdiv : n / base < base ^ (k + 1) := by
        rw [Nat.div_lt_iff_lt_mul (by omega), ← Nat.pow_succ]
        exact h
      exact Nat.succ_le_succ (ih hdiv)

/-- A number that begins with a zero is zero. -/
theorem eq_zero_of_head (two : 2 ≤ base) (le : base ≤ 16)
    (h : (digits base n).head? = some '0') : n = 0 := by
  induction n using digits_induction two with
  | one n hlt =>
    have hzero : digitOf? base '0' = some 0 := digitOf?_digitChar (d := 0) (by omega) le
    rw [digits_of_lt hlt] at h
    obtain rfl | hchar : n = 0 ∨ digitChar n = '0' := .inr (by simpa using h)
    · rfl
    · have hn := digitOf?_digitChar hlt le
      rw [hchar, hzero] at hn
      exact (Option.some.inj hn).symm
  | more n hle ih =>
    rw [digits_of_le two hle, List.head?_append_of_ne_nil _ (digits_ne_nil base _)] at h
    have hpos : 0 < n / base := Nat.div_pos hle (by omega)
    exact absurd (ih h) (Nat.ne_of_gt hpos)

/-! ## Taking digits -/

theorem takeFitting_suffix (base limit acc count : Nat) (s : List Char) :
    (takeFitting base limit acc count s).2.2 <:+ s := by
  fun_induction takeFitting base limit acc count s with
  | case1 => exact List.suffix_refl []
  | case2 acc count c s d _ _ ih => exact ih.trans (List.suffix_cons c s)
  | case3 | case4 => exact List.suffix_refl _

/-- The digits of a number that fits are all taken. -/
theorem takeFitting_digits (two : 2 ≤ base) (le : base ≤ 16) (fits : n ≤ limit) (count : Nat)
    (rest : List Char) : takeFitting base limit 0 count (digits base n ++ rest) =
      takeFitting base limit n (count + (digits base n).length) rest := by
  induction n using digits_induction two generalizing rest with
  | one n hlt =>
    rw [digits_of_lt hlt, List.singleton_append, takeFitting, digitOf?_digitChar hlt le]
    simp [fits]
  | more n hle ih =>
    have hmod := Nat.mod_lt n (show 0 < base by omega)
    have hvalue : n / base * base + n % base = n := Nat.div_add_mod' n base
    rw [digits_of_le two hle, List.append_assoc, ih (Nat.le_trans (Nat.div_le_self n base) fits),
      List.singleton_append, takeFitting, digitOf?_digitChar hmod le]
    simp only [hvalue, fits, if_true, List.length_append, List.length_singleton, Nat.add_assoc]

/-- Nothing is taken where no digit stands. -/
theorem takeFitting_of_stop (stop : ∀ c ∈ s.head?, digitOf? base c = none) (acc count : Nat) :
    takeFitting base limit acc count s = (acc, count, s) := by
  cases s with
  | nil => rfl
  | cons c s => rw [takeFitting, stop c rfl]

/-- A number that fits is read back from its digits if no digit follows. -/
theorem takeFitting_number (two : 2 ≤ base) (le : base ≤ 16) (fits : n ≤ limit)
    {rest : List Char} (stop : ∀ c ∈ rest.head?, digitOf? base c = none) :
    takeFitting base limit 0 0 (digits base n ++ rest) = (n, (digits base n).length, rest) := by
  rw [takeFitting_digits two le fits, takeFitting_of_stop stop, Nat.zero_add]

end HopTrace.Text
