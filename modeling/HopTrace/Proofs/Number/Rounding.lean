import HopTrace.Duration
import Mathlib.Algebra.Order.Field.Power
import Mathlib.Data.Rat.Cast.Order
import Mathlib.Tactic.FieldSimp
import Mathlib.Tactic.Linarith
import Mathlib.Tactic.NormNum
import Mathlib.Tactic.Ring

/-!
# Where rounding reaches a power of two

The values below a power of two lie half as far apart as those above it. A
fraction is rounded to the power or beyond exactly if it lies at most half of the
smaller distance below it. The seconds of a span need more than 64 bits exactly
if its milliseconds, before they were divided, came that close.
-/

namespace HopTrace

namespace Binary64

def value (x : Binary64) : ℚ := x.mant * 2 ^ x.exp

theorem value_zero : zero.value = 0 := by simp [value, zero]

theorem value_nonneg (x : Binary64) : 0 ≤ x.value :=
  mul_nonneg (Nat.cast_nonneg _) (zpow_nonneg (by norm_num) _)

theorem value_eq_zero_iff {x : Binary64} : x.value = 0 ↔ x.isZero = true := by
  have hpow : (2 : ℚ) ^ x.exp ≠ 0 := zpow_ne_zero _ (by norm_num)
  simp [value, isZero, hpow]

theorem ratio_den_pos (x : Binary64) : 0 < x.ratio.2 := by
  unfold ratio
  split
  · exact Nat.one_pos
  · exact Nat.pow_pos (by decide)

theorem ratio_eq (x : Binary64) : (x.ratio.1 : ℚ) / x.ratio.2 = x.value := by
  unfold ratio value
  split
  next h =>
    obtain ⟨k, hk⟩ := Int.eq_ofNat_of_zero_le h
    simp [hk]
  next h =>
    obtain ⟨k, hk⟩ := Int.eq_ofNat_of_zero_le (show 0 ≤ -x.exp by omega)
    have hexp : x.exp = -(k : Int) := by omega
    simp [hexp, div_eq_mul_inv]

/-! ## The grid -/

section

variable {num den : Nat} {e k : Int}

theorem scaled_den_pos (hd : 0 < den) (num : Nat) (e : Int) : 0 < (scaled num den e).2 := by
  unfold scaled
  split
  · exact Nat.mul_pos hd (Nat.pow_pos (by decide))
  · exact hd

theorem scaled_eq (num den : Nat) (e : Int) :
    ((scaled num den e).1 : ℚ) / (scaled num den e).2 = num / den / 2 ^ e := by
  unfold scaled
  split
  next h =>
    obtain ⟨k, rfl⟩ := Int.eq_ofNat_of_zero_le h
    simp [div_div]
  next h =>
    obtain ⟨k, hk⟩ := Int.eq_ofNat_of_zero_le (show 0 ≤ -e by omega)
    obtain rfl : e = -(k : Int) := by omega
    simp [div_eq_mul_inv, mul_right_comm]

/-- A fraction lies between the powers that the bits of its parts tell. -/
theorem log2_bounds (hn : 0 < num) (hd : 0 < den) :
    (2 : ℚ) ^ ((num.log2 : Int) - den.log2 - 1) < num / den ∧
      (num / den : ℚ) < 2 ^ ((num.log2 : Int) - den.log2 + 1) := by
  have hden : (0 : ℚ) < den := Nat.cast_pos.mpr hd
  have hlow : (2 : ℚ) ^ (num.log2 : Int) ≤ num := by
    exact_mod_cast Nat.log2_self_le hn.ne'
  have hhigh : (num : ℚ) < 2 ^ ((num.log2 : Int) + 1) := by
    exact_mod_cast Nat.lt_log2_self
  have hlow' : (2 : ℚ) ^ (den.log2 : Int) ≤ den := by
    exact_mod_cast Nat.log2_self_le hd.ne'
  have hhigh' : (den : ℚ) < 2 ^ ((den.log2 : Int) + 1) := by
    exact_mod_cast Nat.lt_log2_self
  have hpow (i : Int) : (0 : ℚ) < 2 ^ i := zpow_pos (by norm_num) i
  constructor
  · rw [lt_div_iff₀ hden]
    calc (2 : ℚ) ^ ((num.log2 : Int) - den.log2 - 1) * den
        < 2 ^ ((num.log2 : Int) - den.log2 - 1) * 2 ^ ((den.log2 : Int) + 1) :=
          mul_lt_mul_of_pos_left hhigh' (hpow _)
      _ = 2 ^ (num.log2 : Int) := by rw [← zpow_add₀ (by norm_num)]; congr 1; ring
      _ ≤ num := hlow
  · rw [div_lt_iff₀ hden]
    calc (num : ℚ) < 2 ^ ((num.log2 : Int) + 1) := hhigh
      _ = 2 ^ ((num.log2 : Int) - den.log2 + 1) * 2 ^ (den.log2 : Int) := by
          rw [← zpow_add₀ (by norm_num)]; congr 1; ring
      _ ≤ 2 ^ ((num.log2 : Int) - den.log2 + 1) * den :=
          mul_le_mul_of_nonneg_left hlow' (hpow _).le

/-- The mantissa of a fraction on its grid has 53 bits, or fewer on the finest grid. -/
theorem gridExponent_spec (hn : 0 < num) (hd : 0 < den) :
    (num / den : ℚ) < 2 ^ (gridExponent num den + 53) ∧
      (-1074 < gridExponent num den → (2 : ℚ) ^ (gridExponent num den + 52) ≤ num / den) := by
  obtain ⟨low, high⟩ := log2_bounds hn hd
  set e : Int := (num.log2 : Int) - den.log2 - 52 with he
  have htwo : (1 : ℚ) ≤ 2 := by norm_num
  have hscaled : (scaled num den e).1 < 0x10000000000000 * (scaled num den e).2 ↔
      (num / den : ℚ) < 2 ^ (e + 52) := by
    have hpos : (0 : ℚ) < (scaled num den e).2 := Nat.cast_pos.mpr (scaled_den_pos hd num e)
    rw [← Nat.cast_lt (α := ℚ), Nat.cast_mul, ← div_lt_iff₀ hpos, scaled_eq,
      div_lt_iff₀ (zpow_pos (by norm_num) e), zpow_add₀ (by norm_num), mul_comm]
    norm_num
  have hgrid : gridExponent num den =
      max (if (num / den : ℚ) < 2 ^ (e + 52) then e - 1 else e) (-1074) := by
    rw [gridExponent, ← he]
    simp only [hscaled]
  rw [hgrid]
  split_ifs with hlt
  · refine ⟨hlt.trans_le (zpow_le_zpow_right₀ htwo (by omega)), fun hmax => ?_⟩
    exact (zpow_le_zpow_right₀ htwo (by omega)).trans low.le
  · refine ⟨high.trans_le (zpow_le_zpow_right₀ htwo (by omega)), fun hmax => ?_⟩
    exact (zpow_le_zpow_right₀ htwo (by omega)).trans (not_lt.mp hlt)

/-! ## Rounding to a whole number -/

theorem le_roundHalfEven (num den : Nat) : num / den ≤ roundHalfEven num den := by
  unfold roundHalfEven
  dsimp only
  split_ifs <;> omega

theorem roundHalfEven_le_of_lt {m : Nat} (hd : 0 < den) (h : num < m * den) :
    roundHalfEven num den ≤ m := by
  have hq : num / den < m := (Nat.div_lt_iff_lt_mul hd).mpr h
  unfold roundHalfEven
  dsimp only
  split_ifs <;> omega

/-- An even number is reached from the middle between it and the number before on. -/
theorem le_roundHalfEven_iff {m : Nat} (hd : 0 < den) (even : m % 2 = 0) (pos : 0 < m) :
    m ≤ roundHalfEven num den ↔ 2 * m * den ≤ 2 * num + den := by
  have hsplit := Nat.div_add_mod num den
  have hmod := Nat.mod_lt num hd
  have hupper : roundHalfEven num den ≤ num / den + 1 := by
    unfold roundHalfEven
    dsimp only
    split_ifs <;> omega
  rcases Nat.lt_trichotomy (num / den + 1) m with hlt | rfl | hgt
  · have hmul : (num / den + 2) * den ≤ m * den := Nat.mul_le_mul_right den hlt
    constructor
    · intro hle
      omega
    · intro hle
      rw [Nat.add_mul, Nat.mul_comm (num / den)] at hmul
      rw [Nat.mul_assoc] at hle
      omega
  · have hround : num / den + 1 ≤ roundHalfEven num den ↔ den ≤ 2 * (num % den) := by
      unfold roundHalfEven
      dsimp only
      split_ifs <;> omega
    rw [hround, Nat.mul_assoc, Nat.add_mul, Nat.mul_comm (num / den)]
    omega
  · have hmul : m * den ≤ num / den * den := Nat.mul_le_mul_right den (Nat.le_of_lt_succ hgt)
    rw [Nat.mul_comm (num / den)] at hmul
    refine iff_of_true ((Nat.le_of_lt_succ hgt).trans (le_roundHalfEven num den)) ?_
    rw [Nat.mul_assoc]
    omega

/-! ## Rounding to the grid -/

theorem value_round (hn : 0 < num) : (round num den).value =
    roundHalfEven (scaled num den (gridExponent num den)).1
      (scaled num den (gridExponent num den)).2 * 2 ^ gridExponent num den := by
  rw [round, if_neg hn.ne']
  dsimp only
  split
  next hm =>
    rw [hm, value, zpow_add₀ (by norm_num)]
    push_cast
    ring
  next => rfl

/-- Below the grid of a power a mantissa and what it is rounded to stay below half of the power. -/
theorem mant_le_of_lt {n d : Nat} (hd : 0 < d) (hhigh : n < 2 ^ 53 * d) (below : e < k - 53) :
    (roundHalfEven n d * 2 ^ e : ℚ) ≤ 2 ^ (k - 1) ∧ (n / d * 2 ^ e : ℚ) ≤ 2 ^ (k - 1) := by
  have hpos : (0 : ℚ) ≤ 2 ^ e := zpow_nonneg (by norm_num) e
  have hr : (roundHalfEven n d : ℚ) ≤ 2 ^ 53 := by
    exact_mod_cast roundHalfEven_le_of_lt hd hhigh
  have hx : (n / d : ℚ) ≤ 2 ^ 53 := by
    rw [div_le_iff₀ (Nat.cast_pos.mpr hd)]
    exact_mod_cast hhigh.le
  have htop : (2 : ℚ) ^ 53 * 2 ^ e ≤ 2 ^ (k - 1) := by
    rw [← zpow_natCast, ← zpow_add₀ (by norm_num)]
    exact zpow_le_zpow_right₀ (by norm_num) (by push_cast; omega)
  exact ⟨(mul_le_mul_of_nonneg_right hr hpos).trans htop,
    (mul_le_mul_of_nonneg_right hx hpos).trans htop⟩

/-- Beyond the grid of a power a mantissa of all bits reaches the power, rounded or not. -/
theorem le_mant_of_lt {n d : Nat} (hd : 0 < d) (hlow : 2 ^ 52 * d ≤ n) (beyond : k - 53 < e) :
    (2 : ℚ) ^ k ≤ roundHalfEven n d * 2 ^ e ∧ (2 : ℚ) ^ k ≤ n / d * 2 ^ e := by
  have hpos : (0 : ℚ) ≤ 2 ^ e := zpow_nonneg (by norm_num) e
  have hr : (2 : ℚ) ^ 52 ≤ roundHalfEven n d := by
    exact_mod_cast ((Nat.le_div_iff_mul_le hd).mpr hlow).trans (le_roundHalfEven n d)
  have hx : (2 : ℚ) ^ 52 ≤ n / d := by
    rw [le_div_iff₀ (Nat.cast_pos.mpr hd)]
    exact_mod_cast hlow
  have htop : (2 : ℚ) ^ k ≤ 2 ^ 52 * 2 ^ e := by
    rw [← zpow_natCast, ← zpow_add₀ (by norm_num)]
    exact zpow_le_zpow_right₀ (by norm_num) (by push_cast; omega)
  exact ⟨htop.trans (mul_le_mul_of_nonneg_right hr hpos),
    htop.trans (mul_le_mul_of_nonneg_right hx hpos)⟩

/-- On the grid of a power a mantissa is rounded up to it from half a step below. -/
theorem two_pow_le_mant_iff_of_eq {n d : Nat} (hd : 0 < d) :
    (2 : ℚ) ^ k ≤ roundHalfEven n d * 2 ^ (k - 53) ↔
      (2 : ℚ) ^ k - 2 ^ (k - 54) ≤ n / d * 2 ^ (k - 53) := by
  have hpos : (0 : ℚ) < 2 ^ (k - 53) := zpow_pos (by norm_num) _
  have hwhole : (2 : ℚ) ^ k = 2 ^ 53 * 2 ^ (k - 53) := by
    rw [← zpow_natCast, ← zpow_add₀ (by norm_num)]
    congr 1
    push_cast
    ring
  have hmiddle : (2 : ℚ) ^ k - 2 ^ (k - 54) = (2 ^ 53 - 1 / 2) * 2 ^ (k - 53) := by
    rw [hwhole, show k - 53 = 1 + (k - 54) by ring, zpow_one_add₀ (by norm_num)]
    ring
  rw [hmiddle, hwhole, mul_le_mul_iff_left₀ hpos, mul_le_mul_iff_left₀ hpos,
    le_div_iff₀ (Nat.cast_pos.mpr hd)]
  have hround : 2 ^ 53 ≤ roundHalfEven n d ↔ 2 * 2 ^ 53 * d ≤ 2 * n + d :=
    le_roundHalfEven_iff hd (by norm_num) (by norm_num)
  have hcast : (2 ^ 53 - 1 / 2 : ℚ) * d ≤ n ↔ 2 * 2 ^ 53 * d ≤ 2 * n + d := by
    rw [← Nat.cast_le (α := ℚ)]
    push_cast
    constructor <;> intro h <;> linarith
  rw [hcast, ← hround]
  norm_cast

/-- Where a mantissa of at most 53 bits, or of all of them, is rounded so. -/
theorem two_pow_le_mant_iff {n d : Nat} (hd : 0 < d) (hk : -1021 ≤ k) (hhigh : n < 2 ^ 53 * d)
    (hlow : -1074 < e → 2 ^ 52 * d ≤ n) :
    (2 : ℚ) ^ k ≤ roundHalfEven n d * 2 ^ e ↔ (2 : ℚ) ^ k - 2 ^ (k - 54) ≤ n / d * 2 ^ e := by
  have hpow (i : Int) : (0 : ℚ) < 2 ^ i := zpow_pos (by norm_num) i
  rcases lt_trichotomy e (k - 53) with below | rfl | beyond
  · obtain ⟨hr, hx⟩ := mant_le_of_lt hd hhigh below
    have hhalf : (2 : ℚ) ^ k = 2 * 2 ^ (k - 1) := by
      rw [← zpow_one_add₀ (by norm_num)]
      congr 1
      ring
    have hstep : (2 : ℚ) ^ (k - 54) < 2 ^ (k - 1) := zpow_lt_zpow_right₀ (by norm_num) (by omega)
    have := hpow (k - 1)
    apply iff_of_false <;> linarith
  · exact two_pow_le_mant_iff_of_eq hd
  · obtain ⟨hr, hx⟩ := le_mant_of_lt hd (hlow (by omega)) beyond
    have := hpow (k - 54)
    exact iff_of_true hr (by linarith)

/-- Where a fraction is rounded to a power of two or beyond. -/
theorem two_pow_le_round_iff (hd : 0 < den) (hk : -1021 ≤ k) :
    (2 : ℚ) ^ k ≤ (round num den).value ↔ (2 : ℚ) ^ k - 2 ^ (k - 54) ≤ num / den := by
  have hpow (i : Int) : (0 : ℚ) < 2 ^ i := zpow_pos (by norm_num) i
  rcases Nat.eq_zero_or_pos num with rfl | hn
  · have hbelow : (2 : ℚ) ^ (k - 54) < 2 ^ k := zpow_lt_zpow_right₀ (by norm_num) (by omega)
    simp only [round, if_pos, value_zero, Nat.cast_zero, zero_div]
    exact iff_of_false (not_le.mpr (hpow k)) (not_le.mpr (sub_pos.mpr hbelow))
  set e := gridExponent num den
  obtain ⟨hhigh, hlow⟩ := gridExponent_spec hn hd
  have hden : (0 : ℚ) < (scaled num den e).2 := Nat.cast_pos.mpr (scaled_den_pos hd num e)
  have hvalue : (num / den : ℚ) =
      (scaled num den e).1 / (scaled num den e).2 * 2 ^ e := by
    rw [scaled_eq, div_mul_cancel₀ _ (hpow e).ne']
  rw [value_round hn, hvalue]
  refine two_pow_le_mant_iff (scaled_den_pos hd num e) hk ?_ fun he => ?_
  · rw [hvalue, add_comm, zpow_add₀ (by norm_num), mul_lt_mul_iff_left₀ (hpow e),
      div_lt_iff₀ hden] at hhigh
    exact_mod_cast hhigh
  · have hle := hlow he
    rw [hvalue, add_comm, zpow_add₀ (by norm_num), mul_le_mul_iff_left₀ (hpow e),
      le_div_iff₀ hden] at hle
    exact_mod_cast hle

end

end Binary64

namespace Duration

/-- The least number of milliseconds whose seconds are rounded to more than 64 bits. -/
def millisLimit : ℚ := 1000 * (2 ^ 64 - 2 ^ 10)

theorem ofMillis64?_eq_none_iff_secs {ms : Binary64} :
    ofMillis64? ms = none ↔ (2 : ℚ) ^ 64 ≤ (ms / Binary64.ofNat 1000).value := by
  -- The definition is opened before it is applied: an application would be evaluated.
  suffices opened : ∀ f, f = ofMillis64? →
      (f ms = none ↔ (2 : ℚ) ^ 64 ≤ (ms / Binary64.ofNat 1000).value) from opened _ rfl
  delta ofMillis64?
  rintro f rfl
  beta_reduce
  generalize ms / Binary64.ofNat 1000 = secs
  conv_lhs => zeta
  have hden : (0 : ℚ) < secs.ratio.2 := Nat.cast_pos.mpr secs.ratio_den_pos
  rw [← secs.ratio_eq, le_div_iff₀ hden]
  generalize secs.ratio = parts
  obtain ⟨num, den⟩ := parts
  have hfull : (2 : ℚ) ^ 64 * den ≤ num ↔ UInt64.size * den ≤ num := by
    rw [← Nat.cast_le (α := ℚ), UInt64.size]
    norm_num
  rw [hfull]
  dsimp only
  split_ifs with h <;> simp [h]

theorem ofMillis64?_eq_none_iff {ms : Binary64} :
    ofMillis64? ms = none ↔ millisLimit ≤ ms.value := by
  have hthousand : (Binary64.ofNat 1000).ratio = (0x1f400000000000, 0x80000000000) := rfl
  have hsecs : ms / Binary64.ofNat 1000 =
      .round (ms.ratio.1 * 0x80000000000) (ms.ratio.2 * 0x1f400000000000) := by
    change Binary64.div _ _ = _
    rw [Binary64.div, hthousand]
  have hpos : 0 < ms.ratio.2 * 0x1f400000000000 := Nat.mul_pos ms.ratio_den_pos (by decide)
  have hlimit : (2 : ℚ) ^ (64 : Int) ≤ (Binary64.round (ms.ratio.1 * 0x80000000000)
      (ms.ratio.2 * 0x1f400000000000)).value ↔ _ :=
    Binary64.two_pow_le_round_iff hpos (by decide)
  have hden : (0 : ℚ) < ms.ratio.2 := Nat.cast_pos.mpr ms.ratio_den_pos
  have hquot : ((ms.ratio.1 * 0x80000000000 : Nat) : ℚ) /
      (ms.ratio.2 * 0x1f400000000000 : Nat) = ms.value / 1000 := by
    rw [← ms.ratio_eq]
    push_cast
    field_simp
    ring
  rw [hquot, le_div_iff₀ (by norm_num)] at hlimit
  rw [ofMillis64?_eq_none_iff_secs, hsecs, ← zpow_natCast, millisLimit]
  refine hlimit.trans ?_
  norm_num

end Duration

end HopTrace
