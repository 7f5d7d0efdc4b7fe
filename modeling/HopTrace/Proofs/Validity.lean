import HopTrace.Params.Basic
import Mathlib.Tactic.SplitIfs

/-!
# Valid parameters

Parameters are valid exactly if the hops are a nonempty range that starts at
one or later, and each hop gets a probe, which may be sent and has some time.
-/

namespace HopTrace.Params

variable {p : Params}

theorem valid_iff : p.Valid ↔
    (p.beginHop ≠ 0 ∧ p.beginHop ≤ p.maxHops) ∧ p.numMeasurements ≠ 0 ∧
      p.parallelRequests ≠ 0 ∧ p.timeout.isZero = false := by
  unfold Valid fault?
  split_ifs with h1 h2 h3 h4
  · simp only [false_iff]
    rintro ⟨⟨hb, hm⟩, -⟩
    exact h1.elim hb (UInt16.not_lt.mpr hm)
  · simp [h2]
  · simp [h3]
  · simp [h4]
  · rw [not_or, UInt16.not_lt] at h1
    simpa [h1, h2, h3] using h4

theorem Valid.beginHop_pos (h : p.Valid) : 0 < p.beginHop.toNat := by
  have hb := (valid_iff.mp h).1.1
  exact Nat.pos_of_ne_zero fun he => hb (UInt16.toNat_inj.mp he)

theorem Valid.beginHop_le (h : p.Valid) : p.beginHop.toNat ≤ p.maxHops.toNat :=
  UInt16.le_iff_toNat_le.mp (valid_iff.mp h).1.2

theorem Valid.numMeasurements_pos (h : p.Valid) : 0 < p.numMeasurements.toNat := by
  have hn := (valid_iff.mp h).2.1
  exact Nat.pos_of_ne_zero fun he => hn (UInt16.toNat_inj.mp he)

theorem Valid.parallelRequests_pos (h : p.Valid) : 0 < p.parallelRequests.toNat := by
  have hn := (valid_iff.mp h).2.2.1
  exact Nat.pos_of_ne_zero fun he => hn (UInt64.toNat_inj.mp he)

theorem Valid.timeout_pos (h : p.Valid) : 0 < p.timeout.nanos := by
  have ht := (valid_iff.mp h).2.2.2
  exact Nat.pos_of_ne_zero (by simpa [Duration.isZero] using ht)

end HopTrace.Params
