import HopTrace.Params.Codec
import HopTrace.Proofs.Json.ReadBack
import HopTrace.Proofs.Validity

/-!
# Parameters read back

Parameters that are saved and read again are the same but for their two times,
of which whole milliseconds are left, as far as 64 bits hold them. A timeout of
which nothing is left makes valid parameters invalid.
-/

namespace HopTrace

open HopTrace.Json

/-! ## Times -/

namespace Duration

variable {d : Duration}

def saved (d : Duration) : Duration := .ofMillis (d.millis % UInt64.size)

def IsMillis (d : Duration) : Prop := ∃ n < UInt64.size, d = .ofMillis n

theorem millis_ofMillis (n : Nat) : (ofMillis n).millis = n :=
  Nat.mul_div_cancel n (by decide)

theorem saved_eq_iff : d.saved = d ↔ d.IsMillis := by
  constructor
  · intro h
    exact ⟨d.millis % UInt64.size, Nat.mod_lt _ (by decide), h.symm⟩
  · rintro ⟨n, hn, rfl⟩
    rw [saved, millis_ofMillis, Nat.mod_eq_of_lt hn]

theorem isZero_saved_iff : d.saved.isZero = true ↔ d.millis % UInt64.size = 0 := by
  rw [saved, ofMillis, isZero, beq_iff_eq, Nat.mul_eq_zero, or_iff_left (by decide)]

end Duration

namespace Params

/-! ## The text -/

def saved (p : Params) : Params :=
  { p with timeout := p.timeout.saved, ttlInterval := p.ttlInterval.saved }

theorem takes_natural16 (n : UInt16) : Takes natural16 (.nat n.toNat) n := by
  have takes := (takes_uint16 n).map UInt16.ofNat
  rwa [UInt16.ofNat_toNat] at takes

theorem takes_word (n : UInt64) : Takes natural64 (.nat n.toNat) n.toNat :=
  takes_natural (Nat.le_of_lt_succ n.toNat_lt) (Nat.le_refl _)

theorem takes_time (d : Duration) : Takes natural64 (.nat (storedMillis d)) (storedMillis d) :=
  takes_natural (Nat.le_of_lt_succ (Nat.mod_lt _ (by decide))) (Nat.le_refl _)

def draftOf (p : Params) : Draft where
  beginHop := some p.beginHop
  maxHops := some p.maxHops
  numMeasurements := some p.numMeasurements
  parallelRequests := some (UInt64.ofNat p.parallelRequests.toNat)
  timeout := some p.timeout.saved
  ttlInterval := some p.ttlInterval.saved

theorem takes_params (p : Params) : Takes (reader.read {}) p.toDoc p.draftOf := by
  apply takes_record
  refine .cons (names_stringTail _) (takes_field (fun draft n => { draft with beginHop := some n })
    rfl rfl (takes_natural16 p.beginHop)) ?_
  refine .cons (names_stringTail _) (takes_field (fun draft n => { draft with maxHops := some n })
    rfl rfl (takes_natural16 p.maxHops)) ?_
  refine .cons (names_stringTail _) (takes_field
    (fun draft n => { draft with numMeasurements := some n })
    rfl rfl (takes_natural16 p.numMeasurements)) ?_
  refine .cons (names_stringTail _) (takes_field
    (fun draft n => { draft with parallelRequests := some (.ofNat n) })
    rfl rfl (takes_word p.parallelRequests)) ?_
  refine .cons (names_stringTail _) (takes_field
    (fun draft n => { draft with timeout := some (.ofMillis n) })
    rfl rfl (takes_time p.timeout)) ?_
  refine .cons (names_stringTail _) (takes_field
    (fun draft n => { draft with ttlInterval := some (.ofMillis n) })
    rfl rfl (takes_time p.ttlInterval)) ?_
  exact .nil _

theorem complete_draftOf (p : Params) : p.draftOf.complete = p.saved := by
  simp [draftOf, Draft.complete, saved]

theorem writtenAs_compact (p : Params) : p.toDoc.WrittenAs p.compact := p.toDoc.writtenAs_compact

theorem ofText_written {p : Params} {text : String} (written : p.toDoc.WrittenAs text) :
    ofText text = .ok p.saved := by
  have hread : ofText text = .ok p.draftOf.complete := p.takes_params.whole written Draft.complete
  rw [hread, complete_draftOf]

theorem saved_eq_self_iff {p : Params} :
    p.saved = p ↔ p.timeout.IsMillis ∧ p.ttlInterval.IsMillis := by
  rw [← Duration.saved_eq_iff, ← Duration.saved_eq_iff]
  constructor
  · intro h
    exact ⟨congrArg timeout h, congrArg ttlInterval h⟩
  · rintro ⟨ht, hi⟩
    rw [saved, ht, hi]

/-- Parameters are read back from each of their texts with all fields but the times as they were,
and of each time its whole milliseconds, as far as 64 bits hold them. They are the same as before
exactly if both times are such numbers of milliseconds. -/
theorem read_of_saved (p : Params) :
    (∀ text, p.toDoc.WrittenAs text → ofText text = .ok
      { p with
        timeout := .ofMillis (p.timeout.millis % UInt64.size)
        ttlInterval := .ofMillis (p.ttlInterval.millis % UInt64.size) }) ∧
    p.toDoc.WrittenAs p.compact ∧
    (ofText p.compact = .ok p ↔ p.timeout.IsMillis ∧ p.ttlInterval.IsMillis) := by
  refine ⟨fun text => ofText_written, p.writtenAs_compact, ?_⟩
  rw [ofText_written p.writtenAs_compact, ← saved_eq_self_iff, Except.ok.injEq]

def uneven : Params := { timeout := ⟨1500000⟩, ttlInterval := .ofMillis (UInt64.size + 7) }

theorem read_of_saved_uneven :
    ofText (uneven.compact ++ "\n") =
      .ok { uneven with timeout := .ofMillis 1, ttlInterval := .ofMillis 7 } ∧
    ofText uneven.compact ≠ .ok uneven := by
  obtain ⟨read, written, same⟩ := read_of_saved uneven
  refine ⟨read _ written.newline, fun h => ?_⟩
  obtain ⟨⟨n, -, hn⟩, -⟩ := same.mp h
  have hnanos : 1500000 = n * 1000000 := congrArg Duration.nanos hn
  omega

/-! ## Validity -/

theorem fault?_saved {p : Params} (valid : p.Valid) :
    p.saved.fault? = if p.timeout.millis % UInt64.size = 0 then
      some (.invalidConfig "timeout must be non-zero") else none := by
  obtain ⟨⟨hbegin, hle⟩, hnum, hparallel, -⟩ := valid_iff.mp valid
  have hrange : ¬ (p.saved.beginHop = 0 ∨ p.saved.maxHops < p.saved.beginHop) :=
    not_or.mpr ⟨hbegin, UInt16.not_lt.mpr hle⟩
  have hprobes : ¬ p.saved.numMeasurements = 0 := hnum
  have hroom : ¬ p.saved.parallelRequests = 0 := hparallel
  rw [fault?, if_neg hrange, if_neg hprobes, if_neg hroom]
  exact if_congr Duration.isZero_saved_iff rfl rfl

/-- Valid parameters that are saved and read again are valid as long as there is something left of
their timeout, as there is of every timeout from one millisecond to what 64 bits hold. If nothing is
left, that is what they are rejected for. -/
theorem validity_of_saved (p : Params) (valid : p.Valid) :
    ∃ q, ofText p.compact = .ok q ∧ (q.Valid ↔ p.timeout.millis % UInt64.size ≠ 0) ∧
      (p.timeout.millis % UInt64.size = 0 →
        q.fault? = some (.invalidConfig "timeout must be non-zero")) ∧
      (1 ≤ p.timeout.millis → p.timeout.millis < UInt64.size → q.Valid) := by
  have hfault := fault?_saved valid
  have hvalid : p.saved.Valid ↔ p.timeout.millis % UInt64.size ≠ 0 := by
    rw [Valid, hfault]
    split_ifs with hzero
    · exact iff_of_false nofun fun left => left hzero
    · exact iff_of_true rfl hzero
  refine ⟨p.saved, ofText_written p.writtenAs_compact, hvalid, fun hzero => ?_,
    fun pos fits => ?_⟩
  · rw [hfault, if_pos hzero]
  · rw [hvalid, Nat.mod_eq_of_lt fits]
    exact Nat.ne_of_gt pos

theorem validity_of_saved_uneven :
    ∃ q, ofText uneven.compact = .ok q ∧ q.Valid := by
  obtain ⟨q, read, -, -, valid⟩ := validity_of_saved uneven (by decide)
  exact ⟨q, read, valid (by decide) (by decide)⟩

def brief : Params := { timeout := ⟨500000⟩ }

theorem invalid_of_saved_brief :
    brief.Valid ∧ ∃ q, ofText brief.compact = .ok q ∧ ¬ q.Valid :=
  ⟨by decide, brief.saved, ofText_written brief.writtenAs_compact, by decide⟩

end Params

end HopTrace
