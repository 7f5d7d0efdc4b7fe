import HopTrace.Proofs.Json.Places
import HopTrace.Proofs.Number.Rounding
import HopTrace.Replay

/-!
# Which texts nobody can load

A table is loaded or rejected, unless the loader comes to a time that is too
long for a span. What such a time is depends on the value of its literal alone.
-/

namespace HopTrace

open HopTrace.Json

def Json.Number.double : Number → ℚ
  | .whole i => if i < 0 then -(Binary64.ofNat i.natAbs).value else (Binary64.ofNat i.natAbs).value
  | .real negative x => if negative then -x.value else x.value

/-! ## Times -/

namespace Hop

variable {s rest : List Char} {n : Number}

/-- What becomes of a literal: the sign is looked at, and then whether a span can hold the rest. -/
theorem scanRtt_eq_of_number (h : number s = .ok (n, rest)) :
    ∃ negative ms, n.double = (if negative then -ms.value else ms.value) ∧
      (negative = true ∧ (!ms.isZero) = true → scanRtt s = .ok (none, rest)) ∧
      (¬ (negative = true ∧ (!ms.isZero) = true) →
        (∀ d, Duration.ofMillis64? ms = some d → scanRtt s = .ok (some d, rest)) ∧
          (Duration.ofMillis64? ms = none → scanRtt s = .error .spanTooLong)) := by
  rw [scanRtt, h]
  cases n with
  | whole i =>
    refine ⟨decide (i < 0), .ofNat i.natAbs, by simp [Number.double], fun below => if_pos below,
      fun above => ?_⟩
    dsimp only [bind, Except.bind]
    rw [if_neg above]
    exact ⟨fun d hd => by rw [hd]; rfl, fun hd => by rw [hd]⟩
  | real negative x =>
    refine ⟨negative, x, rfl, fun below => if_pos below, fun above => ?_⟩
    dsimp only [bind, Except.bind]
    rw [if_neg above]
    exact ⟨fun d hd => by rw [hd]; rfl, fun hd => by rw [hd]⟩

/-- A literal is read as a span if it is not negative, as none if it is, and is too long from
some value on. -/
theorem scanRtt_of_number (h : number s = .ok (n, rest)) :
    (Duration.millisLimit ≤ n.double ∧ scanRtt s = .error .spanTooLong) ∨
      n.double < Duration.millisLimit ∧
        ∃ rtt, scanRtt s = .ok (rtt, rest) ∧ (rtt = none ↔ n.double < 0) := by
  obtain ⟨negative, ms, hdouble, hbelow, habove⟩ := scanRtt_eq_of_number h
  have hlimit : 0 < Duration.millisLimit := by norm_num [Duration.millisLimit]
  have hnonneg := ms.value_nonneg
  rw [hdouble]
  by_cases below : negative = true ∧ (!ms.isZero) = true
  · have hne : ms.value ≠ 0 := by
      rw [Ne, Binary64.value_eq_zero_iff]
      simpa using below.2
    have hpos : 0 < ms.value := lt_of_le_of_ne hnonneg hne.symm
    rw [if_pos below.1]
    exact .inr ⟨by linarith, none, hbelow below, iff_of_true rfl (by linarith)⟩
  · have hvalue : (if negative = true then -ms.value else ms.value) = ms.value := by
      split_ifs with hneg
      · have hzero : ms.value = 0 := by
          rw [Binary64.value_eq_zero_iff]
          simpa [hneg] using below
        rw [hzero, neg_zero]
      · rfl
    obtain ⟨held, lost⟩ := habove below
    rw [hvalue]
    cases hspan : Duration.ofMillis64? ms with
    | none => exact .inl ⟨Duration.ofMillis64?_eq_none_iff.mp hspan, lost hspan⟩
    | some d =>
      have hlt : ms.value < Duration.millisLimit := by
        rw [← not_le, ← Duration.ofMillis64?_eq_none_iff, hspan]
        simp
      exact .inr ⟨hlt, some d, held d hspan, iff_of_false (by simp) (not_lt.mpr hnonneg)⟩

theorem scanRtt_spanTooLong_iff : scanRtt s = .error .spanTooLong ↔
    ∃ n rest, number s = .ok (n, rest) ∧ Duration.millisLimit ≤ n.double := by
  cases h : number s with
  | error e =>
    have hscan : scanRtt s = .error e := by
      rw [scanRtt, h]
      rfl
    have hsafe := (reads_number s).ne_spanTooLong
    rw [h] at hsafe
    rw [hscan]
    refine iff_of_false (fun he => hsafe ?_) (by simp)
    cases he
    rfl
  | ok read =>
    obtain ⟨n, rest⟩ := read
    have hread : (∃ n' rest', Except.ok (n, rest) = (.ok (n', rest') : Except Failure _) ∧
        Duration.millisLimit ≤ n'.double) ↔ Duration.millisLimit ≤ n.double := by
      simp
    rw [hread]
    rcases scanRtt_of_number h with ⟨hle, hscan⟩ | ⟨hlt, rtt, hscan, -⟩
    · exact iff_of_true hscan hle
    · rw [hscan]
      exact iff_of_false (by simp) (not_le.mpr hlt)

theorem reads_scanRtt (s : List Char) : Reads True s (scanRtt s) := by
  cases h : number s with
  | error e =>
    rw [scanRtt, h]
    cases e <;> trivial
  | ok read =>
    have hrest : Reads False s (.ok read) := h ▸ reads_number s
    rcases scanRtt_of_number h with ⟨-, hscan⟩ | ⟨-, rtt, hscan, -⟩
    · rw [hscan]
      trivial
    · rw [hscan]
      exact hrest

/-- A time may be left out with a word that is not a number. -/
theorem optional_scanRtt_spanTooLong_iff : Json.optional scanRtt s = .error .spanTooLong ↔
    ∃ n rest, number s = .ok (n, rest) ∧ Duration.millisLimit ≤ n.double := by
  rw [← scanRtt_spanTooLong_iff]
  unfold Json.optional
  split
  next s =>
    refine iff_of_false (Reads.ne_spanTooLong (s := s) ?_) ?_
    · exact (skips_word _ _).bind_reads fun rest => rest.suffix_refl
    · rw [scanRtt_spanTooLong_iff]
      rintro ⟨n, rest, hnumber, -⟩
      cases hnumber
  next =>
    exact bind_eq_error_iff_left (by rintro _ ⟨⟩)

/-! ## Hops -/

theorem reads_scanAddress (s : List Char) : Reads False s (scanAddress s) := by
  unfold scanAddress
  refine (reads_string s).bind fun t rest => ?_
  dsimp only
  split
  · exact rest.suffix_refl
  · trivial

def TooLong (place : List Char) : Prop :=
  ∃ n rest, number place = .ok (n, rest) ∧ Duration.millisLimit ≤ n.double

/-- Of the fields of a hop only the time can be too long. -/
theorem field_cases {field : String × (Draft → List Char → Except Failure (Draft × List Char))}
    (h : field ∈ reader.fields) :
    field.1 ≠ "rtt_ms" ∧ (∀ draft s, Reads False s (field.2 draft s)) ∨
      field.1 = "rtt_ms" ∧ ∀ draft s, Reads True s (field.2 draft s) ∧
        (field.2 draft s = .error .spanTooLong ↔ TooLong s) := by
  simp only [reader, List.mem_cons, List.not_mem_nil, or_false] at h
  rcases h with rfl | rfl | rfl | rfl
  · refine .inl ⟨by decide, fun draft s => (reads_bool s).bind fun x rest => ?_⟩
    exact rest.suffix_refl
  · refine .inl ⟨by decide, fun draft s => ?_⟩
    refine (reads_optional reads_scanAddress s).bind fun x rest => ?_
    exact rest.suffix_refl
  · refine .inl ⟨by decide, fun draft s => (reads_natural 0xffff s).bind fun x rest => ?_⟩
    exact rest.suffix_refl
  · refine .inr ⟨rfl, fun draft s => ⟨(reads_optional reads_scanRtt s).bind fun x rest => ?_, ?_⟩⟩
    · exact rest.suffix_refl
    · refine (bind_eq_error_iff_left (by rintro _ ⟨⟩)).trans ?_
      rw [optional_scanRtt_spanTooLong_iff, TooLong]

theorem reads_fields {field : String × (Draft → List Char → Except Failure (Draft × List Char))}
    (h : field ∈ reader.fields) (draft : Draft) (s : List Char) :
    Reads True s (field.2 draft s) := by
  rcases field_cases h with ⟨-, reads⟩ | ⟨-, time⟩
  · exact (reads draft s).mono
  · exact (time draft s).1

theorem reads_scan (s : List Char) : Reads True s (scan s) := by
  unfold scan
  refine (reads_read (fun _ => reads_fields) {} s).bind fun draft rest => ?_
  dsimp only
  split
  · exact rest.suffix_refl
  · trivial

theorem member_spanTooLong_iff {draft : Draft} {key place : List Char} :
    reader.member draft key place = .error .spanTooLong ↔
      key = "rtt_ms".toList ∧ draft.rtt = none ∧ TooLong place := by
  unfold RecordReader.member
  split
  next unknown =>
    refine iff_of_false (Reads.ne_spanTooLong (s := place) ?_) ?_
    · exact (skips_value place).bind_reads fun rest => rest.suffix_refl
    · rintro ⟨rfl, -⟩
      simp [reader] at unknown
  next name step found =>
    have hkey : name.toList = key := by simpa using List.find?_some found
    rcases field_cases (List.mem_of_find?_eq_some found) with ⟨hother, reads⟩ | ⟨hname, time⟩
    · have hne : key ≠ "rtt_ms".toList := by
        rintro rfl
        exact hother (String.toList_injective hkey)
      refine iff_of_false ?_ fun h => hne h.1
      split
      · simp
      · exact (reads draft place).ne_spanTooLong
    · obtain rfl : name = "rtt_ms" := hname
      have hpresent : reader.present draft "rtt_ms" = draft.rtt.isSome := rfl
      rw [hpresent, ← hkey, and_iff_right rfl, ← (time draft place).2]
      cases draft.rtt <;> simp

theorem getElem?_fields {i : Nat}
    {field : String × (Draft → List Char → Except Failure (Draft × List Char))}
    (h : reader.fields[i]? = some field) : field.1 = "rtt_ms" ↔ i = 3 := by
  rcases i with _ | _ | _ | _ | i
  all_goals
    cases h
    try simp

theorem element_spanTooLong_iff {draft : Draft} {i : Nat} {place : List Char} :
    reader.element (draft, i) place = .error .spanTooLong ↔ i = 3 ∧ TooLong place := by
  unfold RecordReader.element
  split
  next beyond =>
    refine iff_of_false (by simp) ?_
    rintro ⟨rfl, -⟩
    cases beyond
  next name step found =>
    rw [← getElem?_fields found, bind_eq_error_iff_left (by rintro _ ⟨⟩)]
    rcases field_cases (List.mem_of_getElem? found) with ⟨hother, reads⟩ | ⟨hname, time⟩
    · exact iff_of_false (reads draft place).ne_spanTooLong fun h => hother h.1
    · rw [and_iff_right hname]
      exact (time draft place).2

theorem not_tooLong_nil : ¬ TooLong [] := by
  rintro ⟨n, rest, h, -⟩
  cases h

theorem element_nil (st : Draft × Nat) : reader.element st [] ≠ .error .spanTooLong :=
  fun h => not_tooLong_nil (element_spanTooLong_iff.mp h).2

theorem element_closing (st : Draft × Nat) (rest : List Char) :
    reader.element st (']' :: rest) = .error .malformed := by
  have hfield : ∀ field ∈ reader.fields, ∀ draft : Draft,
      field.2 draft (']' :: rest) = .error .malformed := by
    intro field h draft
    simp only [reader, List.mem_cons, List.not_mem_nil, or_false] at h
    rcases h with rfl | rfl | rfl | rfl <;> rfl
  unfold RecordReader.element
  split
  · rfl
  next name step found =>
    have hstep : step st.1 (']' :: rest) = .error .malformed :=
      hfield _ (List.mem_of_getElem? found) st.1
    rw [hstep]
    rfl

/-- Whether the reader of a hop comes to a time that it does not know yet. -/
def TimeAt : List Char → List Char → Prop
  | '\x7b' :: rest, place => ∃ draft : Draft, draft.rtt = none ∧
      MemberAt stringTail reader.member {} rest draft "rtt_ms".toList place
  | '[' :: rest, place => ∃ draft, ElementAt reader.element ({}, 0) rest (draft, 3) place
  | _, _ => False

theorem scan_spanTooLong_iff : scan s = .error .spanTooLong ↔
    ∃ place, TimeAt s place ∧ TooLong place := by
  have hread : scan s = .error .spanTooLong ↔ reader.read {} s = .error .spanTooLong := by
    apply bind_eq_error_iff_left
    rintro ⟨draft, rest⟩ h
    dsimp only at h
    split at h <;> cases h
  rw [hread]
  unfold RecordReader.read TimeAt
  split
  next rest =>
    rw [objectTail_spanTooLong_iff reads_stringTail (reads_member fun _ => reads_fields)]
    simp only [member_spanTooLong_iff]
    constructor
    · rintro ⟨draft, key, place, hat, rfl, fresh, too⟩
      exact ⟨place, ⟨draft, fresh, hat⟩, too⟩
    · rintro ⟨place, ⟨draft, fresh, hat⟩, too⟩
      exact ⟨draft, _, place, hat, rfl, fresh, too⟩
  next rest =>
    rw [bind_eq_error_iff_left (by rintro _ ⟨⟩),
      arrayTail_spanTooLong_iff (reads_element fun _ => reads_fields) element_nil element_closing]
    simp only [Prod.exists, element_spanTooLong_iff]
    constructor
    · rintro ⟨draft, i, place, hat, rfl, too⟩
      exact ⟨place, ⟨draft, hat⟩, too⟩
    · rintro ⟨place, ⟨draft, hat⟩, too⟩
      exact ⟨draft, 3, place, hat, rfl, too⟩
  next hobject harray =>
    refine iff_of_false (by simp) ?_
    rintro ⟨place, h, -⟩
    split at h
    · exact hobject _ rfl
    · exact harray _ rfl
    · exact h

end Hop

/-! ## Tables -/

namespace HopTable

open HopTrace.Hop (TooLong)

variable {s : List Char} {text : String}

theorem reads_scanKey (s : List Char) : Reads False s (scanKey s) := by
  unfold scanKey
  split
  · trivial
  next c rest =>
    split
    · refine (reads_natural 0xffff (c :: rest)).bind fun n after => ?_
      dsimp only
      split
      · exact List.suffix_cons ..
      · trivial
    · trivial

theorem reads_scanHop (hops : List Hop) (s : List Char) : Reads True s (scanHop hops s) := by
  unfold scanHop
  refine (Hop.reads_scan s).bind fun h rest => ?_
  exact rest.suffix_refl

theorem scanHop_spanTooLong_iff {hops : List Hop} {place : List Char} :
    scanHop hops place = .error .spanTooLong ↔ Hop.scan place = .error .spanTooLong := by
  exact bind_eq_error_iff_left (by rintro _ ⟨⟩)

theorem reads_scanHops (s : List Char) : Reads True s (scanHops s) := by
  unfold scanHops
  split
  next rest =>
    refine Reads.of_suffix ?_ (List.suffix_cons ..)
    refine (reads_arrayTail reads_scanHop [] rest).bind fun hops after => ?_
    exact after.suffix_refl
  next => trivial

theorem scanHops_spanTooLong_iff : scanHops s = .error .spanTooLong ↔ ∃ rest hops hop,
    s = '[' :: rest ∧ ElementAt scanHop [] rest hops hop ∧ Hop.scan hop = .error .spanTooLong := by
  unfold scanHops
  split
  next rest =>
    have hnil (hops : List Hop) : scanHop hops [] ≠ .error .spanTooLong := nofun
    rw [bind_eq_error_iff_left (by rintro _ ⟨⟩),
      arrayTail_spanTooLong_iff reads_scanHop hnil fun _ _ => rfl]
    simp only [scanHop_spanTooLong_iff, List.cons.injEq, true_and]
    constructor
    · rintro ⟨hops, hop, hat, too⟩
      exact ⟨rest, hops, hop, rfl, hat, too⟩
    · rintro ⟨_, hops, hop, rfl, hat, too⟩
      exact ⟨hops, hop, hat, too⟩
  next hother =>
    refine iff_of_false (by simp) ?_
    rintro ⟨rest, _, _, rfl, -⟩
    exact hother rest rfl

theorem reads_scanRow (t : HopTable) (ttl : UInt16) (s : List Char) :
    Reads True s (scanRow t ttl s) := by
  unfold scanRow
  refine (reads_scanHops s).bind fun hops rest => ?_
  exact rest.suffix_refl

theorem scanRow_spanTooLong_iff {t : HopTable} {ttl : UInt16} :
    scanRow t ttl s = .error .spanTooLong ↔ scanHops s = .error .spanTooLong := by
  exact bind_eq_error_iff_left (by rintro _ ⟨⟩)

def TimeAt (s place : List Char) : Prop :=
  ∃ rest t ttl row hops hop, skipSpace s = '\x7b' :: rest ∧
    MemberAt scanKey scanRow empty rest t ttl ('[' :: row) ∧
    ElementAt scanHop [] row hops hop ∧ Hop.TimeAt hop place

theorem scan_spanTooLong_iff : scan (skipSpace s) = .error .spanTooLong ↔
    ∃ place, TimeAt s place ∧ TooLong place := by
  unfold scan TimeAt
  split
  next rest hs =>
    rw [objectTail_spanTooLong_iff reads_scanKey reads_scanRow, hs]
    simp only [scanRow_spanTooLong_iff, scanHops_spanTooLong_iff, Hop.scan_spanTooLong_iff]
    constructor
    · rintro ⟨t, ttl, _, hrow, row, hops, hop, rfl, hhop, place, htime, too⟩
      exact ⟨place, ⟨rest, t, ttl, row, hops, hop, rfl, hrow, hhop, htime⟩, too⟩
    · rintro ⟨place, ⟨_, t, ttl, row, hops, hop, hrest, hrow, hhop, htime⟩, too⟩
      obtain ⟨-, rfl⟩ := List.cons.inj hrest
      exact ⟨t, ttl, _, hrow, row, hops, hop, rfl, hhop, place, htime, too⟩
  next hother =>
    refine iff_of_false (by simp) ?_
    rintro ⟨place, ⟨rest, _, _, _, _, _, hs, -⟩, -⟩
    exact hother rest hs

theorem ofText_spanTooLong_iff : ofText text = .error .spanTooLong ↔
    ∃ place, TimeAt text.toList place ∧ TooLong place := by
  rw [← scan_spanTooLong_iff]
  apply bind_eq_error_iff_left
  rintro ⟨t, rest⟩ h
  dsimp only at h
  rcases bind_eq_error_iff.mp h with hfinish | ⟨_, -, h⟩
  · unfold finish at hfinish
    split at hfinish <;> cases hfinish
  · cases h

/-- A text is loaded or rejected, unless the loader comes to a time whose literal has a value from
the limit on. Only then a reduction ends without answer, before any hook is fired. Every other
literal is read as a span, or as none if it is negative. -/
theorem load_fails_iff (text : String) :
    (load text = .error .spanTooLong ↔ ∃ place, TimeAt text.toList place ∧ TooLong place) ∧
    ((∃ t, load text = .ok t) ∨ load text = .error .spanTooLong ∨
      load text = .error (.rejected (.invalidConfig "Invalid hop table"))) ∧
    (∀ destination maxHops plugins, load text = .error .spanTooLong →
      reduceText text destination maxHops plugins = { result := .error .spanTooLong, plugins }) ∧
    ∀ place n rest, number place = .ok (n, rest) →
      (Duration.millisLimit ≤ n.double ∧ Hop.scanRtt place = .error .spanTooLong) ∨
        n.double < Duration.millisLimit ∧
          ∃ rtt, Hop.scanRtt place = .ok (rtt, rest) ∧ (rtt = none ↔ n.double < 0) := by
  refine ⟨?_, ?_, ?_, fun place n rest => Hop.scanRtt_of_number⟩
  · rw [← ofText_spanTooLong_iff, load]
    split
    next h => simp [h]
    next h => simp [h]
    next h => simp [h]
  · unfold load
    split
    · exact .inl ⟨_, rfl⟩
    · exact .inr (.inr rfl)
    · exact .inr (.inl rfl)
  · intro destination maxHops plugins fails
    unfold reduceText
    rw [fails]

def longTime : String := "\x7b\"1\":[\x7b\"rtt_ms\":2e22\x7d]\x7d"

theorem load_fails_iff_long :
    (∃ place, TimeAt longTime.toList place ∧ TooLong place) ∧
    reduceText longTime (.v4 ⟨192, 0, 2, 1⟩) 30 {} =
      { result := .error .spanTooLong, plugins := {} } ∧
    ∃ d, Hop.scanRtt "1e22".toList = .ok (some d, []) := by
  have fails : load longTime = .error .spanTooLong := rfl
  obtain ⟨iff, -, reduced, read⟩ := load_fails_iff longTime
  refine ⟨iff.mp fails, reduced _ _ _ fails, ?_⟩
  have hnumber : number "1e22".toList = .ok (.real false ⟨0x10f0cf064dd592, 21⟩, []) := rfl
  have hvalue : (Number.real false ⟨0x10f0cf064dd592, 21⟩).double = 10 ^ 22 := by
    norm_num [Number.double, Binary64.value]
  rcases read _ _ _ hnumber with ⟨hle, -⟩ | ⟨-, rtt, hrtt, hnone⟩
  · rw [hvalue, Duration.millisLimit] at hle
    norm_num at hle
  · cases rtt with
    | none =>
      have hneg := hnone.mp rfl
      rw [hvalue] at hneg
      norm_num at hneg
    | some d => exact ⟨d, hrtt⟩

end HopTable

end HopTrace
