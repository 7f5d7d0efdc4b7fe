import HopTrace.Proofs.Json.Reading
import Mathlib.Data.List.DropRight

/-!
# The places that a scanner comes to

The elements of an array and the members of an object are read in the order of
the text, each after those before it. So one of them is found to be too long
exactly if it is come to and is too long by itself.
-/

namespace HopTrace.Json

section

variable {σ κ : Type}

/-- From a state and a text, the elements of an array lead to one at the end of a text. -/
inductive ElementAt (step : σ → List Char → Except Failure (σ × List Char)) :
    σ → List Char → σ → List Char → Prop
  | first {st s} : ElementAt step st s st (skipSpace s)
  | next {st st' final s s' rest place} (read : step st (skipSpace s) = .ok (st', s'))
      (comma : skipSpace s' = ',' :: rest) (later : ElementAt step st' rest final place) :
      ElementAt step st s final place

inductive MemberAt (key : Scan κ) (value : σ → κ → List Char → Except Failure (σ × List Char)) :
    σ → List Char → σ → κ → List Char → Prop
  | first {st s k place} (named : memberKey key s = .ok (k, place)) :
      MemberAt key value st s st k place
  | next {st st' final s s' rest k k' start place} (named : memberKey key s = .ok (k, start))
      (read : value st k start = .ok (st', s')) (comma : skipSpace s' = ',' :: rest)
      (later : MemberAt key value st' rest final k' place) : MemberAt key value st s final k' place

end

variable {σ κ : Type} {step : σ → List Char → Except Failure (σ × List Char)}
  {key : Scan κ} {value : σ → κ → List Char → Except Failure (σ × List Char)}
  {fuel : Nat} {st final : σ} {k : κ} {s s' place : List Char}

theorem bind_eq_error_iff {α β : Type} {result : Except Failure α} {next : α → Except Failure β}
    {e : Failure} : (result >>= next) = .error e ↔
      result = .error e ∨ ∃ a, result = .ok a ∧ next a = .error e := by
  cases result with
  | ok a =>
    change next a = _ ↔ _
    simp
  | error e' =>
    change Except.error e' = _ ↔ _
    simp

/-- A failure that does not come from what follows. -/
theorem bind_eq_error_iff_left {α β : Type} {result : Except Failure α}
    {next : α → Except Failure β} {e : Failure} (safe : ∀ a, next a ≠ .error e) :
    (result >>= next) = .error e ↔ result = .error e := by
  rw [bind_eq_error_iff, or_iff_left]
  rintro ⟨a, -, h⟩
  exact safe a h

theorem length_of_read {α : Type} {result : Except Failure (α × List Char)} {a : α}
    (h : Reads True s result) (ok : result = .ok (a, s')) : s'.length ≤ s.length := by
  subst ok
  exact List.IsSuffix.length_le h

theorem length_of_skipSpace {c : Char} {rest : List Char} (h : skipSpace s = c :: rest) :
    rest.length < s.length := by
  have hle := (skipSpace_suffix s).length_le
  rw [h] at hle
  exact hle

theorem skipSpace_skipSpace (s : List Char) : skipSpace (skipSpace s) = skipSpace s :=
  List.dropWhile_idempotent ..

theorem elementAt_iff : ElementAt step st s final place ↔
    (final = st ∧ place = skipSpace s) ∨ ∃ st' s' rest, step st (skipSpace s) = .ok (st', s') ∧
      skipSpace s' = ',' :: rest ∧ ElementAt step st' rest final place := by
  constructor
  · intro h
    cases h with
    | first => exact .inl ⟨rfl, rfl⟩
    | next read comma later => exact .inr ⟨_, _, _, read, comma, later⟩
  · rintro (⟨rfl, rfl⟩ | ⟨_, _, _, read, comma, later⟩)
    · exact .first
    · exact .next read comma later

theorem elements_spanTooLong_iff (reads : ∀ st s, Reads True s (step st s))
    (empty : ∀ st, step st [] ≠ .error .spanTooLong) (enough : s.length ≤ fuel) :
    elements step fuel st s = .error .spanTooLong ↔
      ∃ final place, ElementAt step st s final place ∧ step final place = .error .spanTooLong := by
  induction fuel generalizing st s with
  | zero =>
    obtain rfl : s = [] := List.eq_nil_of_length_eq_zero (Nat.le_zero.mp enough)
    refine iff_of_false (by simp [elements]) ?_
    rintro ⟨final, place, hat, too⟩
    rcases elementAt_iff.mp hat with ⟨rfl, rfl⟩ | ⟨st', s', rest, read, comma, -⟩
    · exact empty _ too
    · have hlt := length_of_skipSpace comma
      have hle := length_of_read (reads st _) read
      simp [skipSpace] at hle
      simp [hle] at hlt
  | succ fuel ih =>
    rw [elements, bind_eq_error_iff]
    constructor
    · rintro (too | ⟨⟨st', s'⟩, read, too⟩)
      · exact ⟨st, _, .first, too⟩
      · dsimp only at too
        split at too
        next rest comma =>
          have hlt := length_of_skipSpace comma
          have hle := length_of_read (reads st _) read
          have hskip := (skipSpace_suffix s).length_le
          obtain ⟨final, place, hat, too⟩ := (ih (by omega)).mp too
          exact ⟨final, place, .next read comma hat, too⟩
        next => cases too
        next => cases too
    · rintro ⟨final, place, hat, too⟩
      rcases elementAt_iff.mp hat with ⟨rfl, rfl⟩ | ⟨st', s', rest, read, comma, later⟩
      · exact .inl too
      · have hlt := length_of_skipSpace comma
        have hle := length_of_read (reads st _) read
        have hskip := (skipSpace_suffix s).length_le
        refine .inr ⟨(st', s'), read, ?_⟩
        simp only [comma]
        exact (ih (by omega)).mpr ⟨final, place, later, too⟩

theorem elementAt_skipSpace : ElementAt step st (skipSpace s) final place ↔
    ElementAt step st s final place := by
  rw [elementAt_iff, skipSpace_skipSpace, ← elementAt_iff]

/-- An array is found to be too long exactly if one of its elements is. -/
theorem arrayTail_spanTooLong_iff (reads : ∀ st s, Reads True s (step st s))
    (empty : ∀ st, step st [] ≠ .error .spanTooLong)
    (closing : ∀ st rest, step st (']' :: rest) = .error .malformed) :
    arrayTail step st s = .error .spanTooLong ↔
      ∃ final place, ElementAt step st s final place ∧ step final place = .error .spanTooLong := by
  unfold arrayTail
  split
  next rest close =>
    refine iff_of_false (by simp) ?_
    rintro ⟨final, place, hat, too⟩
    rcases elementAt_iff.mp hat with ⟨rfl, rfl⟩ | ⟨_, _, _, read, -⟩
    · rw [close, closing] at too
      cases too
    · rw [close, closing] at read
      contradiction
  next =>
    rw [elements_spanTooLong_iff reads empty (Nat.le_refl _)]
    simp only [elementAt_skipSpace]

theorem memberAt_iff : MemberAt key value st s final k place ↔
    (final = st ∧ memberKey key s = .ok (k, place)) ∨
      ∃ k' start st' s' rest, memberKey key s = .ok (k', start) ∧
        value st k' start = .ok (st', s') ∧ skipSpace s' = ',' :: rest ∧
        MemberAt key value st' rest final k place := by
  constructor
  · intro h
    cases h with
    | first named => exact .inl ⟨rfl, named⟩
    | next named read comma later => exact .inr ⟨_, _, _, _, _, named, read, comma, later⟩
  · rintro (⟨rfl, named⟩ | ⟨_, _, _, _, _, named, read, comma, later⟩)
    · exact .first named
    · exact .next named read comma later

theorem memberAt_skipSpace : MemberAt key value st (skipSpace s) final k place ↔
    MemberAt key value st s final k place := by
  have hnamed : memberKey key (skipSpace s) = memberKey key s := by
    rw [memberKey, skipSpace_skipSpace, memberKey]
  rw [memberAt_iff, hnamed, ← memberAt_iff]

theorem length_of_memberKey (keys : ∀ s, Reads False s (key s)) {start : List Char}
    (named : memberKey key s = .ok (k, start)) : start.length ≤ s.length :=
  length_of_read (reads_memberKey keys s).mono named

theorem members_spanTooLong_iff (keys : ∀ s, Reads False s (key s))
    (reads : ∀ st k s, Reads True s (value st k s)) (enough : s.length ≤ fuel) :
    members key value fuel st s = .error .spanTooLong ↔
      ∃ final k place, MemberAt key value st s final k place ∧
        value final k place = .error .spanTooLong := by
  induction fuel generalizing st s with
  | zero =>
    obtain rfl : s = [] := List.eq_nil_of_length_eq_zero (Nat.le_zero.mp enough)
    refine iff_of_false (by simp [members]) ?_
    rintro ⟨final, k, place, hat, -⟩
    rcases memberAt_iff.mp hat with ⟨-, named⟩ | ⟨_, _, _, _, _, named, -⟩
    all_goals cases named
  | succ fuel ih =>
    rw [members, bind_eq_error_iff]
    constructor
    · rintro (bad | ⟨⟨k, start⟩, named, too⟩)
      · exact absurd bad (reads_memberKey keys s).ne_spanTooLong
      · rcases bind_eq_error_iff.mp too with too | ⟨⟨st', s'⟩, read, too⟩
        · exact ⟨st, k, start, .first named, too⟩
        · dsimp only at too
          split at too
          next rest comma =>
            have hlt := length_of_skipSpace comma
            have hle := length_of_read (reads st k start) read
            have hstart := length_of_memberKey keys named
            obtain ⟨final, k, place, hat, too⟩ := (ih (by omega)).mp too
            exact ⟨final, k, place, .next named read comma hat, too⟩
          next => cases too
          next => cases too
    · rintro ⟨final, k, place, hat, too⟩
      refine .inr ?_
      rcases memberAt_iff.mp hat with
        ⟨rfl, named⟩ | ⟨k', start, st', s', rest, named, read, comma, later⟩
      · exact ⟨(k, place), named, bind_eq_error_iff.mpr (.inl too)⟩
      · have hlt := length_of_skipSpace comma
        have hle := length_of_read (reads st k' start) read
        have hstart := length_of_memberKey keys named
        refine ⟨(k', start), named, bind_eq_error_iff.mpr (.inr ⟨(st', s'), read, ?_⟩)⟩
        simp only [comma]
        exact (ih (by omega)).mpr ⟨final, k, place, later, too⟩

/-- An object is found to be too long exactly if the value of one of its members is. -/
theorem objectTail_spanTooLong_iff (keys : ∀ s, Reads False s (key s))
    (reads : ∀ st k s, Reads True s (value st k s)) :
    objectTail key value st s = .error .spanTooLong ↔
      ∃ final k place, MemberAt key value st s final k place ∧
        value final k place = .error .spanTooLong := by
  unfold objectTail
  split
  next rest close =>
    have hbad : memberKey key s = .error .malformed := by
      rw [memberKey, close]
      rfl
    refine iff_of_false (by simp) ?_
    rintro ⟨final, k, place, hat, -⟩
    rcases memberAt_iff.mp hat with ⟨-, named⟩ | ⟨_, _, _, _, _, named, -⟩
    all_goals
      rw [hbad] at named
      contradiction
  next =>
    rw [members_spanTooLong_iff keys reads (Nat.le_refl _)]
    simp only [memberAt_skipSpace]

end HopTrace.Json
