import HopTrace.Json.Record
import HopTrace.Proofs.Text.Digits
import Mathlib.Data.List.Infix
import Mathlib.Tactic.SplitIfs

/-!
# What a scanner leaves

A scanner leaves an end of the text that it is given, or fails. Only a time span
can be too long; whatever does not read one fails because the text is malformed.
-/

namespace HopTrace.Json

open HopTrace.Text

variable {α β σ κ : Type} {may : Prop} {s s' : List Char}

/-- Whether a scanner read something from the front of a text, or failed in a way that it may. -/
def Reads (may : Prop) (s : List Char) : Except Failure (α × List Char) → Prop
  | .ok (_, rest) => rest <:+ s
  | .error .malformed => True
  | .error .spanTooLong => may

def Skips (s : List Char) : Except Failure (List Char) → Prop
  | .ok rest => rest <:+ s
  | .error e => e = .malformed

namespace Reads

variable {result : Except Failure (α × List Char)}
  {next : α × List Char → Except Failure (β × List Char)}

theorem of_suffix (h : Reads may s' result) (hs : s' <:+ s) : Reads may s result := by
  cases result with
  | ok read => exact h.trans hs
  | error e => cases e <;> exact h

theorem bind (h : Reads may s result) (hnext : ∀ a rest, Reads may rest (next (a, rest))) :
    Reads may s (result >>= next) := by
  cases result with
  | ok read => exact (hnext read.1 read.2).of_suffix h
  | error e => cases e <;> exact h

theorem map (f : α → β) (h : Reads may s result) :
    Reads may s (do
      let (a, rest) ← result
      return (f a, rest)) := by
  refine h.bind fun a rest => ?_
  exact rest.suffix_refl

theorem mono (h : Reads False s result) : Reads may s result := by
  cases result with
  | ok read => exact h
  | error e =>
    cases e with
    | malformed => trivial
    | spanTooLong => exact False.elim h

theorem ne_spanTooLong (h : Reads False s result) : result ≠ .error .spanTooLong := by
  rintro rfl
  exact h

end Reads

namespace Skips

variable {result : Except Failure (List Char)}

theorem of_suffix (h : Skips s' result) (hs : s' <:+ s) : Skips s result := by
  cases result with
  | ok read => exact h.trans hs
  | error e => exact h

theorem bind {next : List Char → Except Failure (List Char)} (h : Skips s result)
    (hnext : ∀ rest, Skips rest (next rest)) : Skips s (result >>= next) := by
  cases result with
  | ok rest => exact (hnext rest).of_suffix h
  | error e => exact h

theorem bind_reads {next : List Char → Except Failure (α × List Char)} (h : Skips s result)
    (hnext : ∀ rest, Reads may rest (next rest)) : Reads may s (result >>= next) := by
  cases result with
  | ok rest => exact (hnext rest).of_suffix h
  | error e =>
    obtain rfl : e = .malformed := h
    trivial

end Skips

theorem Reads.bind_skips {result : Except Failure (α × List Char)}
    {next : α × List Char → Except Failure (List Char)} (h : Reads False s result)
    (hnext : ∀ a rest, Skips rest (next (a, rest))) : Skips s (result >>= next) := by
  cases result with
  | ok read => exact (hnext read.1 read.2).of_suffix h
  | error e =>
    cases e with
    | malformed => rfl
    | spanTooLong => exact False.elim h

/-! ## Words and strings -/

theorem skipSpace_suffix (s : List Char) : skipSpace s <:+ s := List.dropWhile_suffix _

theorem dropDigits_suffix (s : List Char) : dropDigits s <:+ s := List.dropWhile_suffix _

theorem skips_word (cs s : List Char) : Skips s (word cs s) := by
  induction cs generalizing s with
  | nil => exact List.suffix_refl s
  | cons c cs ih =>
    cases s with
    | nil => rfl
    | cons d s =>
      rw [word]
      split
      · exact (ih s).of_suffix (List.suffix_cons d s)
      · rfl

theorem reads_stringTail (s : List Char) : Reads False s (stringTail s) := by
  fun_induction stringTail s with
  | case1 | case2 | case3 | case4 | case6 | case7 | case9 | case12 => trivial
  | case5 a b c d unit _ _ _ e f g h s low _ _ ih =>
    exact (ih.map _).of_suffix
      (List.suffix_append ['\\', 'u', a, b, c, d, '\\', 'u', e, f, g, h] _)
  | case8 a b c d s _ _ _ _ ih =>
    exact (ih.map _).of_suffix
      (List.suffix_append ['\\', 'u', a, b, c, d] s)
  | case10 c s _ _ _ ih =>
    exact (ih.map _).of_suffix (List.suffix_append ['\\', c] s)
  | case11 s => exact List.suffix_cons '\x22' s
  | case13 c s _ _ _ _ ih =>
    exact (ih.map _).of_suffix (List.suffix_cons c s)

theorem skips_stringTail (s : List Char) : Skips s (skipStringTail s) := by
  fun_induction skipStringTail s with
  | case1 | case3 | case5 | case7 => rfl
  | case2 a b c d s _ ih => exact ih.of_suffix (List.suffix_append ['\\', 'u', a, b, c, d] s)
  | case4 c s _ _ ih => exact ih.of_suffix (List.suffix_append ['\\', c] s)
  | case6 s => exact List.suffix_cons '\x22' s
  | case8 c s _ _ _ _ ih => exact ih.of_suffix (List.suffix_cons c s)

theorem reads_string (s : List Char) : Reads False s (string s) := by
  unfold string
  split
  · exact (reads_stringTail _).of_suffix (List.suffix_cons ..)
  · trivial

/-! ## Numbers -/

theorem reads_real (negative : Bool) (significand : Nat) (exponent : Int) (s : List Char) :
    Reads False s (real negative significand exponent s) := by
  unfold real
  split
  · exact s.suffix_refl
  · trivial

theorem reads_exponentTail (negative : Bool) (significand : Nat) (start : Int) (s : List Char) :
    Reads False s (exponentTail negative significand start s) := by
  unfold exponentTail
  split
  next down s' hsign =>
  have hs' : s' <:+ s := by
    split at hsign
    · exact (Prod.mk.inj hsign).2 ▸ List.suffix_cons ..
    · exact (Prod.mk.inj hsign).2 ▸ List.suffix_cons ..
    · exact (Prod.mk.inj hsign).2 ▸ s.suffix_refl
  have hrest := (takeFitting_suffix 10 0x7fffffff 0 0 s').trans hs'
  generalize takeFitting 10 0x7fffffff 0 0 s' = taken at *
  obtain ⟨e, count, rest⟩ := taken
  dsimp only at *
  split_ifs
  · trivial
  · trivial
  · exact (dropDigits_suffix rest).trans hrest
  · exact (reads_real ..).of_suffix hrest
  · exact (reads_real ..).of_suffix hrest

theorem reads_exponentOrEnd (negative : Bool) (significand : Nat) (exponent : Int)
    (s : List Char) : Reads False s (exponentOrEnd negative significand exponent s) := by
  unfold exponentOrEnd
  split
  · exact (reads_exponentTail ..).of_suffix (List.suffix_cons ..)
  · exact (reads_exponentTail ..).of_suffix (List.suffix_cons ..)
  · exact reads_real ..

theorem reads_fractionTail (negative : Bool) (significand : Nat) (exponent : Int) (s : List Char) :
    Reads False s (fractionTail negative significand exponent s) := by
  have hrest := takeFitting_suffix 10 0xffffffffffffffff significand 0 s
  unfold fractionTail
  generalize takeFitting 10 0xffffffffffffffff significand 0 s = taken at *
  obtain ⟨m, count, rest⟩ := taken
  dsimp only
  split
  · exact (reads_exponentOrEnd ..).of_suffix ((dropDigits_suffix rest).trans hrest)
  · split
    · trivial
    · exact (reads_exponentOrEnd ..).of_suffix hrest

theorem reads_magnitude (negative : Bool) (s : List Char) :
    Reads False s (magnitude negative s) := by
  unfold magnitude
  split
  · trivial
  next c s =>
    split
    · trivial
    split
    · trivial
    have hrest := takeFitting_suffix 10 0xffffffffffffffff 0 0 (c :: s)
    generalize takeFitting 10 0xffffffffffffffff 0 0 (c :: s) = taken at *
    obtain ⟨m, count, rest⟩ := taken
    dsimp only at *
    split
    · have hdrop := (dropDigits_suffix rest).trans hrest
      split
      next hafter =>
        rw [hafter] at hdrop
        exact (reads_fractionTail ..).of_suffix ((List.suffix_cons ..).trans hdrop)
      next => exact (reads_exponentOrEnd ..).of_suffix hdrop
    · split
      · exact (reads_fractionTail ..).of_suffix ((List.suffix_cons ..).trans hrest)
      · exact (reads_exponentTail ..).of_suffix ((List.suffix_cons ..).trans hrest)
      · exact (reads_exponentTail ..).of_suffix ((List.suffix_cons ..).trans hrest)
      · exact hrest

theorem reads_number (s : List Char) : Reads False s (number s) := by
  unfold number
  split
  · exact (reads_magnitude ..).of_suffix (List.suffix_cons ..)
  · exact reads_magnitude ..

theorem skips_digits (s : List Char) : Skips s
    (if startsWithDigit s then .ok (dropDigits s) else .error .malformed) := by
  split_ifs
  · exact dropDigits_suffix s
  · rfl

theorem skips_number (s : List Char) : Skips s (skipNumber s) := by
  unfold skipNumber
  extract_lets unsigned exponent fraction
  have hunsigned : unsigned <:+ s := by
    unfold unsigned
    split
    · exact List.suffix_cons ..
    · exact s.suffix_refl
  have hexponent (s : List Char) : Skips s (exponent s) := by
    unfold exponent
    split
    · exact List.suffix_refl []
    next c t =>
      split
      · extract_lets digits
        have hdigits : digits <:+ c :: t := by
          refine List.IsSuffix.trans ?_ (List.suffix_cons c t)
          unfold digits
          split
          · exact List.suffix_cons ..
          · exact List.suffix_cons ..
          · exact t.suffix_refl
        exact (skips_digits digits).of_suffix hdigits
      · exact List.suffix_refl _
  have hfraction (s : List Char) : Skips s (fraction s) := by
    unfold fraction
    split
    · split
      · exact (hexponent _).of_suffix ((dropDigits_suffix _).trans (List.suffix_cons ..))
      · rfl
    · exact hexponent _
  refine Skips.of_suffix ?_ hunsigned
  clear_value unsigned
  split
  · split
    · rfl
    · exact (hfraction _).of_suffix (List.suffix_cons ..)
  · split
    · exact (hfraction _).of_suffix (dropDigits_suffix _)
    · rfl

/-! ## Arrays and objects -/

section

variable {step : σ → List Char → Except Failure (σ × List Char)}
  {key : Scan κ} {value : σ → κ → List Char → Except Failure (σ × List Char)}

theorem reads_elements (reads : ∀ st s, Reads may s (step st s)) (fuel : Nat) (st : σ)
    (s : List Char) : Reads may s (elements step fuel st s) := by
  induction fuel generalizing st s with
  | zero => trivial
  | succ fuel ih =>
    rw [elements]
    refine Reads.of_suffix ?_ (skipSpace_suffix s)
    refine (reads st _).bind fun st rest => ?_
    refine Reads.of_suffix ?_ (skipSpace_suffix rest)
    dsimp only
    split
    next next h => exact (ih st next).of_suffix (h ▸ List.suffix_cons ..)
    next next h => exact h ▸ List.suffix_cons ..
    next => trivial

theorem reads_arrayTail (reads : ∀ st s, Reads may s (step st s)) (st : σ) (s : List Char) :
    Reads may s (arrayTail step st s) := by
  unfold arrayTail
  refine Reads.of_suffix ?_ (skipSpace_suffix s)
  split
  next next h => exact h ▸ List.suffix_cons ..
  next => exact reads_elements reads ..

theorem reads_memberKey (reads : ∀ s, Reads may s (key s)) (s : List Char) :
    Reads may s (memberKey key s) := by
  unfold memberKey
  refine Reads.of_suffix ?_ (skipSpace_suffix s)
  split
  next next h =>
    rw [h]
    refine Reads.of_suffix ?_ (List.suffix_cons _ next)
    refine (reads next).bind fun k rest => ?_
    refine Reads.of_suffix ?_ (skipSpace_suffix rest)
    dsimp only
    split
    next next h => exact h ▸ (skipSpace_suffix next).trans (List.suffix_cons ..)
    next => trivial
  next => trivial

theorem reads_members (keys : ∀ s, Reads may s (key s))
    (reads : ∀ st k s, Reads may s (value st k s)) (fuel : Nat) (st : σ) (s : List Char) :
    Reads may s (members key value fuel st s) := by
  induction fuel generalizing st s with
  | zero => trivial
  | succ fuel ih =>
    rw [members]
    refine (reads_memberKey keys s).bind fun k rest => ?_
    refine (reads st k rest).bind fun st rest => ?_
    refine Reads.of_suffix ?_ (skipSpace_suffix rest)
    dsimp only
    split
    next next h => exact (ih st next).of_suffix (h ▸ List.suffix_cons ..)
    next next h => exact h ▸ List.suffix_cons ..
    next => trivial

theorem reads_objectTail (keys : ∀ s, Reads may s (key s))
    (reads : ∀ st k s, Reads may s (value st k s)) (st : σ) (s : List Char) :
    Reads may s (objectTail key value st s) := by
  unfold objectTail
  refine Reads.of_suffix ?_ (skipSpace_suffix s)
  split
  next next h => exact h ▸ List.suffix_cons ..
  next => exact reads_members keys reads ..

end

/-! ## Values passed over -/

theorem skips_key (s : List Char) : Skips s (skipKey s) := by
  unfold skipKey
  have reads (s : List Char) : Reads False s (do return ((), ← skipStringTail s)) :=
    (skips_stringTail s).bind_reads fun rest => rest.suffix_refl
  exact (reads_memberKey reads s).bind_skips fun _ rest => rest.suffix_refl

theorem reads_closeBrackets (brackets : List Bracket) (s : List Char) :
    Reads False s (closeBrackets brackets s) := by
  induction brackets generalizing s with
  | nil => exact s.suffix_refl
  | cons b rest ih =>
    unfold closeBrackets
    refine Reads.of_suffix ?_ (skipSpace_suffix s)
    split
    next next h => exact h ▸ List.suffix_cons ..
    next next h =>
      rw [h]
      refine Reads.of_suffix ?_ (List.suffix_cons ',' next)
      exact (skips_key next).bind_reads fun rest => rest.suffix_refl
    next next h => exact (ih next).of_suffix (h ▸ List.suffix_cons ..)
    next next h => exact (ih next).of_suffix (h ▸ List.suffix_cons ..)
    next => trivial

theorem skips_scalar (s : List Char) : Skips s (skipScalar s) := by
  unfold skipScalar
  split
  · exact (skips_stringTail _).of_suffix (List.suffix_cons ..)
  · exact (skips_word _ _).of_suffix (List.suffix_cons ..)
  · exact (skips_word _ _).of_suffix (List.suffix_cons ..)
  · exact (skips_word _ _).of_suffix (List.suffix_cons ..)
  · exact skips_number _

theorem skips_within (fuel : Nat) (brackets : List Bracket) (s : List Char) :
    Skips s (skipWithin fuel brackets s) := by
  induction fuel generalizing brackets s with
  | zero =>
    rw [skipWithin]
    rfl
  | succ fuel ih =>
    have hon (brackets : List Bracket) (s : List Char) :
        Skips s (skipWithin.carryOn fuel (brackets, s)) := by
      cases brackets with
      | nil =>
        rw [skipWithin.carryOn]
        exact s.suffix_refl
      | cons b rest =>
        rw [skipWithin.carryOn]
        · exact ih ..
        · simp
    have hclosed (s : List Char) : Skips s (do
        skipWithin.carryOn fuel (← closeBrackets brackets s)) :=
      (reads_closeBrackets brackets s).bind_skips hon
    unfold skipWithin
    refine Skips.of_suffix ?_ (skipSpace_suffix s)
    split
    next next h =>
      rw [h]
      refine Skips.of_suffix ?_ (List.suffix_cons '[' next)
      refine Skips.of_suffix ?_ (skipSpace_suffix next)
      split
      next next h => exact (hclosed next).of_suffix (h ▸ List.suffix_cons ..)
      next => exact ih ..
    next next h =>
      rw [h]
      refine Skips.of_suffix ?_ (List.suffix_cons '\x7b' next)
      refine Skips.of_suffix ?_ (skipSpace_suffix next)
      split
      next next h => exact (hclosed next).of_suffix (h ▸ List.suffix_cons ..)
      next => exact (skips_key _).bind fun rest => ih ..
    next => exact (skips_scalar _).bind hclosed

theorem skips_value (s : List Char) : Skips s (skipValue s) := skips_within ..

/-! ## Records and their fields -/

section

variable {r : RecordReader σ}

theorem reads_element (fields : ∀ field ∈ r.fields, ∀ draft s, Reads may s (field.2 draft s))
    (st : σ × Nat) (s : List Char) : Reads may s (r.element st s) := by
  unfold RecordReader.element
  split
  · trivial
  next field step h =>
    refine (fields _ (List.mem_of_getElem? h) st.1 s).bind fun draft rest => ?_
    exact rest.suffix_refl

theorem reads_member (fields : ∀ field ∈ r.fields, ∀ draft s, Reads may s (field.2 draft s))
    (draft : σ) (key s : List Char) : Reads may s (r.member draft key s) := by
  unfold RecordReader.member
  split
  · exact (skips_value s).bind_reads fun rest => rest.suffix_refl
  next field step h =>
    split
    · trivial
    · exact fields _ (List.mem_of_find?_eq_some h) draft s

theorem reads_read (fields : ∀ field ∈ r.fields, ∀ draft s, Reads may s (field.2 draft s))
    (draft : σ) (s : List Char) : Reads may s (r.read draft s) := by
  unfold RecordReader.read
  split
  next s =>
    refine Reads.of_suffix ?_ (List.suffix_cons ..)
    exact reads_objectTail (fun s => (reads_stringTail s).mono) (reads_member fields) draft s
  next s =>
    refine Reads.of_suffix ?_ (List.suffix_cons ..)
    exact (reads_arrayTail (reads_element fields) (draft, 0) s).bind fun _ rest => rest.suffix_refl
  next => trivial

end

theorem reads_bool (s : List Char) : Reads False s (bool s) := by
  unfold bool
  split
  · refine Reads.of_suffix ?_ (List.suffix_cons ..)
    exact (skips_word _ _).bind_reads fun rest => rest.suffix_refl
  · refine Reads.of_suffix ?_ (List.suffix_cons ..)
    exact (skips_word _ _).bind_reads fun rest => rest.suffix_refl
  · trivial

theorem reads_natural (limit : Nat) (s : List Char) : Reads False s (natural limit s) := by
  unfold natural
  refine (reads_number s).bind fun n rest => ?_
  dsimp only
  split
  · split
    · exact rest.suffix_refl
    · trivial
  · trivial

theorem reads_optional {scan : Scan α} (reads : ∀ s, Reads may s (scan s)) (s : List Char) :
    Reads may s (optional scan s) := by
  unfold optional
  split
  · refine Reads.of_suffix ?_ (List.suffix_cons ..)
    exact (skips_word _ _).bind_reads fun rest => rest.suffix_refl
  · exact (reads _).map _

end HopTrace.Json
