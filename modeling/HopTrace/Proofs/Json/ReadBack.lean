import HopTrace.Json.Record
import HopTrace.Proofs.Json.Layout
import HopTrace.Proofs.Text.Digits

/-!
# Documents read back

A scanner takes a document as a value if it reads any text that lays the
document out as that value and leaves what follows. Arrays and objects are taken
if their items and members are, one after the other.
-/

namespace HopTrace.Json

open HopTrace.Text

variable {α β σ κ : Type} {s t rest : List Char}

def Stops (s : List Char) : Prop :=
  ∀ c ∈ s.head?, isDigit c = false ∧ c ≠ '.' ∧ c ≠ 'e' ∧ c ≠ 'E'

def Opens (s : List Char) : Prop :=
  ∃ c t, s = c :: t ∧ isSpace c = false ∧ c ≠ ']' ∧ c ≠ 'n'

/-- Whether a scanner reads a document as a value, however it is laid out and whatever follows. -/
structure Takes (scan : Scan α) (d : Doc) (a : α) : Prop where
  opens : ∀ {s}, d.Laid s → Opens s
  reads : ∀ {s rest}, d.Laid s → Stops rest → scan (s ++ rest) = .ok (a, rest)

theorem Takes.map {scan : Scan α} {d : Doc} {a : α} (h : Takes scan d a) (f : α → β) :
    Takes (fun s => do
      let (x, s) ← scan s
      return (f x, s)) d (f a) where
  opens := h.opens
  reads laid stops := by
    rw [h.reads laid stops]
    rfl

/-- A document that begins with the same character in every layout. -/
theorem Takes.of_opening {scan : Scan α} {d : Doc} {a : α} {c : Char}
    (opens : isSpace c = false ∧ c ≠ ']' ∧ c ≠ 'n')
    (first : ∀ {s}, d.Laid s → ∃ t, s = c :: t)
    (reads : ∀ {s rest}, d.Laid (c :: s) → scan (c :: (s ++ rest)) = .ok (a, rest)) :
    Takes scan d a := by
  constructor
  · intro s laid
    obtain ⟨t, rfl⟩ := first laid
    exact ⟨c, t, rfl, opens⟩
  · intro s rest laid _
    obtain ⟨t, rfl⟩ := first laid
    exact reads laid

theorem Takes.optional {scan : Scan α} {d : Doc} {a : α} (h : Takes scan d a) :
    Takes (optional scan) d (some a) where
  opens := h.opens
  reads {s rest} laid stops := by
    obtain ⟨c, t, rfl, -, -, hnull⟩ := h.opens laid
    have hread := h.reads laid stops
    rw [List.cons_append] at hread ⊢
    rw [Json.optional.eq_2 _ _ (by rintro s ⟨⟩; exact hnull rfl), hread]
    rfl

/-! ## Words and strings -/

theorem word_append (w rest : List Char) : word w (w ++ rest) = .ok rest := by
  induction w with
  | nil => rfl
  | cons c w ih => rw [List.cons_append, word, if_pos rfl, ih]

theorem takes_bool (b : Bool) : Takes bool (.bool b) b where
  opens laid := by
    cases laid with
    | yes => exact ⟨_, _, rfl, by decide⟩
    | no => exact ⟨_, _, rfl, by decide⟩
  reads {s rest} laid _ := by
    cases laid with
    | yes =>
      change (do return (true, ← word ['r', 'u', 'e'] (['r', 'u', 'e'] ++ rest))) = _
      rw [word_append]
      rfl
    | no =>
      change (do return (false, ← word ['a', 'l', 's', 'e'] (['a', 'l', 's', 'e'] ++ rest))) = _
      rw [word_append]
      rfl

theorem hexUnit?_of_lt {n : Nat} (h : n < 0x20) :
    hexUnit? '0' '0' (digitChar (n / 16)) (digitChar (n % 16)) = some n := by
  have hunit : ∀ n < 0x20,
      hexUnit? '0' '0' (digitChar (n / 16)) (digitChar (n % 16)) = some n := by decide
  exact hunit n h

/-- A character is read back from what stands for it between quotes. -/
theorem stringTail_escapeChar (c : Char) (s : List Char) :
    stringTail (Doc.escapeChar c ++ s) = do
      let (t, s) ← stringTail s
      return (c :: t, s) := by
  unfold Doc.escapeChar
  split_ifs with quote backslash backspace feed newline return' tab control
  · subst quote; rfl
  · subst backslash; rfl
  · subst backspace; rfl
  · subst feed; rfl
  · subst newline; rfl
  · subst return'; rfl
  · subst tab; rfl
  · have hunit := hexUnit?_of_lt control
    simp only [List.cons_append, List.nil_append]
    rw [stringTail, hunit]
    dsimp only
    rw [if_neg (by omega), if_neg (by omega), Char.ofNat_toNat]
  · rw [List.singleton_append, stringTail.eq_def]
    split
    next h => cases h
    next h => exact absurd (List.cons.inj h).1 backslash
    next h => exact absurd (List.cons.inj h).1 backslash
    next h =>
      obtain ⟨rfl, rfl⟩ := List.cons.inj h
      rw [if_neg quote, if_neg (not_or.mpr ⟨backslash, control⟩)]

theorem stringTail_escaped (k rest : List Char) :
    stringTail (k.flatMap Doc.escapeChar ++ '\x22' :: rest) = .ok (k, rest) := by
  induction k with
  | nil => rfl
  | cons c k ih =>
    rw [List.flatMap_cons, List.append_assoc, stringTail_escapeChar, ih]
    rfl

theorem quote_append (k rest : List Char) :
    Doc.quote k ++ rest = '\x22' :: (k.flatMap Doc.escapeChar ++ '\x22' :: rest) := by
  simp [Doc.quote]

theorem takes_string (k : List Char) : Takes string (.string k) k where
  opens laid := by
    cases laid
    exact ⟨_, _, rfl, by decide⟩
  reads laid _ := by
    cases laid
    rw [quote_append]
    exact stringTail_escaped k _

/-! ## Numbers -/

theorem exists_decimal (n : Nat) : ∃ c t, decimal n = c :: t ∧ isDigit c = true := by
  obtain ⟨c, t, h⟩ : ∃ c t, decimal n = c :: t :=
    List.exists_cons_of_ne_nil (digits_ne_nil 10 n)
  have hc : c ∈ decimal n := h ▸ List.mem_cons_self
  exact ⟨c, t, h, isSome_of_mem_digits (by decide) (by decide) hc⟩

theorem isSpace_of_isDigit {c : Char} (h : isDigit c = true) : isSpace c = false := by
  rw [Bool.eq_false_iff]
  intro hspace
  simp only [isSpace, Bool.or_eq_true, beq_iff_eq] at hspace
  rcases hspace with ((rfl | rfl) | rfl) | rfl
  all_goals contradiction

theorem Stops.noDigit (h : Stops rest) : ∀ c ∈ rest.head?, digitOf? 10 c = none := by
  intro c hc
  have hdigit := (h c hc).1
  rwa [isDigit, Option.isSome_eq_false_iff, Option.isNone_iff_eq_none] at hdigit

theorem Stops.startsWithDigit (h : Stops rest) : startsWithDigit rest = false := by
  cases rest with
  | nil => rfl
  | cons c rest => exact (h c rfl).1

/-- No zero is needless in the digits of a number. -/
theorem no_needless_zero {n : Nat} {c : Char} {t : List Char} (h : decimal n = c :: t)
    (stops : Stops rest) : ¬ (c = '0' ∧ startsWithDigit (t ++ rest) = true) := by
  rintro ⟨rfl, hdigit⟩
  have hhead : (digits 10 n).head? = some '0' := congrArg List.head? h
  obtain rfl := eq_zero_of_head (by decide) (by decide) hhead
  have hzero : decimal 0 = ['0'] := digits_of_lt (by decide)
  obtain rfl : [] = t := (List.cons.inj (hzero.symm.trans h)).2
  rw [List.nil_append, stops.startsWithDigit] at hdigit
  contradiction

/-- A number without point and exponent is read as whole if it fits 64 bits. -/
theorem number_decimal {n : Nat} (fits : n ≤ 0xffffffffffffffff) (stops : Stops rest) :
    number (decimal n ++ rest) = .ok (.whole n, rest) := by
  have htaken : takeFitting 10 0xffffffffffffffff 0 0 (decimal n ++ rest) =
      (n, (decimal n).length, rest) :=
    takeFitting_number (by decide) (by decide) fits stops.noDigit
  obtain ⟨c, t, hdigits, hc⟩ := exists_decimal n
  have hzero := no_needless_zero hdigits stops
  rw [hdigits, List.cons_append] at htaken ⊢
  rw [number.eq_2 _ (by rintro s ⟨⟩; contradiction), magnitude]
  dsimp only
  rw [if_neg hzero, hc, htaken]
  simp only [Bool.not_true, Bool.false_eq_true, if_false, stops.startsWithDigit]
  split
  next => exact absurd rfl (stops '.' rfl).2.1
  next => exact absurd rfl (stops 'e' rfl).2.2.1
  next => exact absurd rfl (stops 'E' rfl).2.2.2
  next => rfl

theorem natural_decimal {n limit : Nat} (fits : n ≤ limit) (le : limit ≤ 0xffffffffffffffff)
    (stops : Stops rest) : natural limit (decimal n ++ rest) = .ok (n, rest) := by
  rw [natural, number_decimal (Nat.le_trans fits le) stops]
  dsimp only [bind, Except.bind]
  rw [if_pos (by omega)]
  rfl

theorem takes_natural {n limit : Nat} (fits : n ≤ limit) (le : limit ≤ 0xffffffffffffffff) :
    Takes (natural limit) (.nat n) n where
  opens laid := by
    cases laid
    obtain ⟨c, t, hdigits, hc⟩ := exists_decimal n
    refine ⟨c, t, hdigits, isSpace_of_isDigit hc, ?_, ?_⟩
    · rintro rfl
      contradiction
    · rintro rfl
      contradiction
  reads laid stops := by
    cases laid
    exact natural_decimal fits le stops

theorem takes_uint16 (n : UInt16) : Takes (natural 0xffff) (.nat n.toNat) n.toNat :=
  takes_natural (Nat.le_of_lt_succ n.toNat_lt) (by decide)

/-! ## What follows a value -/

theorem stops_nil : Stops [] := nofun

theorem stops_cons {c : Char} (h : isDigit c = false ∧ c ≠ '.' ∧ c ≠ 'e' ∧ c ≠ 'E')
    (s : List Char) : Stops (c :: s) := by
  rintro _ ⟨⟩
  exact h

theorem stops_blank {b : List Char} (blank : Blank b) (h : Stops s) : Stops (b ++ s) := by
  cases b with
  | nil => exact h
  | cons c b =>
    have hspace : isSpace c = true := blank c List.mem_cons_self
    refine stops_cons ⟨?_, ?_, ?_, ?_⟩ _
    · rw [Bool.eq_false_iff]
      intro hdigit
      rw [isSpace_of_isDigit hdigit] at hspace
      contradiction
    all_goals
      rintro rfl
      contradiction

theorem stops_token {b : List Char} {c : Char} (before : Blank b)
    (h : isDigit c = false ∧ c ≠ '.' ∧ c ≠ 'e' ∧ c ≠ 'E') (t rest : List Char) :
    Stops ((b ++ c :: t) ++ rest) := by
  rw [List.append_assoc]
  exact stops_blank before (stops_cons h _)

theorem stops_laidItems {ds : List Doc} (h : Doc.LaidItems ds t) (rest : List Char) :
    Stops (t ++ rest) := by
  cases h with
  | close before => exact stops_token before (by decide) _ rest
  | next before after item others => exact stops_token before (by decide) _ rest

theorem stops_laidMembers {ms : List (List Char × Doc)} (h : Doc.LaidMembers ms t)
    (rest : List Char) : Stops (t ++ rest) := by
  cases h with
  | close before => exact stops_token before (by decide) _ rest
  | next before after member others => exact stops_token before (by decide) _ rest

theorem Opens.skipSpace (h : Opens s) (rest : List Char) : skipSpace (s ++ rest) = s ++ rest := by
  obtain ⟨c, t, rfl, hc, -⟩ := h
  exact skipSpace_of_head hc _

/-! ## Arrays -/

inductive TakesItems (step : σ → Scan σ) : σ → List Doc → σ → Prop
  | nil (st : σ) : TakesItems step st [] st
  | cons {st st' final : σ} {d ds} (item : Takes (step st) d st')
      (others : TakesItems step st' ds final) : TakesItems step st (d :: ds) final

section

variable {step : σ → Scan σ} {st final : σ} {d : Doc} {ds : List Doc} {b : List Char}

theorem length_laidItems (h : Doc.LaidItems ds t) : ds.length < t.length := by
  induction ds generalizing t with
  | nil =>
    cases h
    simp
  | cons d ds ih =>
    cases h with
    | next before after item others =>
      have hlt := ih others
      simp only [List.length_cons, List.length_append]
      omega

/-- One item is read, and what follows it decides whether there is another. -/
theorem elements_item {st' : σ} (takes : Takes (step st) d st') (before : Blank b) (item : d.Laid s)
    (others : Doc.LaidItems ds t) (fuel : Nat) :
    elements step (fuel + 1) st (b ++ (s ++ (t ++ rest))) =
      match skipSpace (t ++ rest) with
      | ',' :: s => elements step fuel st' s
      | ']' :: s => .ok (st', s)
      | _ => .error .malformed := by
  rw [elements, skipSpace_blank before, (takes.opens item).skipSpace,
    takes.reads item (stops_laidItems others rest)]
  rfl

theorem elements_laid {fuel : Nat} (h : TakesItems step st (d :: ds) final) (before : Blank b)
    (item : d.Laid s) (others : Doc.LaidItems ds t) (enough : ds.length < fuel) :
    elements step fuel st (b ++ (s ++ (t ++ rest))) = .ok (final, rest) := by
  induction ds generalizing st d b s t fuel with
  | nil =>
    obtain ⟨fuel, rfl⟩ := Nat.exists_eq_add_one_of_ne_zero (Nat.ne_zero_of_lt enough)
    cases h with
    | cons takes last =>
      rw [elements_item takes before item others]
      cases last
      cases others with
      | close before =>
        rw [List.append_assoc, skipSpace_blank before]
        rfl
  | cons d' ds ih =>
    obtain ⟨fuel, rfl⟩ := Nat.exists_eq_add_one_of_ne_zero (Nat.ne_zero_of_lt enough)
    cases h with
    | cons takes more =>
      rw [elements_item takes before item others]
      cases others with
      | next before after item others =>
        rw [List.append_assoc, skipSpace_blank before, List.cons_append,
          skipSpace_of_head (by decide)]
        change elements step fuel _ _ = _
        rw [List.append_assoc, List.append_assoc]
        exact ih more after item others (Nat.lt_of_succ_lt_succ enough)

theorem Takes.of_array {scan : Scan α} {a : α} (h : ∀ {s rest}, (Doc.array ds).Laid ('[' :: s) →
    scan ('[' :: (s ++ rest)) = .ok (a, rest)) : Takes scan (.array ds) a := by
  refine .of_opening (by decide) (fun laid => ?_) h
  cases laid with
  | emptyArray => exact ⟨_, rfl⟩
  | array => exact ⟨_, rfl⟩

/-- An array whose items are taken is read to its end. -/
theorem arrayTail_laid (h : TakesItems step st ds final) (laid : (Doc.array ds).Laid ('[' :: s)) :
    arrayTail step st (s ++ rest) = .ok (final, rest) := by
  cases laid with
  | emptyArray inside =>
    cases h
    rw [arrayTail, List.append_assoc, skipSpace_blank inside]
    rfl
  | @array d ds b s t before item others =>
    have htext : (b ++ (s ++ t)) ++ rest = b ++ (s ++ (t ++ rest)) := by simp
    have hlength := length_laidItems others
    cases h with
    | cons takes more =>
      obtain ⟨c, u, rfl, hspace, hclose, -⟩ := takes.opens item
      rw [arrayTail, htext, skipSpace_blank before, List.cons_append, skipSpace_of_head hspace]
      split
      next h => exact absurd (List.cons.inj h).1 hclose
      next =>
        refine elements_laid (b := []) (s := c :: u) (.cons takes more) blank_nil item others ?_
        simp only [List.length_cons, List.length_append]
        omega

end

/-! ## Objects -/

def Names (key : Scan κ) (name : List Char) (k : κ) : Prop :=
  ∀ rest, key (name.flatMap Doc.escapeChar ++ '\x22' :: rest) = .ok (k, rest)

theorem names_stringTail (name : List Char) : Names stringTail name name := stringTail_escaped name

inductive TakesMembers (key : Scan κ) (value : σ → κ → Scan σ) :
    σ → List (List Char × Doc) → σ → Prop
  | nil (st : σ) : TakesMembers key value st [] st
  | cons {st st' final : σ} {name k d ms} (named : Names key name k)
      (item : Takes (value st k) d st') (others : TakesMembers key value st' ms final) :
      TakesMembers key value st ((name, d) :: ms) final

section

variable {key : Scan κ} {value : σ → κ → Scan σ} {st final : σ} {name : List Char} {k : κ} {d : Doc}
  {ms : List (List Char × Doc)} {b : List Char}

theorem length_laidMembers (h : Doc.LaidMembers ms t) : ms.length < t.length := by
  induction ms generalizing t with
  | nil =>
    cases h
    simp
  | cons m ms ih =>
    cases h with
    | next before after member others =>
      have hlt := ih others
      simp only [List.length_cons, List.length_append]
      omega

/-- A key is read, and what is left begins with its value. -/
theorem memberKey_laid (named : Names key name k) (opens : ∀ {s}, d.Laid s → Opens s)
    (before : Blank b) (member : Doc.LaidMember name d s) (rest : List Char) :
    ∃ v, d.Laid v ∧ memberKey key (b ++ (s ++ rest)) = .ok (k, v ++ rest) := by
  cases member with
  | @member _ _ b' b'' v before' after value =>
    refine ⟨v, value, ?_⟩
    rw [memberKey, skipSpace_blank before, List.append_assoc, quote_append,
      skipSpace_of_head (by decide)]
    simp only [named _, bind, Except.bind]
    rw [List.append_assoc, skipSpace_blank before', List.cons_append,
      skipSpace_of_head (by decide)]
    change Except.ok (k, skipSpace ((b'' ++ v) ++ rest)) = _
    rw [List.append_assoc, skipSpace_blank after, (opens value).skipSpace]

/-- One member is read, and what follows it decides whether there is another. -/
theorem members_member {st' : σ} (named : Names key name k) (takes : Takes (value st k) d st')
    (before : Blank b) (member : Doc.LaidMember name d s) (others : Doc.LaidMembers ms t)
    (fuel : Nat) : members key value (fuel + 1) st (b ++ (s ++ (t ++ rest))) =
      match skipSpace (t ++ rest) with
      | ',' :: s => members key value fuel st' s
      | '\x7d' :: s => .ok (st', s)
      | _ => .error .malformed := by
  obtain ⟨v, laid, hkey⟩ := memberKey_laid named takes.opens before member (t ++ rest)
  rw [members, hkey]
  dsimp only [bind, Except.bind]
  rewrite [takes.reads laid (stops_laidMembers others rest)]
  rfl

theorem members_laid {fuel : Nat} (h : TakesMembers key value st ((name, d) :: ms) final)
    (before : Blank b) (member : Doc.LaidMember name d s) (others : Doc.LaidMembers ms t)
    (enough : ms.length < fuel) :
    members key value fuel st (b ++ (s ++ (t ++ rest))) = .ok (final, rest) := by
  induction ms generalizing st name d b s t fuel with
  | nil =>
    obtain ⟨fuel, rfl⟩ := Nat.exists_eq_add_one_of_ne_zero (Nat.ne_zero_of_lt enough)
    cases h with
    | cons named takes last =>
      rw [members_member named takes before member others]
      cases last
      cases others with
      | close before =>
        rw [List.append_assoc, skipSpace_blank before]
        rfl
  | cons m ms ih =>
    obtain ⟨fuel, rfl⟩ := Nat.exists_eq_add_one_of_ne_zero (Nat.ne_zero_of_lt enough)
    cases h with
    | cons named takes more =>
      rw [members_member named takes before member others]
      cases others with
      | next before after member others =>
        rw [List.append_assoc, skipSpace_blank before, List.cons_append,
          skipSpace_of_head (by decide)]
        change members key value fuel _ _ = _
        rw [List.append_assoc, List.append_assoc]
        exact ih more after member others (Nat.lt_of_succ_lt_succ enough)

theorem Takes.of_object {scan : Scan α} {a : α}
    (h : ∀ {s rest}, (Doc.object ms).Laid ('\x7b' :: s) →
      scan ('\x7b' :: (s ++ rest)) = .ok (a, rest)) : Takes scan (.object ms) a := by
  refine .of_opening (by decide) (fun laid => ?_) h
  cases laid with
  | emptyObject => exact ⟨_, rfl⟩
  | object => exact ⟨_, rfl⟩

/-- An object whose members are taken is read to its end. -/
theorem objectTail_laid (h : TakesMembers key value st ms final)
    (laid : (Doc.object ms).Laid ('\x7b' :: s)) :
    objectTail key value st (s ++ rest) = .ok (final, rest) := by
  cases laid with
  | emptyObject inside =>
    cases h
    rw [objectTail, List.append_assoc, skipSpace_blank inside]
    rfl
  | @object k d ms b s t before member others =>
    have htext : (b ++ (s ++ t)) ++ rest = b ++ (s ++ (t ++ rest)) := by simp
    have hlength := length_laidMembers others
    obtain ⟨u, hopen⟩ : ∃ u, s = '\x22' :: u := by
      cases member
      exact ⟨_, rfl⟩
    rw [objectTail, htext, skipSpace_blank before, hopen, List.cons_append,
      skipSpace_of_head (by decide)]
    change members key value _ st ('\x22' :: (u ++ (t ++ rest))) = _
    rw [← List.cons_append, ← hopen]
    refine members_laid (b := []) h blank_nil member others ?_
    simp only [List.length_append]
    omega

end

/-! ## Records -/

section

variable {r : RecordReader σ} {draft draft' final : σ} {name : String} {d : Doc}

theorem takes_member {step : σ → Scan σ} (found : r.fields.find? (·.1 == name) = some (name, step))
    (fresh : r.present draft name = false) (h : Takes (step draft) d draft') :
    Takes (r.member draft name.toList) d draft' := by
  have hfind : r.fields.find? (fun f => f.1.toList == name.toList) = some (name, step) := by
    rw [← found]
    congr 1
    funext f
    rw [Bool.eq_iff_iff, beq_iff_eq, beq_iff_eq, String.toList_inj]
  have hmember : r.member draft name.toList = step draft := by
    funext s
    rw [RecordReader.member, hfind]
    dsimp only
    rw [fresh, if_neg Bool.false_ne_true]
  rw [hmember]
  exact h

/-- A field whose value is entered into the draft. -/
theorem takes_field {scan : Scan α} {a : α} (enter : σ → α → σ)
    (found : r.fields.find? (·.1 == name) = some (name, fun draft s => do
      let (x, s) ← scan s
      return (enter draft x, s)))
    (fresh : r.present draft name = false) (h : Takes scan d a) :
    Takes (r.member draft name.toList) d (enter draft a) :=
  takes_member found fresh (h.map (enter draft))

theorem takes_record {ms : List (List Char × Doc)}
    (h : TakesMembers stringTail r.member draft ms final) :
    Takes (r.read draft) (.object ms) final :=
  .of_object fun laid => objectTail_laid h laid

end

/-! ## Whole texts -/

/-- Blanks before and after a document are passed over. -/
theorem Takes.whole {scan : Scan α} {d : Doc} {a : α} {text : String} (h : Takes scan d a)
    (written : d.WrittenAs text) (f : α → β) :
    (do
      let (x, s) ← scan (skipSpace text.toList)
      finish s
      return f x) = Except.ok (f a) := by
  obtain ⟨before, s, after, hb, laid, ha, htext⟩ := written
  have hstops : Stops after := by
    have hstops := stops_blank ha stops_nil
    rwa [List.append_nil] at hstops
  have hafter : skipSpace after = [] := by
    have hskip := skipSpace_blank ha []
    rwa [List.append_nil] at hskip
  rw [htext, skipSpace_blank hb, (h.opens laid).skipSpace, h.reads laid hstops]
  dsimp only [bind, Except.bind]
  rw [finish, if_pos hafter]
  rfl

end HopTrace.Json
