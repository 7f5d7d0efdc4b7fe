import HopTrace.Address.Reader
import HopTrace.Address.Text
import HopTrace.Proofs.Address
import HopTrace.Proofs.Text.Digits

/-!
# Addresses read back

Every address is read back from its text: octets between points, groups between
colons, with or without a run left out, and groups that show an old address.
-/

namespace HopTrace

open HopTrace.Text

namespace Address

variable {rest : List Char}

/-! ## Octets -/

def Ends (base : Nat) (s : List Char) : Prop := ∀ c ∈ s.head?, digitOf? base c = none

theorem ends_cons {base : Nat} {c : Char} (h : digitOf? base c = none) (s : List Char) :
    Ends base (c :: s) := by
  rintro _ ⟨⟩
  exact h

theorem octet_decimal (b : UInt8) (ends : Ends 10 rest) :
    octet (decimal b.toNat ++ rest) = some (b, rest) := by
  have hlt := b.toNat_lt
  have htaken : takeFitting 10 999 0 0 (decimal b.toNat ++ rest) =
      (b.toNat, (decimal b.toNat).length, rest) :=
    takeFitting_number (by decide) (by decide) (by omega) ends
  have hpos : (decimal b.toNat).length ≠ 0 := by
    rw [Ne, List.length_eq_zero_iff]
    exact digits_ne_nil 10 _
  have hshort : (decimal b.toNat).length ≤ 3 :=
    length_digits_le (k := 2) (by decide) (by omega)
  have hhead : ¬ ((decimal b.toNat).length > 1 ∧
      (decimal b.toNat ++ rest).head? = some '0') := by
    rintro ⟨hlong, hzero⟩
    rw [decimal, List.head?_append_of_ne_nil _ (digits_ne_nil 10 _)] at hzero
    have hb : b.toNat = 0 := eq_zero_of_head (by decide) (by decide) hzero
    rw [hb, decimal, digits_of_lt (by decide)] at hlong
    exact Nat.lt_irrefl 1 hlong
  have hnext : (rest.head?.bind (digitOf? 10)).isSome = false := by
    cases rest with
    | nil => rfl
    | cons c rest =>
      have hc : digitOf? 10 c = none := ends c rfl
      simp [hc]
  rw [octet, htaken]
  dsimp only
  rw [if_neg (by omega), if_neg hhead, hnext, if_neg Bool.false_ne_true, UInt8.ofNat_toNat]

theorem octets_chars (o : Octets) (ends : Ends 10 rest) :
    octets (o.chars ++ rest) = some (o, rest) := by
  have hdot (s : List Char) : Ends 10 ('.' :: s) := ends_cons (by decide) s
  have htext : o.chars ++ rest = decimal o.a.toNat ++ '.' :: (decimal o.b.toNat ++
      '.' :: (decimal o.c.toNat ++ '.' :: (decimal o.d.toNat ++ rest))) := by
    simp [Octets.chars]
  rw [htext, octets, octet_decimal _ (hdot _)]
  simp only [Option.bind_eq_bind, Option.bind_some, dot, octet_decimal _ (hdot _),
    octet_decimal _ ends]
  rfl

theorem octets_all (o : Octets) : octets o.chars = some (o, []) := by
  have hread : octets (o.chars ++ []) = some (o, []) := octets_chars o nofun
  rwa [List.append_nil] at hread

theorem octet_of_ends {s : List Char} (ends : Ends 10 s) : octet s = none := by
  rw [octet, takeFitting_of_stop ends]
  rfl

theorem octets_of_ends {s : List Char} (ends : Ends 10 s) : octets s = none := by
  rw [octets, octet_of_ends ends]
  rfl

theorem octet_suffix {s t : List Char} {b : UInt8} (h : octet s = some (b, t)) : t <:+ s := by
  have hrest := takeFitting_suffix 10 999 0 0 s
  unfold octet at h
  generalize takeFitting 10 999 0 0 s = taken at *
  obtain ⟨n, count, rest⟩ := taken
  dsimp only at h hrest
  split_ifs at h
  obtain ⟨-, rfl⟩ := Prod.mk.inj (Option.some.inj h)
  exact hrest

theorem dot_of_no_point {s : List Char} (h : '.' ∉ s) : dot s = none := by
  unfold dot
  split
  next => exact absurd List.mem_cons_self h
  next => rfl

/-- A text without a point is no old address. -/
theorem octets_of_no_point {s : List Char} (h : '.' ∉ s) : octets s = none := by
  rw [octets]
  cases hs : octet s with
  | none => rfl
  | some read =>
    have hno : '.' ∉ read.2 := fun hm => h ((octet_suffix hs).subset hm)
    simp [dot_of_no_point hno]

/-! ## Groups -/

theorem isSome_of_mem_hexGroup {g : UInt16} {c : Char} (h : c ∈ Groups.hexGroup g) :
    (digitOf? 16 c).isSome :=
  isSome_of_mem_digits (by decide) (by decide) h

theorem takeWhile_of_ends {s : List Char} (ends : Ends 16 s) :
    s.takeWhile (fun c => (digitOf? 16 c).isSome) = [] := by
  cases s with
  | nil => rfl
  | cons c s =>
    have hc : digitOf? 16 c = none := ends c rfl
    simp [hc]

theorem group_of_ends {s : List Char} (ends : Ends 16 s) : group s = none := by
  rw [group, takeWhile_of_ends ends]
  rfl

theorem group_hexGroup (g : UInt16) (ends : Ends 16 rest) :
    group (Groups.hexGroup g ++ rest) = some (g, rest) := by
  have hlt := g.toNat_lt
  have hdigits : (Groups.hexGroup g ++ rest).takeWhile (fun c => (digitOf? 16 c).isSome) =
      Groups.hexGroup g := by
    rw [List.takeWhile_append_of_pos fun c hc => isSome_of_mem_hexGroup hc,
      takeWhile_of_ends ends, List.append_nil]
  have hne : Groups.hexGroup g ≠ [] := digits_ne_nil 16 _
  have hshort : (Groups.hexGroup g).length ≤ 4 :=
    length_digits_le (k := 3) (by decide) (by omega)
  have htaken : takeFitting 16 0xffff 0 0 (Groups.hexGroup g) =
      (g.toNat, (Groups.hexGroup g).length, []) := by
    have h : takeFitting 16 0xffff 0 0 (digits 16 g.toNat ++ []) =
        (g.toNat, (digits 16 g.toNat).length, []) :=
      takeFitting_number (by decide) (by decide) (by omega) nofun
    rwa [List.append_nil] at h
  have hpos := List.length_pos_of_ne_nil hne
  rw [group, hdigits]
  dsimp only
  rw [if_neg (by omega), htaken, List.drop_left, UInt16.ofNat_toNat]

theorem mem_colonList {gs : List UInt16} {c : Char} (h : c ∈ Groups.colonList gs) :
    c = ':' ∨ (digitOf? 16 c).isSome := by
  induction gs with
  | nil => cases h
  | cons g gs ih =>
    cases gs with
    | nil => exact .inr (isSome_of_mem_hexGroup h)
    | cons g' gs =>
      rw [Groups.colonList, List.mem_append, List.mem_cons] at h
      · rcases h with h | h | h
        · exact .inr (isSome_of_mem_hexGroup h)
        · exact .inl h
        · exact ih h
      · simp

theorem no_point_of_colonList (gs : List UInt16) : '.' ∉ Groups.colonList gs := by
  intro h
  rcases mem_colonList h with h | h
  · contradiction
  · contradiction

/-- Whether the groups read so far are all there are before the end or before a run left out. -/
def Pauses (s : List Char) : Prop := s = [] ∨ ∃ t, s = ':' :: ':' :: t

theorem Pauses.ends {s : List Char} (h : Pauses s) : Ends 16 s := by
  rcases h with rfl | ⟨t, rfl⟩
  · exact nofun
  · exact ends_cons (by decide) _

theorem groupRun_of_pauses (room : Nat) (isFirst : Bool) (h : Pauses rest) :
    groupRun room isFirst rest = ([], false, rest) := by
  cases room with
  | zero => rfl
  | succ room =>
    have none_of (s : List Char) (ten : Ends 10 s) (sixteen : Ends 16 s) (isFirst : Bool)
        (t : List Char) (hsep : afterSeparator isFirst t = some s) :
        groupRun (room + 1) isFirst t = ([], false, t) := by
      rw [groupRun, hsep]
      simp [octets_of_ends ten, group_of_ends sixteen]
    rcases h with rfl | ⟨t, rfl⟩
    · cases isFirst with
      | true => exact none_of [] nofun nofun true [] rfl
      | false => rfl
    · cases isFirst with
      | true =>
        exact none_of _ (ends_cons (by decide) _) (ends_cons (by decide) _) true _ rfl
      | false =>
        exact none_of (':' :: t) (ends_cons (by decide) _) (ends_cons (by decide) _) false _ rfl

theorem groupRun_group {room : Nat} {isFirst old : Bool} {s t r : List Char} {g : UInt16}
    {gs : List UInt16} (hsep : afterSeparator isFirst s = some t) (hold : octets t = none)
    (hgroup : group t = some (g, r)) (hread : groupRun room false r = (gs, old, rest)) :
    groupRun (room + 1) isFirst s = (g :: gs, old, rest) := by
  rw [groupRun, hsep]
  simp only [hold, ite_self, hgroup, hread]

/-- A list of groups is read up to where it ends. -/
theorem groupRun_colonList {gs : List UInt16} (hne : gs ≠ []) {room : Nat}
    (fits : gs.length ≤ room) (isFirst : Bool) (pauses : Pauses rest) (point : '.' ∉ rest) :
    groupRun room isFirst ((if isFirst then [] else [':']) ++ (Groups.colonList gs ++ rest)) =
      (gs, false, rest) := by
  induction gs generalizing room isFirst with
  | nil => exact absurd rfl hne
  | cons g gs ih =>
    obtain ⟨room, rfl⟩ := Nat.exists_eq_add_one_of_ne_zero (Nat.ne_zero_of_lt fits)
    have hsep (s : List Char) :
        afterSeparator isFirst ((if isFirst then [] else [':']) ++ s) = some s := by
      cases isFirst <;> rfl
    have hno : '.' ∉ Groups.colonList (g :: gs) ++ rest := by
      rw [List.mem_append, not_or]
      exact ⟨no_point_of_colonList _, point⟩
    cases gs with
    | nil =>
      exact groupRun_group (hsep _) (octets_of_no_point hno) (group_hexGroup g pauses.ends)
        (groupRun_of_pauses room false pauses)
    | cons g' gs =>
      have htext : Groups.colonList (g :: g' :: gs) ++ rest =
          Groups.hexGroup g ++ ':' :: (Groups.colonList (g' :: gs) ++ rest) := by
        simp [Groups.colonList]
      have hgroup : group (Groups.colonList (g :: g' :: gs) ++ rest) =
          some (g, ':' :: (Groups.colonList (g' :: gs) ++ rest)) := by
        rw [htext]
        exact group_hexGroup g (ends_cons (by decide) _)
      exact groupRun_group (hsep _) (octets_of_no_point hno) hgroup
        (ih (List.cons_ne_nil g' gs) (Nat.le_of_succ_le_succ fits) false)

/-- The same where there may be no group at all. -/
theorem groupRun_front {gs : List UInt16} {room : Nat} (fits : gs.length ≤ room)
    (pauses : Pauses rest) (point : '.' ∉ rest) :
    groupRun room true (Groups.colonList gs ++ rest) = (gs, false, rest) := by
  by_cases hne : gs = []
  · rw [hne]
    exact groupRun_of_pauses room true pauses
  · exact groupRun_colonList hne fits true pauses point

/-! ## Runs left out -/

def ZeroRun (parts : List UInt16) (run : Nat × Nat) : Prop :=
  ∃ front back, parts = front ++ (List.replicate run.2 0 ++ back) ∧ front.length = run.1

theorem zeroRun_longestRun {before gs : List UInt16} {start length : Nat} {best : Nat × Nat}
    (found : ZeroRun (before ++ (List.replicate length 0 ++ gs)) best)
    (began : length ≠ 0 → start = before.length) :
    ZeroRun (before ++ (List.replicate length 0 ++ gs))
      (Groups.longestRun gs (before.length + length) start length best) := by
  induction gs generalizing before start length best with
  | nil => exact found
  | cons g gs ih =>
    rw [Groups.longestRun]
    by_cases hg : g = 0
    · subst hg
      have hgrown : before ++ (List.replicate length 0 ++ 0 :: gs) =
          before ++ (List.replicate (length + 1) 0 ++ gs) := by
        rw [List.replicate_succ', List.append_assoc, List.singleton_append]
      have hstart : (if length = 0 then before.length + length else start) = before.length := by
        split_ifs with h
        · rw [h, Nat.add_zero]
        · exact began h
      rw [if_pos rfl]
      dsimp only
      rw [hgrown] at found ⊢
      rw [hstart, Nat.add_assoc]
      refine ih ?_ fun _ => rfl
      split_ifs
      · exact ⟨before, gs, rfl, rfl⟩
      · exact found
    · have hpassed : before ++ (List.replicate length 0 ++ g :: gs) =
          before ++ (List.replicate length 0 ++ [g]) ++ (List.replicate 0 0 ++ gs) := by
        simp
      have hlength : before.length + length + 1 =
          (before ++ (List.replicate length 0 ++ [g])).length + 0 := by
        simp [Nat.add_assoc]
      rw [if_neg hg, hlength]
      rw [hpassed] at found ⊢
      exact ih found nofun

/-! ## Whole addresses -/

theorem fill?_eq {front back : List UInt16} {g : Groups} {length : Nat}
    (h : g.parts = front ++ (List.replicate length 0 ++ back)) : fill? front back = some g := by
  have hall := g.length_parts
  rw [h, List.length_append, List.length_append, List.length_replicate] at hall
  have hleft : 8 - front.length - back.length = length := by omega
  have hparts : front ++ List.replicate length 0 ++ back = g.parts := by
    rw [h, List.append_assoc]
  unfold fill?
  simp only [hleft, hparts, g.length_parts, dif_pos]

theorem groups_colonList (g : Groups) : groups (Groups.colonList g.parts) = some (g, []) := by
  have hread : groupRun 8 true (Groups.colonList g.parts ++ []) = (g.parts, false, []) :=
    groupRun_front (Nat.le_of_eq g.length_parts) (.inl rfl) nofun
  have hparts : g.parts = g.parts ++ (List.replicate 0 0 ++ []) := by simp
  rw [List.append_nil] at hread
  rw [groups, hread]
  simp only [g.length_parts, if_true]
  rw [fill?_eq hparts]
  rfl

/-- With a run left out, the groups before it are read, and then those after it. -/
theorem groups_leftOut {g : Groups} {front back : List UInt16} {length : Nat}
    (h : g.parts = front ++ (List.replicate length 0 ++ back)) (long : 1 < length) :
    groups (Groups.colonList front ++ ':' :: ':' :: Groups.colonList back) = some (g, []) := by
  have hall := g.length_parts
  rw [h, List.length_append, List.length_append, List.length_replicate] at hall
  have hpoint : '.' ∉ ':' :: ':' :: Groups.colonList back := by
    simp [no_point_of_colonList]
  have hfront : groupRun 8 true (Groups.colonList front ++ ':' :: ':' :: Groups.colonList back) =
      (front, false, ':' :: ':' :: Groups.colonList back) :=
    groupRun_front (by omega) (.inr ⟨_, rfl⟩) hpoint
  have hback : groupRun (7 - front.length) true (Groups.colonList back ++ []) =
      (back, false, []) :=
    groupRun_front (by omega) (.inl rfl) nofun
  rw [List.append_nil] at hback
  rw [groups, hfront]
  dsimp only
  rw [if_neg (by omega)]
  simp only [Bool.false_eq_true, if_false, hback, fill?_eq h]
  rfl

theorem hexGroup_greatest : Groups.hexGroup 0xffff = ['f', 'f', 'f', 'f'] := by
  decide +kernel

theorem groups_mapped (o : Octets) :
    groups ([':', ':', 'f', 'f', 'f', 'f', ':'] ++ o.chars) = some (o.mapped, []) := by
  have hfront : groupRun 8 true ([':', ':', 'f', 'f', 'f', 'f', ':'] ++ o.chars) =
      ([], false, [':', ':', 'f', 'f', 'f', 'f', ':'] ++ o.chars) :=
    groupRun_of_pauses 8 true (.inr ⟨_, rfl⟩)
  have hlast : groupRun 6 false (':' :: o.chars) =
      ([joinOctets o.a o.b, joinOctets o.c o.d], true, []) := by
    simp [groupRun, afterSeparator, octets_all]
  have hgroup : group (['f', 'f', 'f', 'f'] ++ ':' :: o.chars) = some (0xffff, ':' :: o.chars) := by
    rw [← hexGroup_greatest]
    exact group_hexGroup 0xffff (ends_cons (by decide) _)
  have hback : groupRun 7 true (['f', 'f', 'f', 'f'] ++ ':' :: o.chars) =
      ([0xffff, joinOctets o.a o.b, joinOctets o.c o.d], true, []) :=
    groupRun_group rfl (octets_of_ends (ends_cons (by decide) _)) hgroup hlast
  have hparts : o.mapped.parts = [] ++ (List.replicate 5 0 ++
      [0xffff, joinOctets o.a o.b, joinOctets o.c o.d]) := rfl
  rw [groups, hfront]
  simp only [List.length_nil]
  change (do
    let run := groupRun 7 true (['f', 'f', 'f', 'f'] ++ ':' :: o.chars)
    return (← fill? [] run.1, run.2.2)) = _
  rw [hback]
  simp only [fill?_eq hparts]
  rfl

theorem groups_chars (g : Groups) : groups g.chars = some (g, []) := by
  rw [Groups.chars]
  cases hm : g.mapped? with
  | some o =>
    rw [Groups.eq_mapped_of_mapped? hm]
    exact groups_mapped o
  | none =>
    have hrun : ZeroRun ([] ++ (List.replicate 0 0 ++ g.parts))
        (Groups.longestRun g.parts (([] : List UInt16).length + 0) 0 0 (0, 0)) :=
      zeroRun_longestRun ⟨[], g.parts, rfl, rfl⟩ fun h => absurd rfl h
    change ZeroRun g.parts (Groups.longestRun g.parts 0 0 0 (0, 0)) at hrun
    generalize Groups.longestRun g.parts 0 0 0 (0, 0) = run at hrun
    obtain ⟨front, back, hparts, hlength⟩ := hrun
    have htake : g.parts.take run.1 = front := by rw [hparts, ← hlength, List.take_left]
    have hdrop : g.parts.drop (run.1 + run.2) = back := by
      rw [hparts, ← List.append_assoc]
      exact List.drop_left' (by simp [hlength])
    dsimp only
    split_ifs with long
    · rw [htake, hdrop, List.append_assoc]
      exact groups_leftOut hparts long
    · exact groups_colonList g

/-- Groups are no octets, as they begin with a colon or have no point. -/
theorem octets_groups (g : Groups) : octets g.chars = none := by
  rw [Groups.chars]
  cases hm : g.mapped? with
  | some o => exact octets_of_ends (ends_cons (by decide) _)
  | none =>
    apply octets_of_no_point
    dsimp only
    split_ifs
    · simp [no_point_of_colonList]
    · exact no_point_of_colonList _

/-- Every address is read back from its text. -/
theorem ofChars?_chars (a : Address) : ofChars? a.chars = some a := by
  cases a with
  | v4 o => simp [ofChars?, scan, chars, octets_all]
  | v6 g => simp [ofChars?, scan, chars, octets_groups, groups_chars]

end Address

end HopTrace
