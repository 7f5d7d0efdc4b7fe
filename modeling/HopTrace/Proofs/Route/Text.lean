import HopTrace.Command.Run
import HopTrace.Proofs.Address.Text
import HopTrace.Proofs.Json.ReadBack
import HopTrace.Proofs.Route.Bounds

/-!
# Hop tables read back

A table without times is read back from every text of it. So what a reduction
prints of such a table, it prints again when that is its input.
-/

namespace HopTrace

open HopTrace.Json HopTrace.Text

/-! ## Hops -/

namespace Hop

theorem takes_address (a : Address) : Takes scanAddress (.string a.chars) a where
  opens := (takes_string a.chars).opens
  reads laid stops := by
    rw [scanAddress, (takes_string a.chars).reads laid stops]
    dsimp only [bind, Except.bind]
    rw [Address.ofChars?_chars]
    rfl

def draftOf (h : Hop) : Draft where
  success := some h.success
  address := h.address.map some
  ttl := some (UInt16.ofNat h.ttl.toNat)

theorem takes_draft {h : Hop} (timeless : h.rtt = none) :
    Takes (reader.read {}) h.toDoc h.draftOf := by
  obtain ⟨success, address, ttl, rtt⟩ := h
  obtain rfl : rtt = none := timeless
  have takesTtl (draft : Draft) (fresh : draft.ttl.isSome = false) :
      Takes (reader.member draft "ttl".toList) (.nat ttl.toNat)
        { draft with ttl := some (.ofNat ttl.toNat) } :=
    takes_field (fun (draft : Draft) n => { draft with ttl := some (.ofNat n) }) rfl fresh
      (takes_uint16 ttl)
  apply takes_record
  refine .cons (names_stringTail _) (takes_field (fun draft b => { draft with success := some b })
    rfl rfl (takes_bool success)) ?_
  cases address with
  | none => exact .cons (names_stringTail _) (takesTtl _ rfl) (.nil _)
  | some a =>
    refine .cons (names_stringTail _) (takes_field (fun draft a => { draft with address := some a })
      rfl rfl (takes_address a).optional) ?_
    exact .cons (names_stringTail _) (takesTtl _ rfl) (.nil _)

theorem takes_hop {h : Hop} (timeless : h.rtt = none) : Takes scan h.toDoc h where
  opens := (takes_draft timeless).opens
  reads laid stops := by
    rw [scan, (takes_draft timeless).reads laid stops]
    obtain ⟨success, address, ttl, rtt⟩ := h
    obtain rfl : rtt = none := timeless
    change Except.ok (Hop.mk success ((address.map some).getD none) (.ofNat ttl.toNat) none, _) = _
    rw [UInt16.ofNat_toNat]
    cases address <;> rfl

end Hop

namespace HopTable

/-! ## Rows -/

theorem flatMap_escapeChar_decimal (n : Nat) : (decimal n).flatMap Doc.escapeChar = decimal n := by
  have hdigit : ∀ d < 10, Doc.escapeChar (digitChar d) = [digitChar d] := by decide
  have two : 2 ≤ 10 := by decide
  unfold decimal
  induction n using digits_induction two with
  | one n h => rw [digits_of_lt h, List.flatMap_singleton, hdigit n h]
  | more n h ih =>
    rw [digits_of_le two h, List.flatMap_append, ih, List.flatMap_singleton,
      hdigit _ (Nat.mod_lt _ (by decide))]

theorem names_index (ttl : UInt16) : Names scanKey (decimal ttl.toNat) ttl := by
  intro rest
  have fits : ttl.toNat ≤ 0xffff := Nat.le_of_lt_succ ttl.toNat_lt
  have hread : natural 0xffff (decimal ttl.toNat ++ '\x22' :: rest) =
      .ok (ttl.toNat, '\x22' :: rest) :=
    natural_decimal fits (by decide) (stops_cons (by decide) rest)
  obtain ⟨c, t, hdigits, hc⟩ := exists_decimal ttl.toNat
  rw [flatMap_escapeChar_decimal]
  rw [hdigits, List.cons_append] at hread ⊢
  rw [scanKey]
  dsimp only
  rw [if_pos (.inl hc), hread]
  change Except.ok (UInt16.ofNat ttl.toNat, rest) = _
  rw [UInt16.ofNat_toNat]

theorem takesItems_hops {hops : List Hop} (timeless : ∀ h ∈ hops, h.rtt = none)
    (before : List Hop) :
    TakesItems scanHop before (hops.map Hop.toDoc) (hops.reverse ++ before) := by
  induction hops generalizing before with
  | nil => exact .nil before
  | cons h hops ih =>
    have ⟨first, others⟩ := List.forall_mem_cons.mp timeless
    rw [List.reverse_cons, List.append_assoc]
    exact .cons ((Hop.takes_hop first).map (· :: before)) (ih others (h :: before))

theorem takes_hops {hops : List Hop} (timeless : ∀ h ∈ hops, h.rtt = none) :
    Takes scanHops (.array (hops.map Hop.toDoc)) hops := by
  refine .of_array fun laid => ?_
  rw [scanHops, arrayTail_laid (takesItems_hops timeless []) laid]
  change Except.ok ((hops.reverse ++ []).reverse, _) = _
  rw [List.append_nil, List.reverse_reverse]

/-- A row with the highest index is placed at the end. -/
theorem place_of_last {row : Row} {rows : List Row} (h : ∀ q ∈ rows, q.1 < row.1) :
    place row rows = rows ++ [row] := by
  induction rows with
  | nil => rfl
  | cons q rows ih =>
    have ⟨first, others⟩ := List.forall_mem_cons.mp h
    rw [place, if_neg (UInt16.lt_asymm first), if_neg (UInt16.ne_of_lt first).symm, ih others]
    rfl

def Timeless (t : HopTable) : Prop := ∀ row ∈ t.rows, ∀ h ∈ row.2, h.rtt = none

theorem takesMembers_rows {rows : List Row} {t final : HopTable}
    (timeless : ∀ row ∈ rows, ∀ h ∈ row.2, h.rtt = none) (hfinal : final.rows = t.rows ++ rows) :
    TakesMembers scanKey scanRow t
      (rows.map fun r => (decimal r.1.toNat, .array (r.2.map Hop.toDoc))) final := by
  induction rows generalizing t with
  | nil =>
    rw [List.append_nil] at hfinal
    obtain rfl := ext_rows hfinal
    exact .nil final
  | cons row rows ih =>
    have ⟨first, others⟩ := List.forall_mem_cons.mp timeless
    have hlast : ∀ q ∈ t.rows, q.1 < row.1 := fun q hq =>
      (List.pairwise_append.mp (hfinal ▸ final.sorted)).2.2 q hq row List.mem_cons_self
    have hplaced : (t.set row.1 row.2).rows = t.rows ++ [row] := place_of_last hlast
    refine .cons (names_index row.1) ((takes_hops first).map (t.set row.1)) (ih others ?_)
    rw [hfinal, hplaced, List.append_assoc]
    rfl

/-! ## Tables -/

variable {t : HopTable} {text : String}

theorem takes_table (timeless : t.Timeless) : Takes scan t.toDoc t := by
  have members := takesMembers_rows (t := empty) timeless rfl
  exact .of_object fun laid => objectTail_laid members laid

theorem load_written (timeless : t.Timeless) (written : t.toDoc.WrittenAs text) :
    load text = .ok t := by
  have hread : ofText text = .ok t := (takes_table timeless).whole written id
  rw [load, hread]

theorem Timeless.reduce (timeless : t.Timeless) (bound : UInt16) (destination : Address) :
    (t.reduce bound destination).Timeless := by
  intro row hrow
  have hkept := (t.isPrefix_reduce bound destination).subset hrow
  exact timeless row ((List.dropWhile_sublist _).subset hkept)

end HopTable

/-! ## Reductions of what was printed -/

namespace Command

theorem decode_toUTF8 (text : String) : decode text.toUTF8 = .ok text := by
  have hread : String.fromUTF8? text.toUTF8 = some text := dif_pos text.isValidUTF8
  rw [decode, hread]

def ReduceOptions.Readable (o : ReduceOptions) : Prop :=
  ∃ params, Json.Value.ofText o.pluginParams = .ok params

theorem ReduceOptions.run_of_load {o : ReduceOptions} (readable : o.Readable) {text : String}
    {t : HopTable} (loaded : HopTable.load text = .ok t) :
    (o.run (.ok text)).exit = 0 ∧ (o.run (.ok text)).output =
      (t.reduce (HopTable.boundAfter o.maxHops) o.destination).pretty ++ "\n" := by
  obtain ⟨params, hparams⟩ := readable
  simp only [run, runOn, hparams, reduceText, loaded]
  exact ⟨rfl, rfl⟩

/-- A table without times is loaded from every text of it, the compact one and the one over several
lines among them. What a reduction prints of it is such a text, and a reduction of that text towards
the same destination and with as many hops prints it again. -/
theorem reduction_of_printed (t : HopTable) (timeless : t.Timeless) :
    (∀ text, t.toDoc.WrittenAs text → HopTable.load text = .ok t) ∧
    HopTable.load t.compact = .ok t ∧ HopTable.load t.pretty = .ok t ∧
    HopTable.load (t.pretty ++ "\n") = .ok t ∧
    ∀ (o o' : ReduceOptions) (text : String), HopTable.load text = .ok t → o.Readable →
      o'.Readable → o'.destination = o.destination → o'.maxHops = o.maxHops →
      let route := t.reduce (HopTable.boundAfter o.maxHops) o.destination
      let first := o.run (.ok text)
      let second := o'.run (decode first.output.toUTF8)
      first.exit = 0 ∧ first.output = route.pretty ++ "\n" ∧
        HopTable.load first.output = .ok route ∧
        second.exit = 0 ∧ second.output = first.output := by
  have pretty (t : HopTable) : t.toDoc.WrittenAs t.pretty := t.toDoc.writtenAs_pretty 0
  refine ⟨fun text => HopTable.load_written timeless,
    HopTable.load_written timeless t.toDoc.writtenAs_compact,
    HopTable.load_written timeless (pretty t),
    HopTable.load_written timeless (pretty t).newline, ?_⟩
  intro o o' text loaded readable readable' sameDestination sameHops route first second
  obtain ⟨hexit, hprinted⟩ := ReduceOptions.run_of_load readable loaded
  have hread : HopTable.load first.output = .ok route := by
    rw [hprinted]
    exact HopTable.load_written (timeless.reduce _ _) (pretty route).newline
  obtain ⟨hexit', hprinted'⟩ := ReduceOptions.run_of_load readable' hread
  have hsecond : second = o'.run (.ok first.output) := congrArg o'.run (decode_toUTF8 _)
  rw [sameDestination, sameHops, HopTable.reduce_reduce, UInt16.min_def,
    if_pos (UInt16.le_refl _), ← hprinted] at hprinted'
  rw [hsecond]
  exact ⟨hexit, hprinted, hread, hexit', hprinted'⟩

/-- Rows of all kinds: index zero, nobody asked, a failed probe with an address, a success without
one, addresses of both versions, and one that stands for another. -/
def assorted : HopTable where
  rows := [(0, [⟨true, some (.v4 ⟨10, 0, 0, 1⟩), 9, none⟩]),
    (1, [⟨false, some (.v6 ⟨[0x2001, 0xdb8, 0, 0, 0, 0, 0, 1], rfl⟩), 1, none⟩,
      ⟨true, none, 1, none⟩]),
    (2, []),
    (3, [⟨true, some (.v6 ⟨[0, 0, 0, 0, 0, 0xffff, 0xc000, 0x201], rfl⟩), 3, none⟩]),
    (65535, [.timeout 65535])]
  sorted := by decide

theorem reduction_of_printed_assorted :
    HopTable.load assorted.compact = .ok assorted ∧
    HopTable.load assorted.pretty = .ok assorted ∧
    (assorted.reduce 31 (.v4 ⟨192, 0, 2, 1⟩)).keys = [1, 2, 3] ∧
    let o : ReduceOptions := { input := "-", destination := .v4 ⟨192, 0, 2, 1⟩ }
    let first := o.run (.ok assorted.compact)
    let second := { o with input := "route.json" }.run (decode first.output.toUTF8)
    second.exit = 0 ∧ second.output = first.output := by
  have timeless : assorted.Timeless := by
    unfold HopTable.Timeless
    decide
  obtain ⟨-, compact, pretty, -, again⟩ := reduction_of_printed assorted timeless
  have readable (o : ReduceOptions) (h : o.pluginParams = "null") : o.Readable := by
    refine ⟨.null, ?_⟩
    rw [h]
    rfl
  refine ⟨compact, pretty, by decide, ?_⟩
  intro o first second
  exact (again o { o with input := "route.json" } assorted.compact compact
    (readable _ rfl) (readable _ rfl) rfl rfl).2.2.2

end Command

end HopTrace
