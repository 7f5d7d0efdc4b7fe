import HopTrace.Proofs.Route.Load
import HopTrace.Proofs.Route.Replay
import HopTrace.Proofs.Trace.Firing

/-!
# Where addresses are announced

The replay of a table goes through its rows, whatever is kept of them later, and
announces an address with the first probe that was answered from it, in the
order of the indices and then of the row.
-/

namespace HopTrace

/-! ## First places -/

def ShownAt (hops : List Hop) (i : Nat) (a : Address) : Prop :=
  ∃ h, hops[i]? = some h ∧ h.answeredBy = some a

def FirstAt (hops : List Hop) (i : Nat) (a : Address) : Prop :=
  ShownAt hops i a ∧ ∀ j, ShownAt hops j a → i ≤ j

variable {seen : List Address} {x : Hop} {hops : List Hop} {i : Nat} {a b : Address}

theorem shownAt_zero : ShownAt (x :: hops) 0 a ↔ x.answeredBy = some a := by
  simp [ShownAt]

theorem shownAt_succ : ShownAt (x :: hops) (i + 1) a ↔ ShownAt hops i a := by
  simp [ShownAt]

theorem exists_shownAt_iff : (∃ i, ShownAt hops i a) ↔ ∃ h ∈ hops, h.answeredBy = some a := by
  constructor
  · rintro ⟨i, h, hi, ha⟩
    exact ⟨h, List.mem_of_getElem? hi, ha⟩
  · rintro ⟨h, hm, ha⟩
    obtain ⟨i, hi⟩ := List.mem_iff_getElem?.mp hm
    exact ⟨i, h, hi, ha⟩

/-- A first place in what follows another probe, if that one does not show the address. -/
theorem firstAt_succ : FirstAt (x :: hops) (i + 1) a ↔
    x.answeredBy ≠ some a ∧ FirstAt hops i a := by
  constructor
  · rintro ⟨shown, first⟩
    refine ⟨fun hx => ?_, shownAt_succ.mp shown, fun j hj => ?_⟩
    · exact absurd (first 0 (shownAt_zero.mpr hx)) (Nat.not_succ_le_zero i)
    · exact Nat.le_of_succ_le_succ (first (j + 1) (shownAt_succ.mpr hj))
  · rintro ⟨hx, shown, first⟩
    refine ⟨shownAt_succ.mpr shown, fun j hj => ?_⟩
    cases j with
    | zero => exact absurd (shownAt_zero.mp hj) hx
    | succ j => exact Nat.succ_le_succ (first j (shownAt_succ.mp hj))

theorem firstAt_zero : FirstAt (x :: hops) 0 a ↔ x.answeredBy = some a :=
  ⟨fun h => shownAt_zero.mp h.1, fun h => ⟨shownAt_zero.mpr h, fun j _ => Nat.zero_le j⟩⟩

structure Firsts (seen : List Address) (hops : List Hop) (firsts : List (Nat × Address)) :
    Prop where
  ordered : firsts.Pairwise (·.1 < ·.1)
  places : ∀ i a, (i, a) ∈ firsts ↔ a ∉ seen ∧ FirstAt hops i a

def shiftPlaces (firsts : List (Nat × Address)) : List (Nat × Address) :=
  firsts.map fun f => (f.1 + 1, f.2)

theorem mem_shiftPlaces {firsts : List (Nat × Address)} :
    (i, a) ∈ shiftPlaces firsts ↔ ∃ j, i = j + 1 ∧ (j, a) ∈ firsts := by
  simp only [shiftPlaces, List.mem_map, Prod.mk.injEq, Prod.exists]
  constructor
  · rintro ⟨j, b, hm, rfl, rfl⟩
    exact ⟨j, rfl, hm⟩
  · rintro ⟨j, rfl, hm⟩
    exact ⟨j, a, hm, rfl, rfl⟩

theorem Firsts.cons_of_known {firsts : List (Nat × Address)} (h : Firsts seen hops firsts)
    (known : ∀ a, x.answeredBy = some a → a ∈ seen) :
    Firsts seen (x :: hops) (shiftPlaces firsts) where
  ordered := List.pairwise_map.mpr (h.ordered.imp Nat.succ_lt_succ)
  places i a := by
    rw [mem_shiftPlaces]
    cases i with
    | zero =>
      rw [firstAt_zero]
      refine iff_of_false (by simp) ?_
      rintro ⟨new, hx⟩
      exact new (known a hx)
    | succ i =>
      simp only [Nat.add_right_cancel_iff, exists_eq_left', h.places, firstAt_succ]
      refine and_congr_right fun new => (and_iff_right fun hx => ?_).symm
      exact new (known a hx)

theorem Firsts.cons_of_new {firsts : List (Nat × Address)} (h : Firsts (b :: seen) hops firsts)
    (hx : x.answeredBy = some b) (new : b ∉ seen) :
    Firsts seen (x :: hops) ((0, b) :: shiftPlaces firsts) where
  ordered := by
    refine List.pairwise_cons.mpr ⟨?_, List.pairwise_map.mpr (h.ordered.imp Nat.succ_lt_succ)⟩
    rintro ⟨i, a⟩ hm
    obtain ⟨j, rfl, -⟩ := mem_shiftPlaces.mp hm
    exact Nat.succ_pos j
  places i a := by
    rw [List.mem_cons, mem_shiftPlaces]
    cases i with
    | zero =>
      rw [firstAt_zero, hx]
      constructor
      · rintro (he | ⟨j, hj, -⟩)
        · obtain ⟨-, rfl⟩ := Prod.mk.inj he
          exact ⟨new, rfl⟩
        · contradiction
      · rintro ⟨-, he⟩
        exact .inl (by rw [Option.some.inj he])
    | succ i =>
      simp only [Prod.mk.injEq, Nat.succ_ne_zero, false_and, false_or, Nat.add_right_cancel_iff,
        exists_eq_left', h.places, firstAt_succ, List.mem_cons, not_or, hx, ne_eq,
        Option.some.injEq]
      constructor
      · rintro ⟨⟨hne, hno⟩, first⟩
        exact ⟨hno, Ne.symm hne, first⟩
      · rintro ⟨hno, hne, first⟩
        exact ⟨⟨Ne.symm hne, hno⟩, first⟩

/-- A row announces the addresses that are not known yet, each at its first place. -/
theorem exists_firsts (seen : List Address) (hops : List Hop) : ∃ firsts, Firsts seen hops firsts ∧
    (newAddresses seen hops).1 = firsts.map (.newIpFound ·.2) := by
  induction hops generalizing seen with
  | nil => exact ⟨[], ⟨.nil, by simp [FirstAt, ShownAt]⟩, rfl⟩
  | cons x hops ih =>
    rcases known_or_new seen x with known | ⟨b, hx, new⟩
    · obtain ⟨firsts, h, hooks⟩ := ih seen
      refine ⟨shiftPlaces firsts, h.cons_of_known known, ?_⟩
      rw [newAddresses_of_known known, hooks, shiftPlaces, List.map_map]
      rfl
    · obtain ⟨firsts, h, hooks⟩ := ih (b :: seen)
      refine ⟨(0, b) :: shiftPlaces firsts, h.cons_of_new hx new, ?_⟩
      rw [newAddresses_of_new hx new, hooks, shiftPlaces, List.map_cons, List.map_map]
      rfl

/-! ## First places in a table -/

def ShownIn (rows : List Row) (ttl : UInt16) (i : Nat) (a : Address) : Prop :=
  ∃ hops, (ttl, hops) ∈ rows ∧ ShownAt hops i a

/-- Whether a table shows an address at a place, and at none before: neither in a row of a smaller
index nor before in the same row. -/
def FirstIn (rows : List Row) (ttl : UInt16) (i : Nat) (a : Address) : Prop :=
  ShownIn rows ttl i a ∧
    ∀ ttl' j, ShownIn rows ttl' j a → ttl < ttl' ∨ ttl = ttl' ∧ i ≤ j

def Row.hooks (row : Row) (announced : List Address) : List Hook :=
  .ttlChange row.1 :: announced.map .newIpFound ++ [.ttlCompleted row.1 row.2]

variable {rows : List Row} {ttl k : UInt16}

theorem replayRows_cons {row : Row} {announced : List Address}
    (h : (newAddresses seen row.2).1 = announced.map .newIpFound) :
    replayRows seen (row :: rows) =
      row.hooks announced ++ replayRows (newAddresses seen row.2).2 rows := by
  rw [Row.hooks, ← h, List.append_assoc]
  rfl

theorem shownIn_cons : ShownIn ((ttl, hops) :: rows) k i a ↔
    k = ttl ∧ ShownAt hops i a ∨ ShownIn rows k i a := by
  simp only [ShownIn, List.mem_cons, Prod.mk.injEq, or_and_right, exists_or]
  refine or_congr ⟨?_, ?_⟩ Iff.rfl
  · rintro ⟨_, ⟨rfl, rfl⟩, shown⟩
    exact ⟨rfl, shown⟩
  · rintro ⟨rfl, shown⟩
    exact ⟨hops, ⟨rfl, rfl⟩, shown⟩

theorem lt_of_shownIn (after : ∀ row ∈ rows, ttl < row.1) (shown : ShownIn rows k i a) :
    ttl < k := by
  obtain ⟨hops, hm, -⟩ := shown
  exact after _ hm

/-- The first places of the first row are those of the row alone. -/
theorem firstIn_head (after : ∀ row ∈ rows, ttl < row.1) :
    FirstIn ((ttl, hops) :: rows) ttl i a ↔ FirstAt hops i a := by
  have hhead (j : Nat) : ShownIn ((ttl, hops) :: rows) ttl j a ↔ ShownAt hops j a := by
    rw [shownIn_cons, and_iff_right rfl, or_iff_left]
    exact fun shown => UInt16.lt_irrefl ttl (lt_of_shownIn after shown)
  rw [FirstIn, FirstAt, hhead]
  refine and_congr_right fun _ => ⟨fun first j shown => ?_, fun first ttl' j shown => ?_⟩
  · rcases first ttl j ((hhead j).mpr shown) with hlt | ⟨-, hle⟩
    · exact absurd hlt (UInt16.lt_irrefl ttl)
    · exact hle
  · rcases shownIn_cons.mp shown with ⟨rfl, hj⟩ | hj
    · exact .inr ⟨rfl, first j hj⟩
    · exact .inl (lt_of_shownIn after hj)

/-- The first places of the other rows are those of addresses that the first row does not show. -/
theorem firstIn_tail (after : ∀ row ∈ rows, ttl < row.1) (hne : k ≠ ttl) :
    FirstIn ((ttl, hops) :: rows) k i a ↔
      (¬ ∃ j, ShownAt hops j a) ∧ FirstIn rows k i a := by
  have hother (j : Nat) : ShownIn ((ttl, hops) :: rows) k j a ↔ ShownIn rows k j a := by
    rw [shownIn_cons, or_iff_right fun h => hne h.1]
  rw [FirstIn, FirstIn, hother]
  constructor
  · rintro ⟨shown, first⟩
    refine ⟨?_, shown, fun ttl' j hj => first ttl' j (shownIn_cons.mpr (.inr hj))⟩
    rintro ⟨j, hj⟩
    rcases first ttl j (shownIn_cons.mpr (.inl ⟨rfl, hj⟩)) with hlt | ⟨he, -⟩
    · exact UInt16.lt_asymm hlt (lt_of_shownIn after shown)
    · exact hne he
  · rintro ⟨hno, shown, first⟩
    refine ⟨shown, fun ttl' j hj => ?_⟩
    rcases shownIn_cons.mp hj with ⟨-, hj⟩ | hj
    · exact absurd ⟨j, hj⟩ hno
    · exact first ttl' j hj

structure FirstsIn (seen : List Address) (rows : List Row)
    (firsts : UInt16 → List (Nat × Address)) : Prop where
  ordered : ∀ ttl, (firsts ttl).Pairwise (·.1 < ·.1)
  places : ∀ ttl i a, (i, a) ∈ firsts ttl ↔ a ∉ seen ∧ FirstIn rows ttl i a

theorem firstsIn_cons {here : List (Nat × Address)} {firsts : UInt16 → List (Nat × Address)}
    (after : ∀ row ∈ rows, ttl < row.1) (first : Firsts seen hops here)
    (others : FirstsIn (newAddresses seen hops).2 rows firsts) :
    FirstsIn seen ((ttl, hops) :: rows) fun k => if k = ttl then here else firsts k where
  ordered k := by
    split_ifs
    · exact first.ordered
    · exact others.ordered k
  places k i a := by
    split_ifs with hk
    · rw [hk, first.places, firstIn_head after]
    · rw [others.places, firstIn_tail after hk, mem_known_newAddresses, not_or,
        ← exists_shownAt_iff, and_assoc]

/-- Every row is announced and completed, with the addresses of its first places in between. -/
theorem exists_firstsIn (sorted : rows.Pairwise (fun a b => a.1 < b.1)) (seen : List Address) :
    ∃ firsts, FirstsIn seen rows firsts ∧
      replayRows seen rows = rows.flatMap fun row => row.hooks ((firsts row.1).map (·.2)) := by
  induction rows generalizing seen with
  | nil => exact ⟨fun _ => [], ⟨fun _ => .nil, by simp [FirstIn, ShownIn]⟩, rfl⟩
  | cons row rows ih =>
    obtain ⟨ttl, hops⟩ := row
    obtain ⟨after, sorted⟩ := List.pairwise_cons.mp sorted
    obtain ⟨here, first, hooks⟩ := exists_firsts seen hops
    obtain ⟨firsts, others, replayed⟩ := ih sorted (newAddresses seen hops).2
    refine ⟨_, firstsIn_cons after first others, ?_⟩
    have hothers (row : Row) (hm : row ∈ rows) : row.1 ≠ ttl :=
      (UInt16.ne_of_lt (after row hm)).symm
    have hhere : (newAddresses seen hops).1 = (here.map (·.2)).map .newIpFound := by
      rw [hooks, List.map_map]
      rfl
    rw [replayRows_cons hhere, replayed, List.flatMap_cons, if_pos rfl]
    refine congrArg _ (List.flatMap_congr fun row hm => ?_)
    rw [if_neg (hothers row hm)]

/-! ## Reductions -/

/-- Whether hooks retell a whole table: row by row, with each address where a successful probe first
shows it and nowhere else. -/
structure HopTable.Retold (t : HopTable) (hooks : List Hook) : Prop where
  sequence : ∃ firsts, FirstsIn [] t.rows firsts ∧
    hooks = t.rows.flatMap fun row => row.hooks ((firsts row.1).map (·.2))
  once : ∀ a, hooks.count (.newIpFound a) =
    if ∃ row ∈ t.rows, ∃ h ∈ row.2, h.success = true ∧ h.address = some a then 1 else 0
  whole : ∀ row ∈ t.rows, .ttlChange row.1 ∈ hooks ∧ .ttlCompleted row.1 row.2 ∈ hooks

namespace HopTable

open HopTrace.Hop (TooLong)

theorem count_replay (t : HopTable) (a : Address) : t.replay.count (.newIpFound a) =
    if ∃ row ∈ t.rows, ∃ h ∈ row.2, h.success = true ∧ h.address = some a then 1 else 0 := by
  have hmem : .newIpFound a ∈ t.replay ↔
      ∃ row ∈ t.rows, ∃ h ∈ row.2, h.success = true ∧ h.address = some a := by
    simp [mem_replay, Hook.Replayed, Hop.answeredBy]
  split_ifs with shown
  · exact List.count_eq_one_of_mem t.nodup_replay (hmem.mpr shown)
  · exact List.count_eq_zero_of_not_mem (mt hmem.mp shown)

theorem retold_replay (t : HopTable) : t.Retold t.replay where
  sequence := exists_firstsIn t.sorted []
  once := t.count_replay
  whole row hm := ⟨mem_replay.mpr ⟨row.2, hm⟩, mem_replay.mpr hm⟩

/-- An address of a failed probe is announced where a successful one shows it. -/
example :
    let a : Address := .v4 ⟨10, 0, 0, 1⟩
    let b : Address := .v4 ⟨10, 0, 0, 2⟩
    let near : List Hop :=
      [⟨false, some a, 1, none⟩, ⟨true, some b, 1, none⟩, ⟨true, some b, 1, none⟩]
    let far : List Hop := [⟨true, some b, 9, none⟩, ⟨true, some a, 9, none⟩]
    replay ⟨[(1, near), (9, far)], by decide⟩ =
      [.ttlChange 1, .newIpFound b, .ttlCompleted 1 near,
        .ttlChange 9, .newIpFound a, .ttlCompleted 9 far] := by
  decide

theorem load_cases (text : String) : (∃ t, load text = .ok t) ∨
    load text = .error (.rejected (.invalidConfig "Invalid hop table")) ∨
    (∃ place, TimeAt text.toList place ∧ TooLong place) ∧ load text = .error .spanTooLong := by
  unfold load
  split
  next t _ => exact .inl ⟨t, rfl⟩
  next => exact .inr (.inl rfl)
  next h => exact .inr (.inr ⟨ofText_spanTooLong_iff.mp h, rfl⟩)

theorem reduceText_of_load {text : String} {t : HopTable} (h : load text = .ok t)
    (destination : Address) (maxHops : UInt16) (plugins : PluginSet) : ∃ loaded reduced,
    reduceText text destination maxHops plugins =
      { result := .ok (t.reduce (boundAfter maxHops) destination)
        plugins := plugins.told t.replay
        effects :=
          { log := [loaded] } ++ (plugins.fireAll t.replay).2 ++ { log := [reduced] } } := by
  rw [reduceText, h, ← PluginSet.fireAll_eq]
  exact ⟨_, _, rfl⟩

/-- A reduction retells the table of the text to every plugin, before and whatever it keeps of it.
If there is no table it fails and no plugin is called, and it says so unless it has come to a time
that is too long. -/
theorem retold_of_reduceText (text : String) (destination : Address) (maxHops : UInt16)
    (plugins : PluginSet) :
    (∃ t hooks loaded reduced, load text = .ok t ∧ t.Retold hooks ∧
      reduceText text destination maxHops plugins =
        { result := .ok (t.reduce (boundAfter maxHops) destination)
          plugins := plugins.told hooks
          effects := { log := [loaded] } ++ (plugins.fireAll hooks).2 ++ { log := [reduced] } }) ∨
    load text = .error (.rejected (.invalidConfig "Invalid hop table")) ∧
      reduceText text destination maxHops plugins =
        { result := .error (.rejected (.invalidConfig "Invalid hop table")), plugins } ∨
    (∃ place, TimeAt text.toList place ∧ TooLong place) ∧
      reduceText text destination maxHops plugins = { result := .error .spanTooLong, plugins } := by
  rcases load_cases text with ⟨t, ok⟩ | rejected | ⟨long, crashed⟩
  · obtain ⟨loaded, reduced, hreduced⟩ := reduceText_of_load ok destination maxHops plugins
    exact .inl ⟨t, t.replay, loaded, reduced, ok, t.retold_replay, hreduced⟩
  · refine .inr (.inl ⟨rejected, ?_⟩)
    rw [reduceText, rejected]
  · refine .inr (.inr ⟨long, ?_⟩)
    rw [reduceText, crashed]

end HopTable

end HopTrace
