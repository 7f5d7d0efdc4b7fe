import HopTrace.Network
import HopTrace.Proofs.Address
import HopTrace.Proofs.Trace.Report
import Mathlib.Order.WellFounded

/-!
# The route of a trace that sends all its probes

A trace that begins at hop one ends with the route up to the first hop that
the destination answered, however far its probes went. The walk over the table
begins at index one, so a trace that begins later ends with no route at all.
-/

namespace HopTrace

theorem HopTable.lt_boundAfter {ttl maxHops : UInt16} (h : ttl ≤ maxHops)
    (fits : maxHops < 0xffff) : ttl < boundAfter maxHops := by
  have hne : maxHops ≠ 0xffff := fun he => UInt16.lt_irrefl _ (he ▸ fits)
  have hs := toNat_succ fits
  have hle := UInt16.le_iff_toNat_le.mp h
  rw [boundAfter, if_neg hne, UInt16.lt_iff_toNat_lt, hs]
  omega

theorem HopTable.one_lt_boundAfter {maxHops : UInt16} (h : 1 ≤ maxHops) :
    1 < boundAfter maxHops := by
  by_cases hm : maxHops = 0xffff
  · subst hm
    decide
  · have hlt : maxHops < 0xffff := by
      have hb := maxHops.toNat_lt
      have hne : maxHops.toNat ≠ 65535 := fun he => hm (UInt16.toNat_inj.mp he)
      rw [UInt16.lt_iff_toNat_lt]
      change maxHops.toNat < 65535
      omega
    exact lt_boundAfter h hlt

namespace Trace

variable {setup : TraceSetup} {plugins : PluginSet} {events : List TraceEvent} {t : Trace}
  {result : Except TraceError HopTable}

theorem mem_begun_iff (valid : setup.params.Valid)
    (hr : (start setup plugins).run events = some t) (ttl : UInt16) :
    ttl ∈ t.begun ↔ setup.params.beginHop.toNat ≤ ttl.toNat ∧
      ttl.toNat < setup.params.beginHop.toNat + t.begun.length :=
  (schedule_of_run valid hr).mem_begun

theorem first_mem_begun (valid : setup.params.Valid)
    (hr : (start setup plugins).run events = some t) (drained : t.stage.Drained) :
    setup.params.beginHop ∈ t.begun := by
  have hpos := List.length_pos_iff.mpr (begun_ne_nil valid hr drained.not_probing)
  exact (mem_begun_iff valid hr _).mpr ⟨Nat.le_refl _, by omega⟩

/-- A trace that begins later leaves no row with index one, at which the walk would have to
begin. -/
theorem reduce_of_late (valid : setup.params.Valid) (late : setup.params.beginHop ≠ 1)
    (hu : Unfailing events) (hr : (start setup plugins).run events = some t)
    (drained : t.stage.Drained) (bound : UInt16) :
    t.table.reduce bound setup.destination = .empty := by
  apply HopTable.reduce_eq_empty
  rw [row_of_drained valid hu hr drained, if_neg]
  intro hb
  have hle := ((mem_begun_iff valid hr 1).mp hb).1
  have hpos := valid.beginHop_pos
  exact late (UInt16.toNat_inj.mp (Nat.le_antisymm hle hpos))

/-- The route begins with the first hop probed only if that is hop one, and is empty otherwise,
though the table has the probes of every hop that was begun. -/
theorem first_hop_kept_iff (valid : setup.params.Valid) (hu : Unfailing events)
    (hr : (start setup plugins).run events = some t) (hd : t.result? = some result) :
    ∃ route, result = .ok route ∧
      (setup.params.beginHop ∈ route.keys ↔ setup.params.beginHop = 1) ∧
      (setup.params.beginHop ≠ 1 → route = .empty) ∧
      setup.params.beginHop ∈ t.begun ∧
      ∀ ttl ∈ t.begun, t.table.get? ttl =
          some (((start setup plugins).recorded events).filter (·.ttl = ttl)) ∧
        (((start setup plugins).recorded events).filter (·.ttl = ttl)).length =
          setup.params.numMeasurements.toNat := by
  obtain ⟨drained, hresult⟩ := result_of_unfailing valid hu hr hd
  have hfirst := first_mem_begun valid hr drained
  have hrow := row_of_drained valid hu hr drained
  have hempty := fun late => reduce_of_late valid late hu hr drained
    (HopTable.boundAfter setup.params.maxHops)
  refine ⟨_, hresult, ⟨?_, ?_⟩, hempty, hfirst, ?_⟩
  · intro hk
    by_contra hne
    rw [hempty hne] at hk
    simp [HopTable.keys, HopTable.empty] at hk
  · intro hone
    rw [HopTable.mem_keys_iff, hone]
    refine ⟨_, HopTable.get?_reduce_eq_some_iff.mpr ⟨(hrow 1).trans (if_pos (hone ▸ hfirst)),
      UInt16.le_refl _, HopTable.one_lt_boundAfter (hone ▸ (Params.valid_iff.mp valid).1.2), ?_⟩⟩
    intro j hj hlt
    exact absurd hlt (UInt16.not_lt.mpr hj)
  · intro ttl hb
    have hlen := row_length valid hu hr drained hb
    rw [table_of_start hr, HopTable.hops_ofHops] at hlen
    exact ⟨(hrow ttl).trans (if_pos hb), hlen⟩

def lateStart : TraceSetup where
  destination := .v4 ⟨192, 0, 2, 1⟩
  params := { beginHop := 2, maxHops := 2, numMeasurements := 1 }
  listening := { bufferSize := 6 }
  recognise := recogniseKey

def lateRun : List TraceEvent :=
  List.replicate 6 .main ++
    [.probe 0, .sendEnds 0 .sent, .loop,
      .readEnds (.received (ProbeKey.bytes ⟨2, 0⟩) 6 ⟨.v4 ⟨192, 0, 2, 1⟩, 0, 0⟩), .loop,
      .dispatch, .dispatch] ++ List.replicate 7 (.probe 0) ++
    [.main, .loop, .dispatch, .main, .main, .main]

theorem unfailing_of_all (h : events.all fun
    | .sendEnds _ r => r = .sent
    | _ => true) : Unfailing events := by
  intro i r hm
  simpa using List.all_eq_true.mp h _ hm

theorem first_hop_kept_iff_late : ∃ t result, (start lateStart {}).run lateRun = some t ∧
    t.result? = some result ∧ Unfailing lateRun ∧
    t.table.get? 2 = some [.reply 2 (.v4 ⟨192, 0, 2, 1⟩) ⟨0⟩] ∧ result = .ok .empty := by
  have valid : lateStart.params.Valid := by decide
  have hu : Unfailing lateRun := unfailing_of_all (by decide)
  obtain ⟨t, result, hr, hd, htable⟩ : ∃ t result, (start lateStart {}).run lateRun = some t ∧
      t.result? = some result ∧ t.table.get? 2 = some [.reply 2 (.v4 ⟨192, 0, 2, 1⟩) ⟨0⟩] :=
    ⟨_, _, rfl, rfl, rfl⟩
  obtain ⟨route, hok, -, hempty, -⟩ := first_hop_kept_iff valid hu hr hd
  have hroute : route = .empty := hempty (by decide)
  exact ⟨t, result, hr, hd, hu, htable, hok.trans (by rw [hroute])⟩

structure RouteTo (setup : TraceSetup) (recorded : List Hop) (route : HopTable) (r : UInt16) :
    Prop where
  keys : ∀ k, k ∈ route.keys ↔ 1 ≤ k ∧ k ≤ r
  /-- It ends with the first hop that the destination answered, or else with the last one. -/
  ends : ((∃ h ∈ recorded, h.ttl = r ∧ h.From setup.destination) ∧
      ∀ h ∈ recorded, h.From setup.destination → r ≤ h.ttl) ∨
    r = setup.params.maxHops ∧ ∀ h ∈ recorded, ¬ h.From setup.destination
  row : ∀ k ∈ route.keys, route.get? k = some (recorded.filter (·.ttl = k))
  full : ∀ k ∈ route.keys,
    (recorded.filter (·.ttl = k)).length = setup.params.numMeasurements.toNat

theorem exists_least {P : UInt16 → Prop} (h : ∃ k, P k) : ∃ r, P r ∧ ∀ k, P k → r ≤ k := by
  obtain ⟨r, hr, hmin⟩ := (measure UInt16.toNat).wf.has_min P h
  exact ⟨r, hr, fun k hk => UInt16.not_lt.mp fun hlt => hmin k hk (UInt16.lt_iff_toNat_lt.mp hlt)⟩

theorem reached_hops_iff (hr : (start setup plugins).run events = some t) (k : UInt16) :
    HopTable.Reached setup.destination (t.table.hops k) ↔
      ∃ h ∈ (start setup plugins).recorded events, h.ttl = k ∧ h.From setup.destination := by
  rw [table_of_start hr]
  constructor
  · rintro ⟨h, hm, hreached⟩
    obtain ⟨hm, he⟩ := HopTable.mem_hops_ofHops.mp hm
    exact ⟨h, hm, he, Hop.reached_iff.mp hreached⟩
  · rintro ⟨h, hm, he, hfrom⟩
    exact ⟨h, HopTable.mem_hops_ofHops.mpr ⟨hm, he⟩, Hop.reached_iff.mpr hfrom⟩

/-- Where the route ends: the index has been begun, and everything up to it is in the table. -/
theorem exists_end (valid : setup.params.Valid) (hr : (start setup plugins).run events = some t)
    (drained : t.stage.Drained) :
    ∃ r ∈ t.begun, (∀ k, k < r → ¬ HopTable.Reached setup.destination (t.table.hops k)) ∧
      (HopTable.Reached setup.destination (t.table.hops r) ∨ r = setup.params.maxHops ∧
        ∀ k, ¬ HopTable.Reached setup.destination (t.table.hops k)) := by
  by_cases harrived : ∃ k, HopTable.Reached setup.destination (t.table.hops k)
  · obtain ⟨r, hreached, hleast⟩ := exists_least harrived
    obtain ⟨h, hm, -⟩ := id hreached
    refine ⟨r, mem_begun_of_hops valid hr hm, fun k hlt hk => ?_, .inl hreached⟩
    exact UInt16.not_lt.mpr (hleast k hk) hlt
  · have hset := setup_of_start hr
    have hnoted : ¬ t.Noted := fun noted => by
      obtain ⟨ttl, hreached⟩ := arrived_of_noted hr noted
      exact harrived ⟨ttl, hset ▸ hreached⟩
    have hlen := ((earnest_of_run valid hr).stopped drained.not_probing).resolve_left hnoted
    rw [hset] at hlen
    have hle := valid.beginHop_le
    have hno : ∀ k, ¬ HopTable.Reached setup.destination (t.table.hops k) :=
      fun k hk => harrived ⟨k, hk⟩
    refine ⟨setup.params.maxHops, ?_, fun k _ => hno k, .inr ⟨rfl, hno⟩⟩
    exact (mem_begun_iff valid hr _).mpr ⟨hle, by omega⟩

theorem le_maxHops_of_begun {k : UInt16} (valid : setup.params.Valid)
    (hr : (start setup plugins).run events = some t) (hb : k ∈ t.begun) :
    k ≤ setup.params.maxHops := by
  have hk := ((mem_begun_iff valid hr k).mp hb).2
  have hlast := (schedule_of_run valid hr).last
  rw [UInt16.le_iff_toNat_le]
  omega

/-- Every hop from the first one up to one that has been begun has been begun. -/
theorem begun_of_le {j k : UInt16} (valid : setup.params.Valid)
    (hr : (start setup plugins).run events = some t) (first : setup.params.beginHop ≤ j)
    (hjk : j ≤ k) (hb : k ∈ t.begun) : j ∈ t.begun := by
  have hk := ((mem_begun_iff valid hr k).mp hb).2
  have hj := UInt16.le_iff_toNat_le.mp hjk
  exact (mem_begun_iff valid hr j).mpr ⟨UInt16.le_iff_toNat_le.mp first, by omega⟩

/-- The rows of a route from hop one are those of the table up to where it ends. -/
theorem get?_route {r : UInt16} (valid : setup.params.Valid) (first : setup.params.beginHop = 1)
    (fits : setup.params.maxHops < 0xffff) (hu : Unfailing events)
    (hr : (start setup plugins).run events = some t) (drained : t.stage.Drained)
    (hbegun : r ∈ t.begun)
    (before : ∀ k, k < r → ¬ HopTable.Reached setup.destination (t.table.hops k))
    (ends : HopTable.Reached setup.destination (t.table.hops r) ∨ r = setup.params.maxHops)
    (k : UInt16) :
    (t.table.reduce (HopTable.boundAfter setup.params.maxHops) setup.destination).get? k =
      if 1 ≤ k ∧ k ≤ r then
        some (((start setup plugins).recorded events).filter (·.ttl = k)) else none := by
  have hrow := row_of_drained valid hu hr drained
  have hsome (k : UInt16) : (t.table.get? k).isSome = true ↔ k ∈ t.begun := by
    rw [hrow]
    split_ifs with hb <;> simp [hb]
  -- The rows of the table are those of the hops begun, so from one on they have no gap.
  have initial : ∀ j k, 1 ≤ j → j ≤ k → (t.table.get? k).isSome = true →
      (t.table.get? j).isSome = true := fun j k hj hjk hk =>
    (hsome j).mpr (begun_of_le valid hr (first ▸ hj) hjk ((hsome k).mp hk))
  have hr1 : 1 ≤ r := by
    have hle := ((mem_begun_iff valid hr r).mp hbegun).1
    rw [first] at hle
    exact UInt16.le_iff_toNat_le.mpr hle
  have hends : HopTable.Reached setup.destination (t.table.hops r) ∨
      ∀ k, r < k → t.table.get? k = none := by
    refine ends.imp_right fun he k hlt => ?_
    rw [hrow, if_neg]
    exact fun hb => UInt16.not_lt.mpr (le_maxHops_of_begun valid hr hb) (he ▸ hlt)
  rw [HopTable.get?_reduce_of_initial initial ((hsome r).mpr hbegun) hr1
    (HopTable.lt_boundAfter (le_maxHops_of_begun valid hr hbegun) fits) before hends]
  split_ifs with hk
  · have hb := begun_of_le valid hr (first ▸ hk.1) hk.2 hbegun
    rw [hrow, if_pos hb]
  · rfl

/-- The route of a trace that begins at hop one. -/
theorem routeTo_of_run (valid : setup.params.Valid) (first : setup.params.beginHop = 1)
    (fits : setup.params.maxHops < 0xffff) (hu : Unfailing events)
    (hr : (start setup plugins).run events = some t) (hd : t.result? = some result) :
    ∃ route r, result = .ok route ∧
      RouteTo setup ((start setup plugins).recorded events) route r := by
  obtain ⟨drained, hresult⟩ := result_of_unfailing valid hu hr hd
  obtain ⟨r, hbegun, hbefore, hend⟩ := exists_end valid hr drained
  have hget := get?_route valid first fits hu hr drained hbegun hbefore (hend.imp_right And.left)
  have hkeys : ∀ k, k ∈ (t.table.reduce (HopTable.boundAfter setup.params.maxHops)
      setup.destination).keys ↔ 1 ≤ k ∧ k ≤ r := by
    intro k
    rw [HopTable.mem_keys_iff, hget]
    split_ifs with hk <;> simp [hk]
  have reached (h : Hop) (hm : h ∈ (start setup plugins).recorded events)
      (hfrom : h.From setup.destination) :
      HopTable.Reached setup.destination (t.table.hops h.ttl) :=
    (reached_hops_iff hr _).mpr ⟨h, hm, rfl, hfrom⟩
  refine ⟨_, r, hresult, hkeys, ?_, fun k hk => ?_, fun k hk => ?_⟩
  · rcases hend with hreached | ⟨he, hno⟩
    · refine .inl ⟨(reached_hops_iff hr r).mp hreached, fun h hm hfrom => ?_⟩
      exact UInt16.not_lt.mp fun hlt => hbefore h.ttl hlt (reached h hm hfrom)
    · exact .inr ⟨he, fun h hm hfrom => hno h.ttl (reached h hm hfrom)⟩
  · rw [hget, if_pos ((hkeys k).mp hk)]
  · obtain ⟨h1, hle⟩ := (hkeys k).mp hk
    have hlen := row_length valid hu hr drained (begun_of_le valid hr (first ▸ h1) hle hbegun)
    rwa [table_of_start hr, HopTable.hops_ofHops] at hlen

end Trace

end HopTrace
