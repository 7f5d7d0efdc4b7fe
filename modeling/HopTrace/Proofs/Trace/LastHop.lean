import HopTrace.Proofs.Route.Exactness
import HopTrace.Proofs.Trace.Chronicle
import HopTrace.Proofs.Trace.Pending
import HopTrace.Replay

/-!
# The last hop that a route may keep

The walk ends before its bound, so the bound has to lie one beyond the last hop
that is to be kept. No index lies beyond the greatest one. There the bound stays
where it is, and the walk never looks at the greatest index.
-/

namespace HopTrace

namespace HopTable

variable {t : HopTable} {maxHops k : UInt16} {destination : Address}

/-- Whether the table leads to an index that is not beyond the last one to keep: no row is missing
up to it, and the destination answered before in none. -/
def Leads (t : HopTable) (maxHops : UInt16) (destination : Address) (k : UInt16) : Prop :=
  1 ≤ k ∧ k ≤ maxHops ∧ (∀ j, 1 ≤ j → j ≤ k → j ∈ t.keys) ∧
    ∀ j, 1 ≤ j → j < k → ∀ h ∈ t.hops j, ¬ h.From destination

theorem le_greatest (k : UInt16) : k ≤ 0xffff :=
  UInt16.le_iff_toNat_le.mpr (Nat.le_of_lt_succ k.toNat_lt)

theorem ne_greatest_of_lt {bound : UInt16} (h : k < bound) : k ≠ 0xffff := by
  rintro rfl
  exact UInt16.not_lt.mpr (le_greatest bound) h

theorem lt_boundAfter_iff : k < boundAfter maxHops ↔ k ≤ maxHops ∧ k ≠ 0xffff := by
  by_cases greatest : maxHops = 0xffff
  · rw [boundAfter, if_pos greatest]
    constructor
    · intro hlt
      exact ⟨UInt16.le_of_lt hlt, ne_greatest_of_lt hlt⟩
    · rintro ⟨hle, hne⟩
      exact UInt16.lt_of_le_of_ne hle (greatest ▸ hne)
  · have fits : maxHops < 0xffff := UInt16.lt_of_le_of_ne (le_greatest maxHops) greatest
    constructor
    · intro hlt
      refine ⟨?_, ne_greatest_of_lt hlt⟩
      have hsucc := toNat_succ fits
      rw [boundAfter, if_neg greatest, UInt16.lt_iff_toNat_lt, hsucc] at hlt
      exact UInt16.le_iff_toNat_le.mpr (Nat.le_of_lt_succ hlt)
    · rintro ⟨hle, -⟩
      exact lt_boundAfter hle fits

/-- The walk looks at an index that it finds a row for exactly if the table leads there, and it
never looks at the greatest one. -/
theorem mem_reduce_boundAfter_iff : k ∈ (t.reduce (boundAfter maxHops) destination).keys ↔
    t.Leads maxHops destination k ∧ k ≠ 0xffff := by
  have unanswered (h : Hop) : ¬ h.From destination ↔
      (h.success = true → ∀ a, h.address = some a → ¬ a.Alias destination) := by
    simp [Hop.From, Address.canonical_eq_iff]
  simp only [mem_keys_reduce_iff, visits_iff, Leads, lt_boundAfter_iff, unanswered]
  constructor
  · rintro ⟨hk, first, ⟨within, hne⟩, rows, before⟩
    refine ⟨⟨first, within, fun j hj hle => ?_, before⟩, hne⟩
    by_cases he : j = k
    · exact he ▸ hk
    · exact rows j hj (UInt16.lt_of_le_of_ne hle he)
  · rintro ⟨⟨first, within, rows, before⟩, hne⟩
    exact ⟨rows k first (UInt16.le_refl k), first, ⟨within, hne⟩,
      fun j hj hlt => rows j hj (UInt16.le_of_lt hlt), before⟩

end HopTable

namespace Trace

variable {setup : TraceSetup} {plugins : PluginSet} {events : List TraceEvent} {t : Trace}
  {route : HopTable}

/-- Only a trace with valid parameters ends with a route. -/
theorem valid_of_ok (hr : (start setup plugins).run events = some t)
    (hd : t.result? = some (.ok route)) : setup.params.Valid := by
  by_contra faulty
  obtain ⟨fault, hf⟩ := Option.ne_none_iff_exists'.mp faulty
  obtain ⟨now, rfl⟩ := eq_start_of_fault hf hr
  rw [start_of_fault hf] at hd
  simp [result?] at hd

theorem route_of_ok (hr : (start setup plugins).run events = some t)
    (hd : t.result? = some (.ok route)) :
    route = t.table.reduce (HopTable.boundAfter setup.params.maxHops) setup.destination := by
  have hv := concluded_of_run (valid_of_ok hr hd) hr _ (result?_eq_some_iff.mp hd)
  rw [verdict, setup_of_start hr] at hv
  split at hv
  next => contradiction
  next => exact Except.ok.inj hv

/-- A trace that ends with a route has sent every probe whose send did not crash. -/
theorem unfailing_of_ok (hr : (start setup plugins).run events = some t)
    (hd : t.result? = some (.ok route)) (safe : ∀ i, .sendEnds i .crashed ∉ events) :
    Unfailing events := by
  intro i r hm
  cases r with
  | sent => rfl
  | crashed => exact absurd hm (safe i)
  | failed cause =>
    obtain ⟨_, _, -, herror⟩ := result_of_failed (valid_of_ok hr hd) hr hd ⟨i, cause, hm⟩
    contradiction

/-- If the destination answered at no hop before the last one, every hop has been begun. -/
theorem last_mem_begun (valid : setup.params.Valid)
    (hr : (start setup plugins).run events = some t) (drained : t.stage.Drained)
    (late : ∀ h ∈ (start setup plugins).recorded events, h.From setup.destination →
      setup.params.maxHops ≤ h.ttl) : setup.params.maxHops ∈ t.begun := by
  obtain ⟨r, hbegun, -, hends⟩ := exists_end valid hr drained
  suffices hlast : r = setup.params.maxHops from hlast ▸ hbegun
  rcases hends with hreached | ⟨hlast, -⟩
  · obtain ⟨h, hm, rfl, hfrom⟩ := (reached_hops_iff hr r).mp hreached
    exact UInt16.le_antisymm (le_maxHops_of_begun valid hr hbegun) (late h hm hfrom)
  · exact hlast

/-- So the table leads to the last hop of a trace that begins with the first one. -/
theorem leads_to_last (valid : setup.params.Valid) (first : setup.params.beginHop = 1)
    (hu : Unfailing events) (hr : (start setup plugins).run events = some t)
    (drained : t.stage.Drained)
    (late : ∀ h ∈ (start setup plugins).recorded events, h.From setup.destination →
      setup.params.maxHops ≤ h.ttl) :
    t.table.Leads setup.params.maxHops setup.destination setup.params.maxHops := by
  have hlast := last_mem_begun valid hr drained late
  refine ⟨first ▸ (Params.valid_iff.mp valid).1.2, UInt16.le_refl _, fun j hj hle => ?_,
    fun j _ hlt x hx hfrom => ?_⟩
  · have hj := begun_of_le valid hr (first ▸ hj) hle hlast
    rw [HopTable.mem_keys_iff, row_of_drained valid hu hr drained, if_pos hj]
    exact ⟨_, rfl⟩
  · obtain ⟨h, hm, rfl, hfrom⟩ :=
      (reached_hops_iff hr j).mp ⟨x, hx, Hop.reached_iff.mpr hfrom⟩
    exact UInt16.not_lt.mpr (late h hm hfrom) hlt

/-- A route keeps what its table leads to up to the last hop to keep, except for the greatest index
of all, whether the table was loaded or is that of a trace. So a trace from hop one on that was not
answered by the destination before its last hop has a row for that hop and keeps it, unless it is
the greatest. -/
theorem hops_kept_iff (maxHops : UInt16) (destination : Address) :
    (∀ text table plugins, HopTable.load text = .ok table →
      ∃ route, (reduceText text destination maxHops plugins).result = .ok route ∧
        ∀ k, k ∈ route.keys ↔ table.Leads maxHops destination k ∧ k ≠ 0xffff) ∧
    ∀ (setup : TraceSetup) (plugins : PluginSet) (events : List TraceEvent) (t : Trace)
      (route : HopTable), setup.params.maxHops = maxHops → setup.destination = destination →
      (start setup plugins).run events = some t → t.result? = some (.ok route) →
        (∀ k, k ∈ route.keys ↔ t.table.Leads maxHops destination k ∧ k ≠ 0xffff) ∧
        (setup.params.beginHop = 1 → (∀ i, .sendEnds i .crashed ∉ events) →
          (∀ h ∈ (start setup plugins).recorded events, h.From destination → maxHops ≤ h.ttl) →
            maxHops ∈ t.table.keys ∧ (maxHops ∈ route.keys ↔ maxHops ≠ 0xffff)) := by
  constructor
  · intro text table plugins loaded
    refine ⟨table.reduce (HopTable.boundAfter maxHops) destination, ?_,
      fun k => HopTable.mem_reduce_boundAfter_iff⟩
    simp only [reduceText, loaded]
  · rintro setup plugins events t route rfl rfl hr hd
    have kept (k : UInt16) : k ∈ route.keys ↔
        t.table.Leads setup.params.maxHops setup.destination k ∧ k ≠ 0xffff := by
      rw [route_of_ok hr hd]
      exact HopTable.mem_reduce_boundAfter_iff
    refine ⟨kept, fun first safe late => ?_⟩
    have leads := leads_to_last (valid_of_ok hr hd) first (unfailing_of_ok hr hd safe) hr
      (drained_of_result hd) late
    refine ⟨leads.2.2.1 _ leads.1 leads.2.1, ?_⟩
    rw [kept]
    exact and_iff_right leads

theorem hops_kept_iff_crossed :
    (∃ table route, HopTable.load "\x7b\"1\":[]\x7d" = .ok table ∧
      (reduceText "\x7b\"1\":[]\x7d" (.v4 ⟨192, 0, 2, 1⟩) 2 {}).result = .ok route ∧
        1 ∈ route.keys) ∧
    ∃ t route, (start crossed echo).run crossedRun = some t ∧ t.result? = some (.ok route) ∧
      2 ∈ t.table.keys ∧ 2 ∈ route.keys := by
  obtain ⟨loaded, traced⟩ := hops_kept_iff 2 (.v4 ⟨192, 0, 2, 1⟩)
  constructor
  · obtain ⟨table, htable, hkeys⟩ : ∃ table, HopTable.load "\x7b\"1\":[]\x7d" = .ok table ∧
        1 ∈ table.keys := ⟨_, rfl, by decide⟩
    obtain ⟨route, hroute, kept⟩ := loaded _ table {} htable
    refine ⟨table, route, htable, hroute, (kept 1).mpr ⟨?_, by decide⟩⟩
    refine ⟨by decide, by decide, fun j first hle => ?_, fun j first hlt => ?_⟩
    · exact UInt16.le_antisymm first hle ▸ hkeys
    · exact absurd hlt (UInt16.not_lt.mpr first)
  · obtain ⟨t, route, hr, hd⟩ : ∃ t route, (start crossed echo).run crossedRun = some t ∧
        t.result? = some (.ok route) := ⟨_, _, rfl, rfl⟩
    have safe : ∀ i, .sendEnds i .crashed ∉ crossedRun := by
      have hu : Unfailing crossedRun := unfailing_of_all (by decide)
      intro i hm
      cases hu i _ hm
    have late : ∀ h ∈ (start crossed echo).recorded crossedRun,
        h.From (.v4 ⟨192, 0, 2, 1⟩) → 2 ≤ h.ttl := by
      have hrecorded : (start crossed echo).recorded crossedRun = [routerHop 2, routerHop 1] := rfl
      intro h hm hfrom
      have hnot : ∀ x ∈ [routerHop 2, routerHop 1], x.reached (.v4 ⟨192, 0, 2, 1⟩) = false := by
        decide
      have hno := hnot h (hrecorded ▸ hm)
      rw [Hop.reached_iff.mpr hfrom] at hno
      contradiction
    obtain ⟨table, kept⟩ :=
      (traced crossed echo crossedRun t route rfl rfl hr hd).2 rfl safe late
    exact ⟨t, route, hr, hd, table, kept.mpr (by decide)⟩

end Trace

end HopTrace
