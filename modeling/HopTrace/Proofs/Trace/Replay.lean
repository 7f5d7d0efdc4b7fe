import HopTrace.Proofs.Route.Replay
import HopTrace.Proofs.Trace.Chronicle

/-!
# Replay and live trace agree

A trace that sends all its probes leaves a table with a complete row for each
hop begun and for no other. Its replay fires the hooks that the trace has fired,
each of them once, if in another order; only the name is not resolved again.
-/

namespace HopTrace.Trace

variable {setup : TraceSetup} {plugins : PluginSet} {events : List TraceEvent} {t : Trace}
  {ttl : UInt16} {hops : List Hop}

/-- The rows in the end: one for each hop begun, with all that was recorded for it. -/
theorem mem_rows_of_drained (valid : setup.params.Valid) (hu : Unfailing events)
    (hr : (start setup plugins).run events = some t) (drained : t.stage.Drained) :
    (ttl, hops) ∈ t.table.rows ↔ ttl ∈ (start setup plugins).opened events ∧
      hops = ((start setup plugins).recorded events).filter (·.ttl = ttl) := by
  rw [← HopTable.get?_eq_some_iff, row_of_drained valid hu hr drained, mem_opened_iff valid hr,
    Option.ite_none_right_eq_some, Option.some.injEq, eq_comm]

/-- In the end exactly the hops begun are complete. -/
theorem row_complete_iff (valid : setup.params.Valid) (hu : Unfailing events)
    (hr : (start setup plugins).run events = some t) (drained : t.stage.Drained) :
    (((start setup plugins).recorded events).filter (·.ttl = ttl)).length =
      setup.params.numMeasurements.toNat ↔ ttl ∈ (start setup plugins).opened events := by
  rw [← HopTable.hops_ofHops, ← table_of_start hr, mem_opened_iff valid hr]
  refine ⟨fun hlen => ?_, row_length valid hu hr drained⟩
  have hpos := valid.numMeasurements_pos
  obtain ⟨x, hx⟩ := List.exists_mem_of_length_pos (hlen ▸ hpos)
  exact mem_begun_of_hops valid hr hx

theorem exists_row_iff (valid : setup.params.Valid) (hu : Unfailing events)
    (hr : (start setup plugins).run events = some t) (drained : t.stage.Drained) (P : Hop → Prop) :
    (∃ row ∈ t.table.rows, ∃ h ∈ row.2, P h) ↔
      ∃ h ∈ (start setup plugins).recorded events, P h := by
  constructor
  · rintro ⟨⟨ttl, hops⟩, hrow, h, hm, hp⟩
    obtain ⟨-, rfl⟩ := (mem_rows_of_drained valid hu hr drained).mp hrow
    exact ⟨h, List.mem_of_mem_filter hm, hp⟩
  · rintro ⟨h, hm, hp⟩
    have hmem : h ∈ ((start setup plugins).recorded events).filter (·.ttl = h.ttl) :=
      List.mem_filter.mpr ⟨hm, by simp⟩
    have hbegun := (mem_begun_iff_recorded valid hu hr drained).mpr ⟨h, hm, rfl⟩
    rw [← mem_opened_iff valid hr] at hbegun
    exact ⟨(h.ttl, _), (mem_rows_of_drained valid hu hr drained).mpr ⟨hbegun, rfl⟩, h, hmem, hp⟩

/-- In the end all hooks that were due have been fired, whatever the threads did. -/
theorem tally_of_drained (valid : setup.params.Valid)
    (hr : (start setup plugins).run events = some t) (drained : t.stage.Drained) :
    Tally setup ((start setup plugins).opened events) ((start setup plugins).recorded events)
      t.hooks.reverse := by
  have tally := tally_of_run valid hr
  rwa [untold_eq_nil (midway_of_drained hr drained), List.append_nil] at tally

/-- The replay of the table in the end fires what the trace has fired, except for the name. -/
theorem mem_replay_iff (valid : setup.params.Valid) (hu : Unfailing events)
    (hr : (start setup plugins).run events = some t) (drained : t.stage.Drained) (hook : Hook) :
    hook ∈ t.table.replay ↔ hook ∈ t.hooks ∧ hook.name ≠ .dnsResolve := by
  have tally := tally_of_drained valid hr drained
  have hrows (ttl : UInt16) (hops : List Hop) : (ttl, hops) ∈ t.table.rows ↔ _ :=
    mem_rows_of_drained valid hu hr drained
  rw [HopTable.mem_replay, ← List.mem_reverse]
  cases hook with
  | dnsResolve domain => simp [Hook.Replayed, Hook.name]
  | ttlChange ttl =>
    simp only [Hook.Replayed, hrows, exists_and_left, exists_eq, and_true, tally.mem_changed,
      Hook.name, ne_eq, reduceCtorEq, not_false_iff]
  | newIpFound a =>
    simp only [Hook.Replayed, List.not_mem_nil, not_false_iff, true_and,
      exists_row_iff valid hu hr drained, tally.found, Hop.answeredBy_eq_some_iff, Hook.name,
      ne_eq, reduceCtorEq, and_true]
  | ttlCompleted ttl hops =>
    simp only [Hook.Replayed, hrows, tally.completed, Hook.name, ne_eq, reduceCtorEq,
      not_false_iff, and_true]
    rw [and_comm, and_congr_right_iff]
    rintro rfl
    exact (row_complete_iff valid hu hr drained).symm

/-- A finished trace that sent all its probes has fired the hooks that a replay of its table fires,
each as often, after it has resolved the name. -/
theorem replay_of_run (valid : setup.params.Valid) (hu : Unfailing events)
    (hr : (start setup plugins).run events = some t) {result : Except TraceError HopTable}
    (hd : t.result? = some result) :
    (t.hooks.filter (·.name ≠ .dnsResolve)).Perm t.table.replay ∧
      t.hooks.filter (·.name = .dnsResolve) = setup.hostname.toList.map .dnsResolve ∧
      t.plugins = plugins.told t.hooks.reverse ∧
      (plugins.fireAll t.table.replay).1 = plugins.told t.table.replay := by
  have drained := drained_of_result hd
  have tally := tally_of_drained valid hr drained
  have once : t.hooks.Nodup := List.nodup_reverse.mp tally.once
  refine ⟨?_, ?_, plugins_of_run valid hr, PluginSet.fireAll_eq ..⟩
  · refine (List.perm_ext_iff_of_nodup (once.filter _) (HopTable.nodup_replay _)).mpr ?_
    intro hook
    rw [mem_replay_iff valid hu hr drained, List.mem_filter, decide_eq_true_iff]
  · have same : (t.hooks.filter (·.name = .dnsResolve)).Perm
        (setup.hostname.toList.map .dnsResolve) := by
      refine (List.perm_ext_iff_of_nodup (once.filter _) (by cases setup.hostname <;> simp)).mpr ?_
      intro hook
      rw [List.mem_filter, ← List.mem_reverse]
      cases hook with
      | dnsResolve domain => simp [Hook.name, tally.resolved]
      | ttlChange | newIpFound | ttlCompleted => simp [Hook.name]
    cases hname : setup.hostname with
    | none => simpa [hname] using same
    | some domain => simpa [hname] using same

theorem replay_of_run_crossed : ∃ t route, (start crossed echo).run crossedRun = some t ∧
    Unfailing crossedRun ∧ t.result? = some (.ok route) ∧
    t.table.replay = [.ttlChange 1, .newIpFound (.v4 ⟨10, 0, 0, 1⟩), .ttlCompleted 1 [routerHop 1],
      .ttlChange 2, .ttlCompleted 2 [routerHop 2]] ∧
    (t.hooks.filter (·.name ≠ .dnsResolve)).Perm t.table.replay ∧
    t.hooks.filter (·.name = .dnsResolve) = [.dnsResolve "gateway.example"] := by
  have hu : Unfailing crossedRun := unfailing_of_all (by decide)
  obtain ⟨t, route, hr, hresult, hreplay⟩ : ∃ t route,
      (start crossed echo).run crossedRun = some t ∧ t.result? = some (.ok route) ∧ t.table.replay =
        [.ttlChange 1, .newIpFound (.v4 ⟨10, 0, 0, 1⟩), .ttlCompleted 1 [routerHop 1],
          .ttlChange 2, .ttlCompleted 2 [routerHop 2]] :=
    ⟨_, _, rfl, rfl, rfl⟩
  obtain ⟨same, named, -, -⟩ := replay_of_run (by decide) hu hr hresult
  exact ⟨t, route, hr, hu, hresult, hreplay, same, named⟩

end HopTrace.Trace
