import HopTrace.Proofs.Trace.EarlyStop
import Mathlib.Data.List.Nodup

/-!
# The hooks of a trace and their order

No hook is fired twice. The name is resolved before anything else, a hop is
announced when it is begun, an address when it first answers, and a hop is
complete when the last of its probes has been recorded. That is the order in
which the hooks become due, and on one thread the one in which they are fired.
On several threads they are still the same hooks.
-/

namespace HopTrace

def Placed {α : Type} (P : List α → α → Prop) (l : List α) : Prop :=
  ∀ before a after, l = before ++ a :: after → P before a

section

variable {α : Type} {P Q : List α → α → Prop} {l m : List α} {a : α}

theorem placed_nil : Placed P [] := by
  intro before a after h
  simp at h

theorem Placed.append (hl : Placed P l) (hm : Placed (fun before a => P (l ++ before) a) m) :
    Placed P (l ++ m) := by
  intro before a after h
  rcases List.append_eq_append_iff.mp h with ⟨between, rfl, hsplit⟩ | ⟨between, hsplit, hrest⟩
  · exact hm between a after hsplit
  · cases between with
    | nil =>
      obtain rfl : l = before := by simpa using hsplit
      simpa using hm [] a after hrest.symm
    | cons b between =>
      obtain ⟨rfl, -⟩ := List.cons.inj hrest
      exact hl before a between hsplit

theorem placed_singleton (ha : P [] a) : Placed P [a] := by
  intro before b after h
  cases before with
  | nil =>
    obtain ⟨rfl, -⟩ := List.cons.inj h
    exact ha
  | cons c before => simp at h

theorem Placed.imp (h : Placed P l) (imp : ∀ before a, P before a → Q before a) : Placed Q l :=
  fun before a after hsplit => imp before a (h before a after hsplit)

end

theorem Hop.answeredBy_eq_some_iff {h : Hop} {a : Address} :
    h.answeredBy = some a ↔ h.success = true ∧ h.address = some a :=
  Option.ite_none_right_eq_some

def Hook.completes? : Hook → Option UInt16
  | .ttlCompleted ttl _ => some ttl
  | _ => none

theorem Hook.completes?_eq_some_iff {hook : Hook} {ttl : UInt16} :
    hook.completes? = some ttl ↔ ∃ hops, hook = .ttlCompleted ttl hops := by
  cases hook <;> simp [completes?]

def Hook.Timely (recorded : List Hop) (before : List Hook) : Hook → Prop
  | .dnsResolve _ => before = []
  | .ttlChange _ => True
  | .newIpFound a => ∃ h, recorded.find? (·.answeredBy = some a) = some h ∧
      .ttlChange h.ttl ∈ before ∧ ∀ hops, .ttlCompleted h.ttl hops ∉ before
  | .ttlCompleted ttl _ => .ttlChange ttl ∈ before

theorem Hook.Timely.concat {recorded : List Hop} {before : List Hook} {hook : Hook}
    (h : hook.Timely recorded before) (x : Hop) : hook.Timely (recorded ++ [x]) before := by
  cases hook with
  | newIpFound a =>
    obtain ⟨first, hfirst, hbefore⟩ := h
    exact ⟨first, by rw [List.find?_append, hfirst]; rfl, hbefore⟩
  | dnsResolve | ttlChange | ttlCompleted => exact h

/-- Which hooks are fired in the course of a trace, given the hops begun and the outcomes
recorded. -/
structure Tally (setup : TraceSetup) (opened : List UInt16) (recorded : List Hop)
    (told : List Hook) : Prop where
  once : told.Nodup
  resolved : ∀ domain, .dnsResolve domain ∈ told ↔ setup.hostname = some domain
  changed : told.filterMap Hook.begins? = opened
  found : ∀ a, .newIpFound a ∈ told ↔ ∃ h ∈ recorded, h.success = true ∧ h.address = some a
  completed : ∀ ttl hops, .ttlCompleted ttl hops ∈ told ↔
    hops = recorded.filter (·.ttl = ttl) ∧ hops.length = setup.params.numMeasurements.toNat

structure Chronicle (setup : TraceSetup) (opened : List UInt16) (recorded : List Hop)
    (told : List Hook) : Prop extends Tally setup opened recorded told where
  timely : Placed (Hook.Timely recorded) told

namespace Tally

variable {setup : TraceSetup} {opened : List UInt16} {recorded : List Hop} {told : List Hook}
  {ttl : UInt16}

theorem mem_changed (h : Tally setup opened recorded told) :
    .ttlChange ttl ∈ told ↔ ttl ∈ opened := by
  rw [← h.changed, List.mem_filterMap]
  constructor
  · exact fun hm => ⟨_, hm, rfl⟩
  · rintro ⟨hook, hm, hbegins⟩
    cases hook with
    | ttlChange k =>
      obtain rfl : k = ttl := Option.some.inj hbegins
      exact hm
    | dnsResolve | newIpFound | ttlCompleted => cases hbegins

/-- No hop is complete twice. -/
theorem nodup_completed (h : Tally setup opened recorded told) :
    (told.filterMap Hook.completes?).Nodup := by
  refine List.pairwise_filterMap.mpr (h.once.imp_of_mem ?_)
  intro hook other hm hm' hne ttl hc k hc' he
  obtain ⟨hops, rfl⟩ := Hook.completes?_eq_some_iff.mp hc
  obtain ⟨hops', rfl⟩ := Hook.completes?_eq_some_iff.mp hc'
  subst he
  exact hne (by rw [((h.completed _ _).mp hm).1, ((h.completed _ _).mp hm').1])

/-- Only the hops begun have an order here. -/
theorem perm {other : List Hook} (h : Tally setup opened recorded told) (same : other.Perm told)
    (changed : other.filterMap Hook.begins? = opened) : Tally setup opened recorded other where
  once := same.nodup_iff.mpr h.once
  resolved domain := same.mem_iff.trans (h.resolved domain)
  changed := changed
  found a := same.mem_iff.trans (h.found a)
  completed ttl hops := same.mem_iff.trans (h.completed ttl hops)

end Tally

namespace Chronicle

variable {setup : TraceSetup} {opened : List UInt16} {recorded : List Hop} {told : List Hook}
  {ttl : UInt16}

theorem begin (hn : 0 < setup.params.numMeasurements.toNat) :
    Chronicle setup [] [] (setup.hostname.toList.map .dnsResolve) where
  once := by cases setup.hostname <;> simp
  resolved domain := by cases setup.hostname <;> simp [eq_comm]
  changed := by cases setup.hostname <;> rfl
  found a := by simp
  completed ttl hops := by
    simp only [List.mem_map, reduceCtorEq, and_false, exists_false, false_iff, not_and]
    rintro rfl hlen
    simp only [List.filter_nil, List.length_nil] at hlen
    omega
  timely := by
    cases setup.hostname with
    | none => exact placed_nil
    | some domain => exact placed_singleton rfl

/-- A hop may be begun that was not begun before. -/
theorem change (h : Chronicle setup opened recorded told) (next : Option UInt16)
    (new : (opened ++ next.toList).Nodup) :
    Chronicle setup (opened ++ next.toList) recorded
      (told ++ next.toList.map Hook.ttlChange) := by
  cases next with
  | none => simpa using h
  | some ttl =>
    have hno : ttl ∉ opened := fun hm => (List.nodup_append.mp new).2.2 ttl hm ttl (by simp) rfl
    exact {
      once := h.once.append (List.nodup_singleton _)
        (List.disjoint_singleton.mpr fun hm => hno (h.mem_changed.mp hm))
      resolved := fun domain => by simp [h.resolved]
      changed := by
        rw [List.filterMap_append, h.changed]
        rfl
      found := fun a => by simp [h.found]
      completed := fun k hops => by simp [h.completed]
      timely := h.timely.append (placed_singleton trivial) }

end Chronicle

namespace Trace

open scoped List

variable {t t' : Trace} {e : TraceEvent} {x : Hop}

/-! ## The hooks about a recorded hop -/

theorem mem_announced {a : Address} : a ∈ t.announced x ↔ x.answeredBy = some a ∧ a ∉ t.seen := by
  simp [announced]

theorem nodup_announced (t : Trace) (x : Hop) : (t.announced x).Nodup := by
  unfold announced
  cases x.answeredBy with
  | none => simp
  | some a => exact (List.nodup_singleton a).filter _

theorem hooksOf_eq (t : Trace) (x : Hop) : t.hooksOf x =
    (t.announced x).map .newIpFound ++
      if ((t.table.record x).hops x.ttl).length = t.measurements then
        [.ttlCompleted x.ttl ((t.table.record x).hops x.ttl)] else [] := by
  rw [hooksOf, newsOf, List.map_append, List.map_map]
  congr 1
  split_ifs <;> rfl

@[simp] theorem dnsResolve_not_mem_hooksOf (t : Trace) (x : Hop) (domain : String) :
    .dnsResolve domain ∉ t.hooksOf x := by
  rw [hooksOf_eq]
  split_ifs <;> simp

@[simp] theorem ttlChange_not_mem_hooksOf (t : Trace) (x : Hop) (ttl : UInt16) :
    .ttlChange ttl ∉ t.hooksOf x := by
  rw [hooksOf_eq]
  split_ifs <;> simp

@[simp] theorem newIpFound_mem_hooksOf {a : Address} :
    .newIpFound a ∈ t.hooksOf x ↔ a ∈ t.announced x := by
  rw [hooksOf_eq]
  split_ifs <;> simp

theorem ttlCompleted_mem_hooksOf {k : UInt16} {hops : List Hop} :
    .ttlCompleted k hops ∈ t.hooksOf x ↔
      k = x.ttl ∧ hops = (t.table.record x).hops x.ttl ∧ hops.length = t.measurements := by
  rw [hooksOf_eq]
  split_ifs with hlen
  · simp only [List.mem_append, List.mem_map, reduceCtorEq, and_false, exists_false, false_or,
      List.mem_singleton, Hook.ttlCompleted.injEq]
    exact and_congr_right fun _ => ⟨fun he => ⟨he, he ▸ hlen⟩, And.left⟩
  · simp only [List.append_nil, List.mem_map, reduceCtorEq, and_false, exists_false, false_iff,
      not_and]
    rintro - rfl
    exact hlen

theorem nodup_hooksOf (t : Trace) (x : Hop) : (t.hooksOf x).Nodup := by
  have hfound : ((t.announced x).map Hook.newIpFound).Nodup :=
    (nodup_announced t x).map fun _ _ he => Hook.newIpFound.inj he
  rw [hooksOf_eq]
  split_ifs
  · exact hfound.append (List.nodup_singleton _) (List.disjoint_singleton.mpr (by simp))
  · rwa [List.append_nil]

variable {recorded : List Hop} {told : List Hook} {opened : List UInt16}

/-- An address is announced after its hop has been begun and before that is complete, and a hop is
complete after it has been begun. -/
theorem placed_hooksOf (first : ∀ a ∈ t.announced x, ∀ h ∈ recorded, h.answeredBy ≠ some a)
    (begun : .ttlChange x.ttl ∈ told) (running : ∀ hops, .ttlCompleted x.ttl hops ∉ told) :
    Placed (fun before => Hook.Timely (recorded ++ [x]) (told ++ before)) (t.hooksOf x) := by
  rw [hooksOf_eq]
  refine Placed.append ?_ ?_
  · rintro before hook after hsplit
    have hmem (k : Hook) (hk : k ∈ before ++ hook :: after) : k ∈ (t.announced x).map .newIpFound :=
      hsplit ▸ hk
    obtain ⟨a, ha, rfl⟩ := List.mem_map.mp (hmem hook (by simp))
    refine ⟨x, ?_, List.mem_append_left _ begun, fun hops hm => ?_⟩
    · have hnone : recorded.find? (·.answeredBy = some a) = none := by
        simpa using first a ha
      rw [List.find?_append, hnone]
      simp [(mem_announced.mp ha).1]
    · rcases List.mem_append.mp hm with hm | hm
      · exact running hops hm
      · have hfound := hmem _ (List.mem_append_left _ hm)
        simp at hfound
  · split_ifs
    · exact placed_singleton (List.mem_append_left _ begun)
    · exact placed_nil

variable {setup : TraceSetup} {plugins : PluginSet} {events : List TraceEvent} {ttl : UInt16}

/-- An outcome is recorded for a hop that has been begun and is not complete. -/
theorem chronicle_record (h : Chronicle setup opened recorded told)
    (measurements : t.measurements = setup.params.numMeasurements.toNat)
    (table : t.table = .ofHops recorded)
    (seen : ∀ a, a ∈ t.seen ↔ ∃ h ∈ recorded, h.answeredBy = some a) (begun : x.ttl ∈ opened)
    (room : (recorded.filter (·.ttl = x.ttl)).length < setup.params.numMeasurements.toNat) :
    Chronicle setup opened (recorded ++ [x]) (told ++ t.hooksOf x) := by
  have hrow : (t.table.record x).hops x.ttl = recorded.filter (·.ttl = x.ttl) ++ [x] := by
    rw [HopTable.hops_record, if_pos rfl, table, HopTable.hops_ofHops]
  have hold (hops : List Hop) : .ttlCompleted x.ttl hops ∉ told := by
    rw [h.completed]
    rintro ⟨rfl, hlen⟩
    omega
  have hseen (a : Address) : a ∈ t.seen ↔ .newIpFound a ∈ told := by
    simp only [seen, h.found, Hop.answeredBy_eq_some_iff]
  refine { once := ?once, resolved := ?resolved, changed := ?changed, found := ?found,
           completed := ?completed, timely := ?timely }
  case once =>
    refine h.once.append (nodup_hooksOf t x) fun hook hm hm' => ?_
    cases hook with
    | dnsResolve domain => exact dnsResolve_not_mem_hooksOf t x domain hm'
    | ttlChange k => exact ttlChange_not_mem_hooksOf t x k hm'
    | newIpFound a => exact (mem_announced.mp (newIpFound_mem_hooksOf.mp hm')).2 ((hseen a).mpr hm)
    | ttlCompleted k hops =>
      obtain ⟨rfl, -⟩ := ttlCompleted_mem_hooksOf.mp hm'
      exact hold hops hm
  case resolved =>
    intro domain
    simp [h.resolved]
  case changed =>
    rw [List.filterMap_append, h.changed, begins_hooksOf, List.append_nil]
  case found =>
    intro a
    rw [List.mem_append, newIpFound_mem_hooksOf, mem_announced, hseen, Hop.answeredBy_eq_some_iff]
    by_cases hm : .newIpFound a ∈ told
    · obtain ⟨y, hy, hfrom⟩ := (h.found a).mp hm
      exact iff_of_true (.inl hm) ⟨y, List.mem_append_left _ hy, hfrom⟩
    · have hno := mt (h.found a).mpr hm
      simp only [hm, List.mem_append, List.mem_singleton, or_and_right, exists_or, exists_eq_left,
        hno, false_or, not_false_iff, and_true]
  case completed =>
    intro k hops
    rw [List.mem_append, ttlCompleted_mem_hooksOf, hrow, measurements, List.filter_append]
    by_cases hk : x.ttl = k
    · subst hk
      simp [hold hops]
    · have hk' : k ≠ x.ttl := fun he => hk he.symm
      simp [h.completed, hk, hk']
  case timely =>
    refine (h.timely.imp fun before hook hb => hb.concat x).append
      (placed_hooksOf ?_ (h.mem_changed.mpr begun) hold)
    exact fun a ha y hy hy' => (mem_announced.mp ha).2 ((seen a).mpr ⟨y, hy, hy'⟩)

theorem Move.seen (move : Move t e t') :
    t'.seen = (t.recordedBy e).toList.flatMap t.announced ++ t.seen := by
  cases move with
  | main move => cases move <;> rfl
  | probe found move =>
    cases move with
    | record phase =>
      rw [recordedBy_of_recording found phase, Option.toList_some, List.flatMap_singleton]
    | sent | refused | crash => rfl
    | register phase | withdraw phase | fail phase | accept phase | expire phase | giveUp phase
    | signal phase | tell phase | giveBack phase | leave phase =>
      rw [recordedBy_probe found (by simp [phase])]
      rfl
  | dispatch move => cases move <;> rfl
  | loop move => cases move <;> rfl
  | clock => rfl

/-- The addresses seen are those of the probes that were answered. -/
theorem mem_seen_iff (hr : (start setup plugins).run events = some t) (a : Address) :
    a ∈ t.seen ↔ ∃ h ∈ (start setup plugins).recorded events, h.answeredBy = some a := by
  refine run_induction (P := fun events s =>
    a ∈ s.seen ↔ ∃ h ∈ (start setup plugins).recorded events, h.answeredBy = some a) ?_ ?_ hr
  · have hnone : (start setup plugins).seen = [] := by
      unfold start
      simp only [Trace.fireAll_eq]
      split <;> rfl
    simp [hnone, recorded]
  · intro events s e s' hr' ih hs
    rw [recorded, observe_concat _ hr' hs, ← recorded, (move_of_step hs).seen]
    cases s.recordedBy e with
    | none => simpa using ih
    | some x =>
      by_cases hm : a ∈ s.seen
      · obtain ⟨y, hy, hfrom⟩ := ih.mp hm
        exact iff_of_true (List.mem_append_right _ hm) ⟨y, List.mem_append_left _ hy, hfrom⟩
      · have hno := mt ih.mpr hm
        simp only [Option.toList_some, List.flatMap_singleton, List.mem_append, mem_announced, hm,
          not_false_iff, and_true, or_false, List.mem_singleton, or_and_right, exists_or,
          exists_eq_left, hno, false_or]

/-! ## The hooks of a run -/

/-- An outcome is recorded for a hop that has been begun, and is one of those that the hop lacks. -/
theorem room_of_recordedBy (valid : setup.params.Valid)
    (hr : (start setup plugins).run events = some t) (hs : t.step e = some t')
    (hrec : t.recordedBy e = some x) :
    x.ttl ∈ (start setup plugins).opened (events ++ [e]) ∧
      (((start setup plugins).recorded events).filter (·.ttl = x.ttl)).length <
        setup.params.numMeasurements.toNat := by
  have hr' : (start setup plugins).run (events ++ [e]) = some t' :=
    run_concat_iff.mpr ⟨t, hr, hs⟩
  have hrow : t'.table.hops x.ttl =
      ((start setup plugins).recorded events).filter (·.ttl = x.ttl) ++ [x] := by
    rw [table_of_start hr', HopTable.hops_ofHops, recorded, observe_concat _ hr hs, hrec,
      List.filter_append, ← recorded]
    simp
  have hle := length_hops_le valid hr' x.ttl
  have hbegun : x.ttl ∈ t'.begun := mem_begun_of_hops valid hr' (h := x) (by simp [hrow])
  rw [hrow, List.length_append, List.length_singleton] at hle
  exact ⟨(mem_opened_iff valid hr').mpr hbegun, hle⟩

theorem nodup_opened (valid : setup.params.Valid)
    (hr : (start setup plugins).run events = some t) :
    ((start setup plugins).opened events).Nodup :=
  List.Nodup.of_map _ ((itinerary_of_run valid hr).contiguous ▸ List.nodup_range')

theorem hooks_start (valid : setup.params.Valid) (plugins : PluginSet) :
    (start setup plugins).hooks.reverse = setup.hostname.toList.map Hook.dnsResolve := by
  obtain ⟨plugins', fired, log, listening, hf, hs⟩ := start_of_valid valid plugins
  rw [hooks, hs]
  simp [hf]

theorem chronicle_of_due (valid : setup.params.Valid)
    (hr : (start setup plugins).run events = some t) :
    Chronicle setup ((start setup plugins).opened events) ((start setup plugins).recorded events)
      ((start setup plugins).hooks.reverse ++ (start setup plugins).due events) := by
  refine run_induction (P := fun events _ => Chronicle setup ((start setup plugins).opened events)
    ((start setup plugins).recorded events)
    ((start setup plugins).hooks.reverse ++ (start setup plugins).due events)) ?_ ?_ hr
  · rw [hooks_start valid plugins, due, observe_nil, List.flatten_nil, List.append_nil]
    exact Chronicle.begin valid.numMeasurements_pos
  · intro events s e s' hr' ih hs
    have hopened : (start setup plugins).opened (events ++ [e]) =
        (start setup plugins).opened events ++ (s.opensBy e).toList := observe_concat opensBy hr' hs
    have hrecorded : (start setup plugins).recorded (events ++ [e]) =
        (start setup plugins).recorded events ++ (s.recordedBy e).toList :=
      observe_concat recordedBy hr' hs
    have hchange := ih.change (s.opensBy e)
      (hopened ▸ nodup_opened valid (run_concat_iff.mpr ⟨s, hr', hs⟩))
    rw [due_concat hr' hs, dueBy, ← List.append_assoc, ← List.append_assoc, hrecorded, hopened]
    cases hrec : s.recordedBy e with
    | none => simpa using hchange
    | some x =>
      obtain ⟨hbegun, hroom⟩ := room_of_recordedBy valid hr' hs hrec
      have hset := setup_of_start hr'
      rw [Option.toList_some, List.flatMap_singleton]
      exact chronicle_record hchange (by rw [measurements, hset]) (table_of_start hr')
        (mem_seen_iff hr') (hopened ▸ hbegun) hroom

/-! ## From due to fired -/

theorem hooks_of_step (hs : t.step e = some t') :
    t'.hooks.reverse ++ t'.untold = t.hooks.reverse ++ (t.firesBy e ++ t'.untold) := by
  rw [(fired_of_step hs).1, List.reverse_append, List.reverse_reverse, List.append_assoc]

/-- Whatever is due has been fired or has still to be. -/
theorem hooks_perm_due (none : t.probes = #[]) (hr : t.run events = some t') :
    (t'.hooks.reverse ++ t'.untold).Perm (t.hooks.reverse ++ t.due events) := by
  refine run_induction (P := fun events s =>
    (s.hooks.reverse ++ s.untold).Perm (t.hooks.reverse ++ t.due events)) ?_ ?_ hr
  · simp [untold, standings, none, due]
  · intro events s e s' hr' ih hs
    calc s'.hooks.reverse ++ s'.untold
        = s.hooks.reverse ++ (s.firesBy e ++ s'.untold) := hooks_of_step hs
      _ ~ s.hooks.reverse ++ (s.untold ++ s.dueBy e) := (untold_of_step hs).append_left _
      _ = s.hooks.reverse ++ s.untold ++ s.dueBy e := (List.append_assoc ..).symm
      _ ~ t.hooks.reverse ++ t.due events ++ s.dueBy e := ih.append_right _
      _ = t.hooks.reverse ++ t.due (events ++ [e]) := by
        rw [due_concat hr' hs, List.append_assoc]

/-- On one thread it is fired in that order. -/
theorem hooks_eq_due (none : t.probes = #[]) (hr : t.run events = some t')
    (single : t.OneThread events) :
    t'.hooks.reverse ++ t'.untold = t.hooks.reverse ++ t.due events := by
  refine along_induction (P := fun events s =>
    s.hooks.reverse ++ s.untold = t.hooks.reverse ++ t.due events) ?_ ?_ hr single
  · simp [untold, standings, none, due]
  · intro events s e s' hr' yields ih hs
    rw [hooks_of_step hs, due_concat hr' hs, untold_of_yields hs yields, ← List.append_assoc, ih,
      List.append_assoc]

theorem begins_hooks (valid : setup.params.Valid)
    (hr : (start setup plugins).run events = some t) :
    (t.hooks.reverse ++ t.untold).filterMap Hook.begins? = (start setup plugins).opened events := by
  rw [List.filterMap_append, begins_untold, List.append_nil, List.filterMap_reverse, ← begun,
    begun_of_run valid hr, List.reverse_reverse]

theorem tally_of_run (valid : setup.params.Valid)
    (hr : (start setup plugins).run events = some t) :
    Tally setup ((start setup plugins).opened events) ((start setup plugins).recorded events)
      (t.hooks.reverse ++ t.untold) :=
  (chronicle_of_due valid hr).toTally.perm (hooks_perm_due (start_empty ..).1 hr)
    (begins_hooks valid hr)

theorem midway_of_drained (hr : (start setup plugins).run events = some t)
    (drained : t.stage.Drained) : t.midway = [] := by
  rw [List.eq_nil_iff_forall_not_mem]
  intro i hi
  obtain ⟨p, found, hmidway⟩ := mem_midway_iff.mp hi
  obtain ⟨o, ho⟩ := exists_outcome_of_drained hr drained (getElem?_standings found)
  simp [ho, Probe.Phase.isMidway] at hmidway

/-- Every plugin is called with the same hooks, none of them twice: the name is resolved first; a
hop is announced when it is begun, an address when it first answers, before its hop is complete;
and a hop is complete, with its row of the table, once all its probes have been recorded. The hooks
about a hop just recorded are fired while its probe is midway, on one thread before anything else
happens. On several threads only their order may differ. -/
theorem hooks_of_run (valid : setup.params.Valid)
    (hr : (start setup plugins).run events = some t) :
    t.plugins.plugins = plugins.plugins.map (fun p => { p with seen := t.hooks ++ p.seen }) ∧
      ((start setup plugins).OneThread events →
        Chronicle setup ((start setup plugins).opened events)
          ((start setup plugins).recorded events) (t.hooks.reverse ++ t.untold)) ∧
      Tally setup ((start setup plugins).opened events)
        ((start setup plugins).recorded events) (t.hooks.reverse ++ t.untold) ∧
      (t.midway = [] → t.untold = []) ∧ (t.stage.Drained → t.midway = []) ∧
      (t.hooks.reverse.filterMap Hook.completes?).Nodup ∧
      ((start setup plugins).opened events).map UInt16.toNat =
        List.range' setup.params.beginHop.toNat ((start setup plugins).opened events).length ∧
      ∀ ttl, t.table.hops ttl = ((start setup plugins).recorded events).filter (·.ttl = ttl) := by
  have tally := tally_of_run valid hr
  refine ⟨?_, fun single => ?_, tally, untold_eq_nil, midway_of_drained hr, ?_,
    (itinerary_of_run valid hr).contiguous, fun ttl => ?_⟩
  · rw [plugins_of_run valid hr, PluginSet.told, List.reverse_reverse]
  · rw [hooks_eq_due (start_empty ..).1 hr single]
    exact chronicle_of_due valid hr
  · have hnodup := tally.nodup_completed
    rw [List.filterMap_append] at hnodup
    exact (List.nodup_append.mp hnodup).1
  · rw [table_of_start hr, HopTable.hops_ofHops]

def crossed : TraceSetup where
  destination := .v4 ⟨192, 0, 2, 1⟩
  hostname := some "gateway.example"
  params := { maxHops := 2, numMeasurements := 1 }
  listening := { bufferSize := 6 }
  recognise := recogniseKey

/-- One router answers both probes, the one to the second hop before that to the first. -/
def crossedRun : List TraceEvent :=
  List.replicate 12 .main ++
    [.probe 0, .sendEnds 0 .sent, .probe 1, .sendEnds 1 .sent, .loop,
      .readEnds (.received (ProbeKey.bytes ⟨2, 1⟩) 6 ⟨.v4 ⟨10, 0, 0, 1⟩, 0, 0⟩), .loop,
      .dispatch, .dispatch] ++ List.replicate 6 (.probe 1) ++
    [.loop, .readEnds (.received (ProbeKey.bytes ⟨1, 0⟩) 6 ⟨.v4 ⟨10, 0, 0, 1⟩, 0, 0⟩), .loop,
      .dispatch, .dispatch] ++ List.replicate 5 (.probe 0) ++
    [.main, .loop, .dispatch, .main, .main, .main]

def routerHop (ttl : UInt16) : Hop := .reply ttl (.v4 ⟨10, 0, 0, 1⟩) ⟨0⟩

def echo : PluginSet := ⟨[{ name := "Echo" }]⟩

theorem hooks_of_run_crossed : ∃ t, (start crossed echo).run crossedRun = some t ∧
    t.hooks.reverse = [.dnsResolve "gateway.example", .ttlChange 1, .ttlChange 2,
      .newIpFound (.v4 ⟨10, 0, 0, 1⟩), .ttlCompleted 2 [routerHop 2],
      .ttlCompleted 1 [routerHop 1]] ∧
    t.plugins.plugins.map (·.seen) = [t.hooks] ∧
    Chronicle crossed [1, 2] [routerHop 2, routerHop 1] t.hooks.reverse ∧
    t.table.hops 1 = [routerHop 1] := by
  obtain ⟨t, result, hr, hhooks, hopened, hrecorded, single, hs⟩ : ∃ t result,
      (start crossed echo).run crossedRun = some t ∧
      t.hooks.reverse = [.dnsResolve "gateway.example", .ttlChange 1, .ttlChange 2,
        .newIpFound (.v4 ⟨10, 0, 0, 1⟩), .ttlCompleted 2 [routerHop 2],
        .ttlCompleted 1 [routerHop 1]] ∧
      (start crossed echo).opened crossedRun = [1, 2] ∧
      (start crossed echo).recorded crossedRun = [routerHop 2, routerHop 1] ∧
      decide ((start crossed echo).OneThread crossedRun) = true ∧ t.stage = .done result :=
    ⟨_, _, rfl, rfl, rfl, rfl, rfl, rfl⟩
  obtain ⟨hplugins, chronicle, -, calm, drained, -, -, hrows⟩ := hooks_of_run (by decide) hr
  refine ⟨t, hr, hhooks, ?_, ?_, ?_⟩
  · simp [hplugins, echo]
  · have chronicle := chronicle (of_decide_eq_true single)
    rwa [hopened, hrecorded, calm (drained (by rw [hs]; trivial)), List.append_nil] at chronicle
  · rw [hrows, hrecorded]
    rfl

end Trace

end HopTrace
