import HopTrace.Proofs.Plugin.Calls
import HopTrace.Proofs.Trace.OneThread
import HopTrace.Proofs.Trace.Outcome

/-!
# What the plugins are told

Hooks are due when the main loop begins a hop, and when a probe records one. The
first are fired there and then, the others one by one before the probe ends.
Every plugin is called with every hook, in the order in which they are fired. On
one thread that is the order in which they are due.
-/

namespace HopTrace

def Probe.Phase.untold : Probe.Phase → List Hook
  | .settled _ _ news => news.map Probe.News.hook
  | _ => []

namespace Trace

variable {t t' : Trace} {e : TraceEvent} {ttl : UInt16}

/-! ## Hops begun -/

/-- The hop that the main loop begins by an event: its check is over and it is at the hop. -/
def opensBy (t : Trace) (e : TraceEvent) : Option UInt16 :=
  match t.stage with
  | .checking _ => (t.step e).bind (·.stage.hop?)
  | _ => none

def opened (t : Trace) (events : List TraceEvent) : List UInt16 := t.observe opensBy events

theorem opensBy_of_ne (h : ∀ ttl, t.stage ≠ .checking ttl) : t.opensBy e = none := by
  unfold opensBy
  split
  next ttl hs => exact absurd hs (h ttl)
  next => rfl

theorem opensBy_of_checking (hs : t.step e = some t') (stage : t.stage = .checking ttl) :
    t.opensBy e = t'.stage.hop? := by
  rw [opensBy, stage, hs]
  rfl

theorem opensBy_of_stage (hs : t.step e = some t') (h : t'.stage = t.stage) :
    t.opensBy e = none := by
  by_cases hc : ∃ ttl, t.stage = .checking ttl
  · obtain ⟨ttl, hc⟩ := hc
    rw [opensBy_of_checking hs hc, h, hc]
    rfl
  · exact opensBy_of_ne fun ttl hs => hc ⟨ttl, hs⟩

theorem HopOver.not_checking (passed : t.HopOver ttl) (k : UInt16) : t.stage ≠ .checking k := by
  have hhop := passed.hop.1
  rintro hs
  simp [hs, Stage.hop?] at hhop

/-- A move of the main loop begins a hop only if no wake is pending at its check. -/
theorem MainMove.opens (hs : t.step .main = some t') (move : MainMove t t') :
    t.opensBy .main = none ∧ t'.fired = t.fired ∧ t'.plugins = t.plugins ∨
      ∃ ttl firing, t.opensBy .main = some ttl ∧ t.stage = .checking ttl ∧
        t.arrival.pending = false ∧ firing.hook = .ttlChange ttl ∧ t'.fired = firing :: t.fired ∧
        t'.plugins = (t.plugins.fire (.ttlChange ttl)).1 := by
  cases move with
  | beginHop stage quiet =>
    exact .inr ⟨_, _, opensBy_of_checking hs stage, stage, quiet, rfl, rfl, rfl⟩
  | stop stage => exact .inl ⟨opensBy_of_checking hs stage, rfl, rfl⟩
  | nextHop passed | lastHop passed => exact .inl ⟨opensBy_of_ne passed.not_checking, rfl, rfl⟩
  | request stage | grant stage | join stage | spawn stage | pause stage | release stage
  | reap stage | miss stage | leave stage | fail stage | succeed stage =>
    exact .inl ⟨opensBy_of_ne (by simp [stage]), rfl, rfl⟩

/-! ## Hooks fired -/

def tellsBy (t : Trace) : TraceEvent → Option Hook
  | .probe i => t.probes[i]?.bind fun p =>
    match p.phase with
    | .settled _ false (n :: _) => some n.hook
    | _ => none
  | _ => none

def firesBy (t : Trace) (e : TraceEvent) : List Hook :=
  (t.opensBy e).toList.map Hook.ttlChange ++ (t.tellsBy e).toList

theorem tellsBy_probe {i : Nat} {p : Probe} (found : t.probes[i]? = some p)
    (other : ∀ o n news, p.phase ≠ .settled o false (n :: news)) : t.tellsBy (.probe i) = none := by
  simp only [tellsBy, found, Option.bind_some]

theorem begins_of_tellsBy {hook : Hook} (h : t.tellsBy e = some hook) : hook.begins? = none := by
  cases e with
  | probe i =>
    obtain ⟨p, -, hp⟩ := Option.bind_eq_some_iff.mp h
    split at hp
    next o n news _ =>
      obtain rfl := Option.some.inj hp
      exact n.begins_hook
    next => cases hp
  | _ => cases h

/-- What an event adds to the hooks fired and to what the plugins have been called with. -/
theorem fired_of_step (hs : t.step e = some t') :
    t'.hooks = (t.firesBy e).reverse ++ t.hooks ∧ t'.plugins = t.plugins.told (t.firesBy e) := by
  have silent (opens : t.opensBy e = none) (tells : t.tellsBy e = none)
      (hooks : t'.hooks = t.hooks) (plugins : t'.plugins = t.plugins) :
      t'.hooks = (t.firesBy e).reverse ++ t.hooks ∧
        t'.plugins = t.plugins.told (t.firesBy e) := by
    have hnil : t.firesBy e = [] := by simp [firesBy, opens, tells]
    rw [hnil, PluginSet.told_nil]
    exact ⟨hooks, plugins⟩
  cases move_of_step hs with
  | main move =>
    rcases move.opens hs with ⟨hnone, hf, hp⟩ | ⟨ttl, firing, hopen, -, -, hhook, hf, hp⟩
    · exact silent hnone rfl (congrArg (List.map Firing.hook) hf) hp
    · have hfires : t.firesBy .main = [.ttlChange ttl] := by
        rw [firesBy, hopen]
        rfl
      rw [hfires, hp, PluginSet.fire_eq]
      refine ⟨?_, rfl⟩
      rw [hooks, hf, List.map_cons, hhook]
      rfl
  | @probe i _ _ _ _ found move =>
    have hopen := opensBy_of_stage hs move.stage
    cases move with
    | @tell o n news phase =>
      have hfires : t.firesBy (.probe i) = [n.hook] := by
        simp [firesBy, hopen, tellsBy, found, phase]
      rw [hfires]
      exact ⟨rfl, PluginSet.fire_eq ..⟩
    | sent | refused | crash => exact silent hopen rfl rfl rfl
    | register phase | withdraw phase | fail phase | accept phase | expire phase | giveUp phase
    | record phase | signal phase | giveBack phase | leave phase =>
      exact silent hopen (tellsBy_probe found (by simp [phase])) rfl rfl
  | dispatch move =>
    exact silent (opensBy_of_stage hs (by cases move <;> rfl)) rfl (by cases move <;> rfl)
      (by cases move <;> rfl)
  | loop move =>
    exact silent (opensBy_of_stage hs rfl) (by cases move <;> rfl) rfl rfl
  | clock => exact silent (opensBy_of_stage hs rfl) rfl rfl rfl

theorem begins_firesBy (t : Trace) (e : TraceEvent) :
    (t.firesBy e).filterMap Hook.begins? = (t.opensBy e).toList := by
  have htells : (t.tellsBy e).toList.filterMap Hook.begins? = [] := by
    cases htell : t.tellsBy e with
    | none => rfl
    | some hook => simp [begins_of_tellsBy htell]
  rw [firesBy, List.filterMap_append, htells]
  cases t.opensBy e <;> simp [Hook.begins?]

variable {setup : TraceSetup} {plugins : PluginSet} {events : List TraceEvent}

/-- Every plugin is called with all the hooks, in the order in which they are fired. -/
theorem plugins_of_run (valid : setup.params.Valid)
    (hr : (start setup plugins).run events = some t) :
    t.plugins = plugins.told t.hooks.reverse := by
  refine run_induction (P := fun _ s => s.plugins = plugins.told s.hooks.reverse) ?_ ?_ hr
  · have hv : setup.params.fault? = none := valid
    simp only [start, hv, Trace.fireAll_eq, say, PluginSet.fireAll_eq, hooks, List.append_nil,
      firings_hooks, List.reverse_reverse]
  · intro events s e s' _ ih hs
    obtain ⟨hhooks, hplugins⟩ := fired_of_step hs
    rw [hplugins, hhooks, ih, PluginSet.told_told, List.reverse_append, List.reverse_reverse]

/-- The hops that the plugins are told of are those that are begun. -/
theorem begun_of_run (valid : setup.params.Valid)
    (hr : (start setup plugins).run events = some t) :
    t.begun = ((start setup plugins).opened events).reverse := by
  refine run_induction (P := fun events s =>
    s.begun = ((start setup plugins).opened events).reverse) (begun_start valid plugins) ?_ hr
  intro events s e s' hr' ih hs
  rw [begun, (fired_of_step hs).1, List.filterMap_append, List.filterMap_reverse, begins_firesBy,
    opened, observe_concat _ hr' hs, List.reverse_append, ← opened, ← ih, begun]

theorem mem_opened_iff (valid : setup.params.Valid)
    (hr : (start setup plugins).run events = some t) :
    ttl ∈ (start setup plugins).opened events ↔ ttl ∈ t.begun := by
  rw [begun_of_run valid hr, List.mem_reverse]

/-! ## Hooks due -/

def hooksOf (t : Trace) (h : Hop) : List Hook := (t.newsOf h).map Probe.News.hook

theorem begins_hooksOf (t : Trace) (h : Hop) : (t.hooksOf h).filterMap Hook.begins? = [] := by
  simp [hooksOf, Probe.News.begins_hook]

def dueBy (t : Trace) (e : TraceEvent) : List Hook :=
  (t.opensBy e).toList.map Hook.ttlChange ++ (t.recordedBy e).toList.flatMap t.hooksOf

def due (t : Trace) (events : List TraceEvent) : List Hook :=
  (t.observe (fun s e => some (s.dueBy e)) events).flatten

theorem due_concat {s : Trace} (hr : t.run events = some s) (hs : s.step e = some t') :
    t.due (events ++ [e]) = t.due events ++ s.dueBy e := by
  rw [due, observe_concat _ hr hs, List.flatten_append]
  simp [due]

/-- The hooks that are due and have not been fired. -/
def untold (t : Trace) : List Hook := t.standings.toList.flatMap (·.2.untold)

section

variable {i : Nat} {p : Probe} {q : Probe.Phase}

/-- What a probe has to fire it fires in turn, from when it records a hop. -/
theorem ProbeMove.untold (found : t.probes[i]? = some p) (move : ProbeMove t i p e q t') :
    (t.tellsBy e).toList ++ q.untold =
      p.phase.untold ++ (t.recordedBy e).toList.flatMap t.hooksOf := by
  cases move with
  | @record h phase =>
    rw [tellsBy_probe found (by simp [phase]), recordedBy_of_recording found phase, phase]
    simp [Probe.Phase.untold, hooksOf]
  | @tell o n news phase =>
    rw [recordedBy_probe found (by simp [phase]), phase]
    simp [tellsBy, found, phase, Probe.Phase.untold]
  | sent phase | refused phase | crash phase =>
    rw [phase]
    rfl
  | register phase | withdraw phase | fail phase | accept phase | expire phase | giveUp phase
  | signal phase | giveBack phase | leave phase =>
    rw [tellsBy_probe found (by simp [phase]), recordedBy_probe found (by simp [phase]), phase]
    simp [Probe.Phase.untold]

theorem untold_of_standings (h : t'.standings = t.standings) : t'.untold = t.untold := by
  rw [Trace.untold, h, Trace.untold]

/-- Whatever is not a move of a probe leaves that alone. -/
theorem Move.untold_of_aside (move : Move t e t') (aside : e.probe? = none) :
    t'.untold = t.untold ∧ t.tellsBy e = none ∧ t.recordedBy e = none := by
  cases move with
  | main move =>
    refine ⟨?_, rfl, rfl⟩
    cases move with
    | spawn =>
      unfold Trace.untold standings
      rw [Array.map_push, Array.toList_push, List.flatMap_append]
      simp [Probe.standing, Probe.Phase.untold]
    | _ => rfl
  | probe found move => simp [move.probe?] at aside
  | dispatch move =>
    refine ⟨?_, rfl, rfl⟩
    cases move with
    | deliver => exact untold_of_standings (standings_deliver ..)
    | _ => rfl
  | loop move => exact ⟨rfl, by cases move <;> rfl, by cases move <;> rfl⟩
  | clock => exact ⟨rfl, rfl, rfl⟩

/-- Hooks that become due are fired, or join those that have still to be. -/
theorem untold_of_step (hs : t.step e = some t') :
    (t.firesBy e ++ t'.untold).Perm (t.untold ++ t.dueBy e) := by
  have hmove := move_of_step hs
  cases haside : e.probe? with
  | none =>
    obtain ⟨huntold, htells, hrec⟩ := hmove.untold_of_aside haside
    rw [firesBy, dueBy, htells, hrec, huntold]
    simpa using List.perm_append_comm
  | some j =>
    cases hmove with
    | @probe i p _ q _ found move =>
      have hopen := opensBy_of_stage hs move.stage
      have hget : t.standings.toList[i]? = some (p.key, p.phase) := by
        rw [Array.getElem?_toList]
        exact getElem?_standings found
      have hset : t'.untold = (t.standings.toList.set i (p.key, q)).flatMap (·.2.untold) := by
        rw [Trace.untold, move.standings, Array.toList_setIfInBounds]
      rw [firesBy, dueBy, hopen, hset, Trace.untold]
      have hperm := flatMap_set_perm (b := (p.key, q)) (fun s => s.2.untold) hget
        (move.untold found)
      simpa using hperm
    | main | dispatch | clock => cases haside
    | loop move => cases move <;> cases haside

theorem untold_of_not_midway {s : ProbeKey × Probe.Phase} (h : s.2.isMidway ≠ true) :
    s.2.untold = [] := by
  obtain ⟨key, phase⟩ := s
  cases phase with
  | settled => exact absurd rfl h
  | _ => rfl

/-- If only one probe is midway, all that is still to be fired it has to fire. -/
theorem untold_of_midway (h : ∀ j ∈ t.midway, j = i) (found : t.probes[i]? = some p) :
    t.untold = p.phase.untold := by
  have hget : t.standings.toList[i]? = some (p.key, p.phase) := by
    rw [Array.getElem?_toList]
    exact getElem?_standings found
  refine flatMap_eq_of_single (fun s => s.2.untold) hget fun j s hj hne => ?_
  rw [Array.getElem?_toList] at hj
  exact untold_of_not_midway fun hmidway => hne (h j (mem_midway_of_standing hj hmidway))

theorem untold_eq_nil (h : t.midway = []) : t.untold = [] := by
  rw [untold, List.flatMap_eq_nil_iff]
  intro s hs
  obtain ⟨j, hj⟩ := List.mem_iff_getElem?.mp hs
  rw [Array.getElem?_toList] at hj
  refine untold_of_not_midway fun hmidway => ?_
  have hmem := mem_midway_of_standing hj hmidway
  simp [h] at hmem

theorem begins_untold (t : Trace) : t.untold.filterMap Hook.begins? = [] := by
  rw [List.filterMap_eq_nil_iff]
  intro hook hm
  obtain ⟨⟨key, phase⟩, -, hphase⟩ := List.mem_flatMap.mp hm
  cases phase with
  | settled o arrived news =>
    obtain ⟨n, -, rfl⟩ := List.mem_map.mp hphase
    exact n.begins_hook
  | _ => simp [Probe.Phase.untold] at hphase

/-- On one thread the hooks that become due are fired in that order. -/
theorem untold_of_yields (hs : t.step e = some t') (yields : t.Yields e) :
    t.firesBy e ++ t'.untold = t.untold ++ t.dueBy e := by
  have hmove := move_of_step hs
  cases haside : e.probe? with
  | none =>
    obtain ⟨huntold, htells, hrec⟩ := hmove.untold_of_aside haside
    have hnil : t.untold = [] := by
      refine untold_eq_nil (List.eq_nil_iff_forall_not_mem.mpr fun i hi => ?_)
      simpa [haside] using yields i hi
    rw [firesBy, dueBy, htells, hrec, huntold, hnil]
    simp
  | some j =>
    cases hmove with
    | @probe i p _ q _ found move =>
      have hbefore : t.untold = p.phase.untold :=
        untold_of_midway (fun k hk => Option.some.inj ((yields k hk).symm.trans move.probe?)) found
      obtain ⟨p', found', -, hphase⟩ := getElem?_standings_iff.mp (move.standing_self found)
      have hafter : t'.untold = p'.phase.untold :=
        untold_of_midway (fun k hk => Option.some.inj
          ((((Move.probe found move).midway yields) k hk).symm.trans move.probe?)) found'
      rw [firesBy, dueBy, opensBy_of_stage hs move.stage, hbefore, hafter, hphase]
      exact move.untold found
    | main | dispatch | clock => cases haside
    | loop move => cases move <;> cases haside

end

end Trace

end HopTrace
