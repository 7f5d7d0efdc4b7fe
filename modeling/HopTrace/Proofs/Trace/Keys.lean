import HopTrace.Proofs.Trace.Pending
import Mathlib.Data.List.Nodup

/-!
# The keys that a trace gives out

A counter of 32 bits numbers the probes. Valid parameters leave it no room to
wrap, since even 65535 hops with 65535 probes each make less than `2 ^ 32`. So no
key is given out twice, and a probe that registers for replies takes the place
of no other.
-/

namespace HopTrace

/-- The counter after some keys have been given out: it goes on by one, in 32 bits, with each. -/
def ProbeKey.counter (given : List ProbeKey) : UInt32 := given.foldl (fun seq _ => seq + 1) 0

theorem ProbeKey.counter_eq (given : List ProbeKey) :
    ProbeKey.counter given = UInt32.ofNat given.length := by
  induction given using List.reverseRecOn with
  | nil => rfl
  | append_singleton given key ih =>
    unfold ProbeKey.counter at ih ⊢
    rw [List.foldl_append, ih, List.length_append, UInt32.ofNat_add]
    rfl

theorem Probe.slot_answer {p : Probe} (h : p.slot ≠ .abandoned) (sender : Address) :
    (p.answer sender).slot ≠ .abandoned := by
  unfold answer
  split
  · exact nofun
  · exact h

namespace Trace

variable {t t' : Trace} {e : TraceEvent} {i : Nat} {k : ProbeKey} {setup : TraceSetup}
  {plugins : PluginSet} {events : List TraceEvent}

/-! ## Keys in the order of a run -/

def spawnedBy (t : Trace) (e : TraceEvent) : Option ProbeKey :=
  (t.step e).bind fun s => s.keys[t.keys.size]?

def given (t : Trace) (events : List TraceEvent) : List ProbeKey := t.observe spawnedBy events

theorem Move.keys (move : Move t e t') : t'.keys = t.keys ∨ ∃ key, t'.keys = t.keys.push key := by
  cases move with
  | main move =>
    cases move with
    | spawn =>
      right
      unfold Trace.keys standings
      rw [Array.map_push, Array.map_push]
      exact ⟨_, rfl⟩
    | _ => exact .inl rfl
  | probe found move => exact .inl (move.keys found)
  | dispatch move =>
    left
    cases move with
    | deliver =>
      unfold Trace.keys standings
      rw [standings_deliver]
      rfl
    | _ => rfl
  | loop | clock => exact .inl rfl

theorem keys_of_step (hs : t.step e = some t') :
    t'.keys.toList = t.keys.toList ++ (t.spawnedBy e).toList := by
  rw [spawnedBy, hs, Option.bind_some]
  rcases (move_of_step hs).keys with h | ⟨key, h⟩
  · simp [h]
  · rw [h, Array.getElem?_push_size, Array.toList_push]
    rfl

theorem given_of_run (hr : (start setup plugins).run events = some t) :
    (start setup plugins).given events = t.keys.toList := by
  refine run_induction (P := fun events s =>
    (start setup plugins).given events = s.keys.toList) ?_ ?_ hr
  · simp [given, Trace.keys, standings, (start_empty setup plugins).1]
  · intro events s e s' hr' ih hs
    rw [given, observe_concat _ hr' hs, ← given, ih, keys_of_step hs]

/-! ## Registering -/

theorem filter_of_pending? (h : t.pending? k = none) :
    t.pending.filter (·.1 ≠ k) = t.pending := by
  rw [List.filter_eq_self]
  intro x hx
  have hne := List.lookup_eq_none_iff.mp h x hx
  rw [bne_iff_ne] at hne
  exact decide_eq_true hne.symm

/-- Only a registration adds to the list of those that wait. It finds nobody under its key, and
does nothing to any other probe. -/
theorem Move.registers (distinct : t.Distinct) (listed : t.Listed) (move : Move t e t')
    (added : (k, i) ∈ t'.pending) (new : (k, i) ∉ t.pending) :
    t.pending? k = none ∧ t'.pending = (k, i) :: t.pending ∧
      ∀ j ≠ i, t'.probes[j]? = t.probes[j]? := by
  cases move with
  | main move => cases move <;> exact absurd added new
  | @probe i p _ _ _ found move =>
    have hothers (j : Nat) (hj : j ≠ i) : t'.probes[j]? = t.probes[j]? :=
      move.getElem?_ne distinct listed found hj.symm
    cases move with
    | register phase =>
      have hnone := not_pending_of_spawned distinct listed found phase
      rcases List.mem_cons.mp added with he | hm
      · obtain ⟨rfl, rfl⟩ := Prod.mk.inj he
        exact ⟨hnone, congrArg _ (filter_of_pending? hnone), hothers⟩
      · exact absurd (List.mem_filter.mp hm).1 new
    | withdraw | giveUp => exact absurd (List.mem_filter.mp added).1 new
    | _ => exact absurd added new
  | dispatch move =>
    cases move with
    | deliver => exact absurd (List.mem_filter.mp added).1 new
    | _ => exact absurd added new
  | loop | clock => exact absurd added new

/-- No probe has lost its slot to another. -/
def Undisplaced (t : Trace) : Prop :=
  ∀ (i : Nat) (p : Probe), t.probes[i]? = some p → p.slot ≠ .abandoned

theorem Move.undisplaced (distinct : t.Distinct) (listed : t.Listed) (h : t.Undisplaced)
    (move : Move t e t') : t'.Undisplaced := by
  intro j o ho
  cases move with
  | main move =>
    cases move with
    | spawn =>
      change (t.probes.push _)[j]? = some o at ho
      rw [Array.getElem?_push] at ho
      split_ifs at ho
      · obtain rfl := Option.some.inj ho
        exact nofun
      · exact h j o ho
    | _ => exact h j o ho
  | @probe i p _ _ _ found move =>
    by_cases hij : i = j
    · subst hij
      rw [move.getElem?_self distinct listed found] at ho
      obtain rfl := Option.some.inj ho
      exact h i p found
    · rw [move.getElem?_ne distinct listed found hij] at ho
      exact h j o ho
  | dispatch move =>
    cases move with
    | deliver =>
      change (t.probesAt _ _)[j]? = some o at ho
      rw [getElem?_answer] at ho
      split_ifs at ho
      · obtain ⟨p, hp, rfl⟩ := Option.map_eq_some_iff.mp ho
        exact Probe.slot_answer (h j p hp) _
      · exact h j o ho
    | _ => exact h j o ho
  | loop | clock => exact h j o ho

theorem undisplaced_of_run (hr : (start setup plugins).run events = some t) : t.Undisplaced := by
  refine run_induction (P := fun _ s => s.Undisplaced) ?_ ?_ hr
  · intro i p found
    simp [(start_empty setup plugins).1] at found
  · intro events s e s' hr' h hs
    exact (move_of_step hs).undisplaced (distinct_of_run hr') (listed_of_run hr') h

/-! ## No two keys alike -/

/-- The probes are numbered in the order in which they are spawned. -/
theorem Schedule.seqs {params : Params} {stage : Stage} {keys : Array ProbeKey}
    {begun : List UInt16} (h : Schedule params stage keys begun) :
    keys.toList.map (·.seq.toNat) = List.range keys.size := by
  apply List.ext_getElem
  · simp
  · intro n hn hn'
    have hlt : n < keys.size := by simpa using hn
    simpa using (h.key n _ (Array.getElem?_eq_getElem hlt)).2

/-- The counter is at the number of keys that have been given out. -/
theorem counter_of_run (valid : setup.params.Valid)
    (hr : (start setup plugins).run events = some t) :
    (ProbeKey.counter t.keys.toList).toNat = t.keys.size := by
  have hsch := schedule_of_run valid hr
  have hlt := hsch.size_lt valid
  have hsize := hsch.size
  rw [ProbeKey.counter_eq, Array.length_toList]
  exact UInt32.toNat_ofNat_of_lt' (by omega)

/-- The probes of a trace have the keys that are due to them by their order, of which no two are
alike. The counter does not wrap. Whoever is put on the list of those that wait finds nobody
under the same key, and nobody ever loses a slot. -/
theorem keys_never_collide (valid : setup.params.Valid)
    (hr : (start setup plugins).run events = some t) :
    (∀ n key, ((start setup plugins).given events)[n]? = some key →
      key.ttl.toNat = setup.params.beginHop.toNat + n / setup.params.numMeasurements.toNat ∧
        key.seq.toNat = n ∧
        key.seq = ProbeKey.counter (((start setup plugins).given events).take n)) ∧
    (ProbeKey.counter ((start setup plugins).given events)).toNat =
      ((start setup plugins).given events).length ∧
    ((start setup plugins).given events).Nodup ∧
    t.probes.toList.map (·.key) = (start setup plugins).given events ∧
    (∀ p ∈ t.probes, p.slot ≠ .abandoned) ∧
    ∀ e s k i, t.step e = some s → (k, i) ∈ s.pending → (k, i) ∉ t.pending →
      t.pending? k = none ∧ s.pending = (k, i) :: t.pending ∧
        ∀ j ≠ i, s.probes[j]? = t.probes[j]? := by
  have hsch := schedule_of_run valid hr
  rw [given_of_run hr]
  refine ⟨fun n key h => ?_, ?_, ?_, ?_, ?_, ?_⟩
  · have hn : n < t.keys.toList.length := (List.getElem?_eq_some_iff.mp h).choose
    rw [Array.getElem?_toList] at h
    obtain ⟨hhop, hseq⟩ := hsch.key n key h
    refine ⟨hhop, hseq, ?_⟩
    rw [ProbeKey.counter_eq, List.length_take_of_le (Nat.le_of_lt hn), ← hseq, UInt32.ofNat_toNat]
  · exact counter_of_run valid hr
  · apply List.Nodup.of_map (·.seq.toNat)
    rw [hsch.seqs]
    exact List.nodup_range
  · simp [Trace.keys, standings, Probe.standing, Function.comp_def]
  · intro p hp
    obtain ⟨i, hi⟩ := Array.mem_iff_getElem?.mp hp
    exact undisplaced_of_run hr i p hi
  · intro e s k i hs added new
    exact (move_of_step hs).registers (distinct_of_run hr) (listed_of_run hr) added new

def widest : TraceSetup where
  destination := .v4 ⟨192, 0, 2, 1⟩
  params := { maxHops := 65535, numMeasurements := 65535 }
  recognise _ := .unrelated

def widestRun : List TraceEvent := List.replicate 9 .main ++ [.probe 0]

/-- The second probe registers while the first one waits. -/
theorem keys_never_collide_widest : widest.params.Valid ∧
    ∃ t s, (start widest {}).run widestRun = some t ∧ t.step (.probe 1) = some s ∧
      (start widest {}).given widestRun = [⟨1, 0⟩, ⟨1, 1⟩] ∧
      ((start widest {}).given widestRun).Nodup ∧
      t.pending = [(⟨1, 0⟩, 0)] ∧ t.pending? ⟨1, 1⟩ = none ∧
      s.pending = [(⟨1, 1⟩, 1), (⟨1, 0⟩, 0)] ∧ s.probes[0]? = t.probes[0]? := by
  have valid : widest.params.Valid := by decide
  obtain ⟨t, s, hr, hs, hkeys, hwaits, hadded⟩ :
      ∃ t s, (start widest {}).run widestRun = some t ∧ t.step (.probe 1) = some s ∧
        t.probes.toList.map (·.key) = [⟨1, 0⟩, ⟨1, 1⟩] ∧ t.pending = [(⟨1, 0⟩, 0)] ∧
        (⟨1, 1⟩, 1) ∈ s.pending :=
    ⟨_, _, rfl, rfl, rfl, rfl, .head _⟩
  obtain ⟨-, -, hdistinct, hgiven, -, registers⟩ := keys_never_collide valid hr
  obtain ⟨hfree, hpending, hothers⟩ := registers _ s _ 1 hs hadded (by simp [hwaits])
  rw [hwaits] at hpending
  exact ⟨valid, t, s, hr, hs, hgiven.symm.trans hkeys, hdistinct, hwaits, hfree, hpending,
    hothers 0 (by decide)⟩

end Trace

end HopTrace
