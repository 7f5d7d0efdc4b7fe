import HopTrace.Proofs.Route.Entries
import HopTrace.Proofs.Trace.Standing
import HopTrace.Proofs.Validity

/-!
# Which probes are spawned, and when

The hops are begun one after the other from the first index on, and each gets
all its probes before the next is begun. So the probe with number `i` has the
index that lies `i / n` behind the first, where `n` is the number of
measurements, and its number is its own: 32 bits hold the numbers of all
probes that a trace can have.
-/

namespace HopTrace

def Hook.begins? : Hook → Option UInt16
  | .ttlChange ttl => some ttl
  | _ => none

/-- The news of a hop do not begin any. -/
theorem Probe.News.begins_hook (n : Probe.News) : n.hook.begins? = none := by
  cases n <;> rfl

namespace Trace

def Stage.hop? : Stage → Option UInt16
  | .requesting ttl _ => some ttl
  | .queued ttl _ _ => some ttl
  | .admitted ttl _ => some ttl
  | .joined ttl _ => some ttl
  | .pausing ttl _ => some ttl
  | _ => none

def Stage.due : Stage → Nat
  | .requesting _ left => left
  | .queued _ left _ => left + 1
  | .admitted _ left => left + 1
  | .joined _ left => left + 1
  | _ => 0

def hooks (t : Trace) : List Hook := t.fired.map (·.hook)

def begun (t : Trace) : List UInt16 := t.hooks.filterMap Hook.begins?

/-- How far the main loop has come, and which keys it has given out on its way. -/
structure Schedule (params : Params) (stage : Stage) (keys : Array ProbeKey)
    (begun : List UInt16) : Prop where
  hops : begun.map UInt16.toNat = (List.range' params.beginHop.toNat begun.length).reverse
  next : ∀ ttl, stage = .checking ttl → ttl.toNat = params.beginHop.toNat + begun.length ∧
    ttl ≤ params.maxHops
  current : ∀ ttl, stage.hop? = some ttl → ttl.toNat + 1 = params.beginHop.toNat + begun.length
  last : params.beginHop.toNat + begun.length ≤ params.maxHops.toNat + 1
  due : stage.due ≤ params.numMeasurements.toNat
  size : keys.size + stage.due = begun.length * params.numMeasurements.toNat
  key : ∀ i key, keys[i]? = some key →
    key.ttl.toNat = params.beginHop.toNat + i / params.numMeasurements.toNat ∧ key.seq.toNat = i
  share : ∀ ttl, keys.countP (·.ttl = ttl) + (if stage.hop? = some ttl then stage.due else 0) =
    if ttl ∈ begun then params.numMeasurements.toNat else 0

section

variable {params : Params} {stage : Stage} {keys : Array ProbeKey} {begun : List UInt16}

theorem Schedule.mem_begun (h : Schedule params stage keys begun) {ttl : UInt16} :
    ttl ∈ begun ↔ params.beginHop.toNat ≤ ttl.toNat ∧
      ttl.toNat < params.beginHop.toNat + begun.length := by
  have hm : ttl ∈ begun ↔ ttl.toNat ∈ begun.map UInt16.toNat := by
    simp [UInt16.toNat_inj]
  rw [hm, h.hops]
  simp

theorem Stage.due_eq_zero {stage : Stage} (h : stage.hop? = none) : stage.due = 0 := by
  cases stage <;> simp [Stage.hop?] at h <;> rfl

/-- Another stage at the same hop, with no more and no less to be spawned. -/
theorem Schedule.goOn (h : Schedule params stage keys begun) {stage' : Stage}
    (hop : stage'.hop? = stage.hop? ∨ stage'.hop? = none) (due : stage'.due = stage.due)
    (next : ∀ ttl, stage' ≠ .checking ttl) : Schedule params stage' keys begun where
  hops := h.hops
  next ttl hs := absurd hs (next ttl)
  current ttl hs := by
    rcases hop with hop | hop
    · exact h.current ttl (hop ▸ hs)
    · simp [hop] at hs
  last := h.last
  due := due ▸ h.due
  size := due ▸ h.size
  key := h.key
  share ttl := by
    rcases hop with hop | hop
    · rw [hop, due]
      exact h.share ttl
    · have hs := h.share ttl
      rw [← due, Stage.due_eq_zero hop] at hs
      simpa [hop] using hs

theorem Schedule.beginHop {ttl : UInt16} (h : Schedule params (.checking ttl) keys begun) :
    Schedule params (.requesting ttl params.numMeasurements.toNat) keys (ttl :: begun) where
  hops := by
    rw [List.map_cons, h.hops, (h.next ttl rfl).1, List.length_cons, List.range'_1_concat,
      List.reverse_append]
    rfl
  next := by simp
  current k hk := by
    obtain rfl : ttl = k := by simpa [Stage.hop?] using hk
    rw [(h.next ttl rfl).1]
    rfl
  last := by
    have hn := h.next ttl rfl
    have hm := UInt16.le_iff_toNat_le.mp hn.2
    simp only [List.length_cons]
    omega
  due := by simp [Stage.due]
  size := by
    have hsize := h.size
    simp only [Stage.due, Nat.add_zero, List.length_cons, Nat.succ_mul] at hsize ⊢
    omega
  key := h.key
  share k := by
    have hs := h.share k
    simp only [Stage.hop?, reduceCtorEq, if_false, Nat.add_zero] at hs
    have hnew : ttl ∉ begun := by
      intro hm
      have hc := (h.next ttl rfl).1
      have := (h.mem_begun.mp hm).2
      omega
    by_cases hk : ttl = k
    · subst hk
      rw [hs, if_neg hnew]
      simp [Stage.hop?, Stage.due]
    · have hk' : k ≠ ttl := fun he => hk he.symm
      rw [hs]
      simp [Stage.hop?, hk, hk']

theorem Schedule.nextHop {ttl : UInt16} (h : Schedule params stage keys begun)
    (current : stage.hop? = some ttl) (passed : stage.due = 0) (more : ttl < params.maxHops) :
    Schedule params (.checking (ttl + 1)) keys begun where
  hops := h.hops
  next k hk := by
    obtain rfl : ttl + 1 = k := by simpa using hk
    have hc := h.current ttl current
    have hm := UInt16.lt_iff_toNat_lt.mp more
    have hs := toNat_succ more
    exact ⟨by omega, by rw [UInt16.le_iff_toNat_le]; omega⟩
  current k hk := by simp [Stage.hop?] at hk
  last := h.last
  due := by simp [Stage.due]
  size := by
    have hsize := h.size
    rw [passed] at hsize
    exact hsize
  key := h.key
  share k := by
    have hs := h.share k
    rw [passed, ite_self] at hs
    simpa [Stage.hop?] using hs

theorem div_of_size {m n k d : Nat} (hd : d + 1 ≤ n) (h : m + (d + 1) = (k + 1) * n) :
    m / n = k := by
  rw [Nat.succ_mul] at h
  exact Nat.div_eq_of_lt_le (by omega) (by rw [Nat.succ_mul]; omega)

/-- No more probes are spawned than 32 bits can number. -/
theorem Schedule.size_lt (h : Schedule params stage keys begun) (valid : params.Valid) :
    begun.length * params.numMeasurements.toNat < UInt32.size := by
  have hn := params.numMeasurements.toNat_lt
  have hm := params.maxHops.toNat_lt
  have hb := valid.beginHop_pos
  have hk : begun.length ≤ 65535 := by
    have := h.last
    omega
  calc begun.length * params.numMeasurements.toNat ≤ 65535 * 65535 :=
        Nat.mul_le_mul hk (by omega)
    _ < UInt32.size := by decide

/-- The next probe belongs to the hop in progress, and its number is not too large. -/
theorem Schedule.next_key {ttl : UInt16} {left : Nat}
    (h : Schedule params (.joined ttl left) keys begun) (valid : params.Valid) :
    ttl.toNat = params.beginHop.toNat + keys.size / params.numMeasurements.toNat ∧
      keys.size < UInt32.size := by
  have hsize := h.size
  have hlt := h.size_lt valid
  have hdue := h.due
  have hc := h.current ttl rfl
  simp only [Stage.due] at hsize hdue
  obtain ⟨k, hk⟩ : ∃ k, begun.length = k + 1 := by
    cases hlen : begun.length with
    | zero => simp [hlen] at hsize
    | succ k => exact ⟨k, rfl⟩
  rw [hk] at hsize hc hlt
  have hdiv := div_of_size hdue hsize
  exact ⟨by omega, by omega⟩

/-- The next probe gets the index of its hop and a number that is its own. -/
theorem Schedule.spawn {ttl : UInt16} {left : Nat}
    (h : Schedule params (.joined ttl left) keys begun) (valid : params.Valid) :
    Schedule params (.requesting ttl left) (keys.push ⟨ttl, UInt32.ofNat keys.size⟩) begun where
  hops := h.hops
  next := by simp
  current k hk := h.current k hk
  last := h.last
  due := Nat.le_of_succ_le h.due
  size := by
    have hsize := h.size
    simp only [Stage.due, Array.size_push] at hsize ⊢
    omega
  key i key hi := by
    rw [Array.getElem?_push] at hi
    split_ifs at hi with hlast
    · obtain rfl := Option.some.inj hi
      subst hlast
      obtain ⟨hhop, hlt⟩ := h.next_key valid
      exact ⟨hhop, UInt32.toNat_ofNat_of_lt' hlt⟩
    · exact h.key i key hi
  share k := by
    have hs := h.share k
    rw [← hs, Array.countP_push]
    by_cases hk : ttl = k
    · simp [Stage.hop?, Stage.due, hk]
      omega
    · simp [Stage.hop?, hk]

end

variable {t t' : Trace} {e : TraceEvent}

theorem ProbeMove.begun {i : Nat} {p : Probe} {q : Probe.Phase} (move : ProbeMove t i p e q t') :
    t'.begun = t.begun := by
  cases move with
  | tell => exact List.filterMap_cons_none (Probe.News.begins_hook _)
  | _ => rfl

theorem ProbeMove.stage {i : Nat} {p : Probe} {q : Probe.Phase} (move : ProbeMove t i p e q t') :
    t'.stage = t.stage := by
  cases move <;> rfl

def Scheduled (t : Trace) : Prop := Schedule t.setup.params t.stage t.keys t.begun

theorem HopOver.hop (passed : t.HopOver ttl) : t.stage.hop? = some ttl ∧ t.stage.due = 0 := by
  rcases passed with ⟨hs, -⟩ | ⟨wake, -, hs⟩ <;> rw [hs] <;> exact ⟨rfl, rfl⟩

/-- After the last hop that may be begun all have been begun. -/
theorem Scheduled.through (h : t.Scheduled) (passed : t.HopOver ttl)
    (last : ¬ ttl < t.setup.params.maxHops) :
    t.setup.params.beginHop.toNat + t.begun.length = t.setup.params.maxHops.toNat + 1 := by
  have hc := h.current _ passed.hop.1
  have hl := h.last
  have hn := UInt16.le_iff_toNat_le.mp (UInt16.not_lt.mp last)
  omega

theorem MainMove.scheduled (valid : t.setup.params.Valid) (h : t.Scheduled) (move : MainMove t t') :
    t'.Scheduled := by
  unfold Scheduled at h
  cases move with
  | request stage | grant stage | join stage | pause stage =>
    rw [stage] at h
    exact h.goOn (.inl rfl) rfl (by simp)
  | stop stage | release stage | reap stage | miss stage | leave stage | fail stage
  | succeed stage =>
    rw [stage] at h
    exact h.goOn (.inr rfl) rfl (by simp)
  | lastHop passed => exact h.goOn (.inr rfl) passed.hop.2.symm (by simp)
  | nextHop passed more => exact h.nextHop passed.hop.1 passed.hop.2 more
  | beginHop stage =>
    rw [stage] at h
    exact h.beginHop
  | @spawn ttl left stage =>
    rw [stage] at h
    have hs := h.spawn valid
    rw [size_keys] at hs
    unfold Scheduled Trace.keys standings
    rw [Array.map_push, Array.map_push]
    exact hs

theorem Move.scheduled (valid : t.setup.params.Valid) (h : t.Scheduled) (move : Move t e t') :
    t'.Scheduled := by
  cases move with
  | main move => exact move.scheduled valid h
  | probe found move =>
    unfold Scheduled
    rw [(Move.probe found move).setup, move.stage, move.keys found, move.begun]
    exact h
  | dispatch move =>
    cases move with
    | deliver =>
      unfold Scheduled Trace.keys standings
      rw [standings_deliver]
      exact h
    | _ => exact h
  | loop move => exact h
  | clock later => exact h

theorem begun_start {setup : TraceSetup} (valid : setup.params.Valid) (plugins : PluginSet) :
    (start setup plugins).begun = [] := by
  obtain ⟨plugins', fired, log, listening, hf, hs⟩ := start_of_valid valid plugins
  rw [hs]
  change (fired.map (·.hook)).filterMap Hook.begins? = []
  rw [hf, List.filterMap_eq_nil_iff]
  intro hook hm
  rw [List.mem_reverse, List.mem_map] at hm
  obtain ⟨name, -, rfl⟩ := hm
  rfl

theorem scheduled_start {setup : TraceSetup} (valid : setup.params.Valid) (plugins : PluginSet) :
    (start setup plugins).Scheduled := by
  have hb := begun_start valid plugins
  obtain ⟨plugins', fired, log, listening, -, hs⟩ := start_of_valid valid plugins
  unfold Scheduled
  rw [hb, hs]
  refine ⟨by simp, ?_, by simp [Stage.hop?], ?_, by simp [Stage.due], ?_, ?_, ?_⟩
  · rintro ttl ⟨⟩
    exact ⟨rfl, (Params.valid_iff.mp valid).1.2⟩
  · have := valid.beginHop_le
    simp only [List.length_nil]
    omega
  · simp [Stage.due]
  · simp [Trace.keys, standings]
  · simp [Trace.keys, standings, Stage.hop?]

theorem scheduled_of_run {setup : TraceSetup} (valid : setup.params.Valid) {plugins : PluginSet}
    {events : List TraceEvent} (hr : (start setup plugins).run events = some t) : t.Scheduled := by
  apply And.right (a := t.setup = setup)
  refine run_invariant (P := fun s => s.setup = setup ∧ s.Scheduled)
    ⟨setup_start .., scheduled_start valid plugins⟩ ?_ hr
  rintro s e s' ⟨hset, hsch⟩ move
  exact ⟨move.setup.trans hset, move.scheduled (hset ▸ valid) hsch⟩

/-- The schedule of a run, by the parameters with which it was started. -/
theorem schedule_of_run {setup : TraceSetup} (valid : setup.params.Valid) {plugins : PluginSet}
    {events : List TraceEvent} (hr : (start setup plugins).run events = some t) :
    Schedule setup.params t.stage t.keys t.begun :=
  setup_of_start hr ▸ scheduled_of_run valid hr

end Trace

end HopTrace
