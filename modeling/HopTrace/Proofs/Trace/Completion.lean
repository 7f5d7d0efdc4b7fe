import HopTrace.Proofs.Trace.Readiness
import HopTrace.Proofs.Trace.Route

/-!
# Every trace completes

In an endless run that is fair to all parties and in which time does not stand
still, main loop and probes come to rest, then receive loop and dispatcher. As
somebody has a move until the trace has its result, it has one by then.
-/

namespace HopTrace

variable {t t' : Trace} {e : TraceEvent}

structure Endless (t : Trace) where
  event : Nat → TraceEvent
  state : Nat → Trace
  zero : state 0 = t
  step : ∀ n, (state n).step (event n) = some (state (n + 1))

namespace Endless

/-- Whoever could act from some time on does act, and every time comes. -/
structure Fair (r : Endless t) : Prop where
  turn : ∀ (x : Party) n, (∀ m, n ≤ m → x.CanAct (r.state m)) →
    ∃ m, n ≤ m ∧ (r.event m).party? = some x
  time : ∀ due, ∃ n, due ≤ (r.state n).now

def first (r : Endless t) (n : Nat) : List TraceEvent := (List.range n).map r.event

variable (r : Endless t)

theorem run_first (n : Nat) : t.run (r.first n) = some (r.state n) := by
  induction n with
  | zero => simp [first, r.zero]
  | succ n ih =>
    rw [first, List.range_succ, List.map_append]
    exact Trace.run_concat_iff.mpr ⟨r.state n, ih, r.step n⟩

theorem move (n : Nat) : Trace.Move (r.state n) (r.event n) (r.state (n + 1)) :=
  Trace.move_of_step (r.step n)

theorem kept {P : Trace → Prop} {n : Nat} (h : P (r.state n))
    (succ : ∀ m, n ≤ m → P (r.state m) → P (r.state (m + 1))) {m : Nat} (hm : n ≤ m) :
    P (r.state m) := by
  induction m, hm using Nat.le_induction with
  | base => exact h
  | succ m hm ih => exact succ m hm ih

/-- What makes a number smaller that never grows does not happen for ever. -/
theorem eventually_never {f : Nat → Nat} {P : Nat → Prop} (n : Nat)
    (le : ∀ m, n ≤ m → f (m + 1) ≤ f m) (lt : ∀ m, n ≤ m → P m → f (m + 1) < f m) :
    ∃ k, n ≤ k ∧ ∀ m, k ≤ m → ¬ P m := by
  induction hf : f n using Nat.strong_induction_on generalizing n with
  | _ v ih =>
    by_cases hex : ∃ m, n ≤ m ∧ P m
    · obtain ⟨m, hm, hP⟩ := hex
      have hle : f m ≤ f n := by
        clear hP
        induction m, hm using Nat.le_induction with
        | base => exact Nat.le_refl _
        | succ m hm ih => exact (le m hm).trans ih
      have hlt := lt m hm hP
      obtain ⟨k, hk, hnever⟩ := ih (f (m + 1)) (by omega) (m + 1)
        (fun j hj => le j (by omega)) (fun j hj => lt j (by omega)) rfl
      exact ⟨k, by omega, hnever⟩
    · exact ⟨n, Nat.le_refl _, fun m hm hP => hex ⟨m, hm, hP⟩⟩

end Endless

namespace Trace

theorem Move.effort_le (move : Move t e t') : t'.effort ≤ t.effort := by
  cases hwork : e.isWork with
  | true => exact Nat.le_of_lt (move.effort_lt hwork)
  | false => exact Nat.le_of_eq (move.rests hwork).effort

theorem Move.now_le (move : Move t e t') : t.now ≤ t'.now := by
  cases move with
  | main move => cases move <;> exact Nat.le_refl _
  | probe found move => cases move <;> exact Nat.le_refl _
  | dispatch move => cases move <;> exact Nat.le_refl _
  | loop => exact Nat.le_refl _
  | clock later => exact later

/-- Once the listener is asked to stop, receive loop and dispatcher too have fewer moves after each
that they make. -/
theorem Move.mailEffort (move : Move t e t') (stopped : t.listener.stopRequested = true)
    (idle : e.isWork = false) :
    e.party? = none ∧ t.Idles t' ∧ t'.mailEffort = t.mailEffort ∨ t'.mailEffort < t.mailEffort := by
  cases move with
  | main => contradiction
  | probe found move => simp [move.isWork] at idle
  | dispatch move => exact .inr move.mailEffort_lt
  | loop move => exact .inr (Nat.add_lt_add_right (move.effort_lt stopped) _)
  | clock => exact .inl ⟨rfl, ⟨_, rfl⟩, rfl⟩

end Trace

namespace Endless

variable (r : Endless t)

theorem now_mono {n m : Nat} (h : n ≤ m) : (r.state n).now ≤ (r.state m).now :=
  r.kept (P := fun s => (r.state n).now ≤ s.now) (Nat.le_refl _)
    (fun k _ hk => hk.trans (r.move k).now_le) h

theorem eventually_idle : ∃ n, ∀ m, n ≤ m → (r.event m).isWork = false := by
  obtain ⟨n, -, hn⟩ := eventually_never (f := fun m => (r.state m).effort)
    (P := fun m => (r.event m).isWork = true) 0
    (fun m _ => (r.move m).effort_le) (fun m _ work => (r.move m).effort_lt work)
  exact ⟨n, fun m hm => Bool.eq_false_iff.mpr (hn m hm)⟩

variable {r} {n : Nat}

theorem rests_of_idle (idle : ∀ m, n ≤ m → (r.event m).isWork = false) {m : Nat} (hm : n ≤ m) :
    (r.state n).Rests (r.state m) :=
  r.kept (P := fun s => (r.state n).Rests s) ⟨rfl, rfl, rfl, rfl, rfl⟩
    (fun k hk h => h.trans ((r.move k).rests (idle k hk))) hm

/-- In a fair run main loop and probes rest only if neither has a move. -/
theorem Fair.not_ready (fair : r.Fair) (idle : ∀ m, n ≤ m → (r.event m).isWork = false) :
    ¬ (r.state n).Ready := by
  rintro ⟨x, works, due, can⟩
  obtain ⟨k, hk⟩ := fair.time due
  obtain ⟨m, hm, hx⟩ := fair.turn x (max n k) (fun m hm => by
    have hn : n ≤ m := by omega
    exact can _ (rests_of_idle idle hn) (hk.trans (r.now_mono (by omega))))
  have hwork := TraceEvent.isWork_of_party hx
  rw [works, idle m (by omega)] at hwork
  contradiction

/-- Once the main loop waits for the listener to end, receive loop and dispatcher come to rest. -/
theorem eventually_quiet (attended : ∀ m, (r.state m).Attended)
    (drained : (r.state n).stage.Drained)
    (idle : ∀ m, n ≤ m → (r.event m).isWork = false) :
    ∃ k, n ≤ k ∧ ∀ m, k ≤ m → (r.event m).party? = none ∧
      (r.state m).Idles (r.state (m + 1)) := by
  have stopped (m : Nat) (hm : n ≤ m) : (r.state m).listener.stopRequested = true := by
    apply (attended m).stopped
    rw [(rests_of_idle idle hm).stage]
    exact drained
  have hcases := fun m hm => (r.move m).mailEffort (stopped m hm) (idle m hm)
  obtain ⟨k, hk, hnever⟩ := eventually_never (f := fun m => (r.state m).mailEffort)
    (P := fun m => (r.state (m + 1)).mailEffort < (r.state m).mailEffort) n
    (fun m hm => by
      rcases hcases m hm with ⟨-, -, he⟩ | hlt
      · exact Nat.le_of_eq he
      · exact Nat.le_of_lt hlt)
    (fun m _ hlt => hlt)
  refine ⟨k, hk, fun m hm => ?_⟩
  rcases hcases m (by omega) with ⟨hparty, hidles, -⟩ | hlt
  · exact ⟨hparty, hidles⟩
  · exact absurd hlt (hnever m hm)

/-- In a fair endless run every trace gets its result. -/
theorem Fair.completes {setup : TraceSetup} {plugins : PluginSet}
    {r : Endless (Trace.start setup plugins)} (fair : r.Fair) (valid : setup.params.Valid) :
    ∃ n result, (r.state n).result? = some result := by
  by_contra hno
  have unfinished (n : Nat) : (r.state n).result? = none := by
    rw [Option.eq_none_iff_forall_ne_some]
    exact fun result h => hno ⟨n, result, h⟩
  have attended (m : Nat) := Trace.attended_of_run valid (r.run_first m)
  obtain ⟨n, idle⟩ := r.eventually_idle
  -- from `n` on the run idles, so whatever can act once can act until its turn comes: a task
  -- of the conclusion when the loop has stopped, the loop or a probe when it has not
  by_cases drained : (r.state n).stage.Drained
  · obtain ⟨k, hk, quiet⟩ := eventually_quiet attended drained idle
    have drained' : (r.state k).stage.Drained := by
      rw [(rests_of_idle idle hk).stage]
      exact drained
    obtain ⟨x, can⟩ := Trace.canAct_of_drained (attended k) drained' (unfinished k)
    have hidles (m : Nat) (hm : k ≤ m) : (r.state k).Idles (r.state m) := by
      refine r.kept (P := fun s => (r.state k).Idles s) ⟨_, rfl⟩ ?_ hm
      rintro j hj ⟨now, hs⟩
      obtain ⟨now', hs'⟩ := (quiet j hj).2
      exact ⟨now', by rw [hs', hs]⟩
    obtain ⟨m, hm, hx⟩ := fair.turn x k (fun m hm => can _ (hidles m hm))
    rw [(quiet m hm).1] at hx
    contradiction
  · have hrun := r.run_first n
    have hpos := valid.parallelRequests_pos
    have hroom : 0 < (r.state n).gate.capacity := by
      rw [Trace.capacity_of_run valid hrun]
      exact hpos
    exact fair.not_ready idle
      (Trace.ready_of_not_drained (Trace.balanced_of_run valid hrun) hroom drained)

/-! ## Endless runs that end -/

def idle (t : Trace) : Endless t where
  event n := .passTime (t.now + n + 1)
  state n := { t with now := t.now + n }
  zero := rfl
  step n := by simp [Trace.step, Nat.add_assoc]

def cons {t t' : Trace} {e : TraceEvent} (h : t.step e = some t') (r : Endless t') : Endless t where
  event
    | 0 => e
    | n + 1 => r.event n
  state
    | 0 => t
    | n + 1 => r.state n
  zero := rfl
  step
    | 0 => h.trans (congrArg some r.zero.symm)
    | n + 1 => r.step n

theorem Fair.cons {r : Endless t'} (fair : r.Fair) (h : t.step e = some t') :
    (Endless.cons h r).Fair where
  turn x n can := by
    obtain ⟨m, hm, hx⟩ := fair.turn x n fun m hm => can (m + 1) (by omega)
    exact ⟨m + 1, by omega, hx⟩
  time due := by
    obtain ⟨n, hn⟩ := fair.time due
    exact ⟨n + 1, hn⟩

end Endless

theorem Trace.not_canAct_of_done {x : Party} (balanced : t.Balanced) (attended : t.Attended)
    (finished : t.dispatcher = .finished) {result : Except TraceError HopTable}
    (done : t.stage = .done result) : ¬ x.CanAct t := by
  rintro ⟨e, hx, he⟩
  obtain ⟨t', hs⟩ := Option.isSome_iff_exists.mp he
  cases move_of_step hs with
  | main move =>
    cases move with
    | nextHop passed | lastHop passed =>
      have hhop := passed.hop
      simp [done, Stage.hop?] at hhop
    | _ => simp_all
  | probe found move =>
    have hpos := liveCount_pos found move.live
    have hzero := balanced.liveCount_eq_zero (by rw [done]; trivial)
    omega
  | dispatch move => cases move <;> simp_all
  | loop move =>
    have hended := attended.finished finished
    simp [move.ended_eq_false] at hended
  | clock => cases hx

/-- A run with a result at which everyone has come to an end is the beginning of a fair one. -/
theorem Endless.exists_fair {events : List TraceEvent} (hr : t.run events = some t')
    (balanced : t'.Balanced) (attended : t'.Attended) (finished : t'.dispatcher = .finished)
    {result : Except TraceError HopTable} (done : t'.stage = .done result) :
    ∃ r : Endless t, r.Fair ∧ ∀ n, r.event n ∈ events ∨ (r.event n).party? = none := by
  induction events generalizing t with
  | nil =>
    obtain rfl : t = t' := by simpa using hr
    refine ⟨idle t, ⟨fun x n can => ?_, fun due => ⟨due, ?_⟩⟩, fun n => .inr rfl⟩
    · have hno := Trace.not_canAct_of_done (t := { t with now := t.now + n }) (x := x) balanced
        ⟨attended.started, attended.stopped, attended.finished, attended.joining⟩ finished done
      exact absurd (can n (Nat.le_refl n)) hno
    · exact Nat.le_add_left due t.now
  | cons e rest ih =>
    rw [Trace.run_cons] at hr
    obtain ⟨s, hs, hr⟩ := Option.bind_eq_some_iff.mp hr
    obtain ⟨r, fair, hevents⟩ := ih hr
    refine ⟨cons hs r, fair.cons hs, fun n => ?_⟩
    cases n with
    | zero => exact .inl List.mem_cons_self
    | succ n =>
      rcases hevents n with hm | hnone
      · exact .inl (List.mem_cons_of_mem _ hm)
      · exact .inr hnone

namespace Trace

variable {setup : TraceSetup} {plugins : PluginSet}

/-- A trace from hop one on that sends all its probes ends with the route up to the first hop that
the destination answered, and with all hops if there is none; and in every fair run it ends. -/
theorem completes_with_route (valid : setup.params.Valid) (first : setup.params.beginHop = 1)
    (fits : setup.params.maxHops < 0xffff) :
    (∀ o, (Address.v6 (Octets.mapped o)).canonical = (Address.v4 o).canonical) ∧
    (∀ events t result, Unfailing events → (start setup plugins).run events = some t →
      t.result? = some result → ∃ route r, result = .ok route ∧
        RouteTo setup ((start setup plugins).recorded events) route r) ∧
    ∀ r : Endless (start setup plugins), r.Fair →
      (∀ n i s, r.event n = .sendEnds i s → s = .sent) →
      ∃ n route, (r.state n).result? = some (.ok route) := by
  have ends (events : List TraceEvent) (t : Trace) (result : Except TraceError HopTable)
      (hu : Unfailing events) (hr : (start setup plugins).run events = some t)
      (hd : t.result? = some result) := routeTo_of_run valid first fits hu hr hd
  refine ⟨Address.canonical_mapped, ends, fun r fair sent => ?_⟩
  obtain ⟨n, result, hd⟩ := fair.completes valid
  have hu : Unfailing (r.first n) := by
    intro i s hm
    obtain ⟨m, -, he⟩ := List.mem_map.mp hm
    exact sent m i s he
  obtain ⟨route, -, rfl, -⟩ := ends _ _ _ hu (r.run_first n) hd
  exact ⟨n, route, hd⟩

def threeHops : TraceSetup where
  destination := .v4 ⟨192, 0, 2, 1⟩
  params := { maxHops := 3, numMeasurements := 1 }
  listening := { bufferSize := 6 }
  recognise := recogniseKey

/-- The destination answers the second probe, in its new form, before the first one times out. -/
def earlyRun : List TraceEvent :=
  List.replicate 12 .main ++
    [.probe 0, .sendEnds 0 .sent, .probe 1, .sendEnds 1 .sent, .loop,
      .readEnds (.received (ProbeKey.bytes ⟨2, 1⟩) 6 ⟨.v6 (Octets.mapped ⟨192, 0, 2, 1⟩), 0, 0⟩),
      .loop, .dispatch, .dispatch] ++ List.replicate 7 (.probe 1) ++
    [.main, .passTime 2000000000] ++ List.replicate 6 (.probe 0) ++ [.main, .loop, .dispatch, .main, .main, .main]

theorem completes_with_route_early :
    (∃ t route r, (start threeHops {}).run earlyRun = some t ∧ Unfailing earlyRun ∧
      t.result? = some (.ok route) ∧ route.keys = [1, 2] ∧
      RouteTo threeHops ((start threeHops {}).recorded earlyRun) route r) ∧
    ∃ r : Endless (start threeHops {}), r.Fair ∧
      ∃ n route, (r.state n).result? = some (.ok route) := by
  have valid : threeHops.params.Valid := by decide
  have hu : Unfailing earlyRun := unfailing_of_all (by decide)
  obtain ⟨-, shape, completes⟩ :=
    @completes_with_route threeHops {} valid (by decide) (by decide)
  obtain ⟨t, route, hr, hs, hd, hkeys⟩ : ∃ t route, (start threeHops {}).run earlyRun = some t ∧
      t.stage = .done (.ok route) ∧ t.dispatcher = .finished ∧ route.keys = [1, 2] :=
    ⟨_, _, rfl, rfl, rfl, rfl⟩
  have hresult : t.result? = some (.ok route) := by rw [result?, hs]
  constructor
  · obtain ⟨route', r, he, hroute⟩ := shape earlyRun t _ hu hr hresult
    obtain rfl := Except.ok.inj he
    exact ⟨t, route, r, hr, hu, hresult, hkeys, hroute⟩
  · obtain ⟨r, fair, hevents⟩ := Endless.exists_fair hr (balanced_of_run valid hr)
      (attended_of_run valid hr) hd hs
    refine ⟨r, fair, completes r fair fun n i s he => ?_⟩
    rcases hevents n with hm | hnone
    · exact hu i s (he ▸ hm)
    · rw [he] at hnone
      contradiction

end Trace

end HopTrace
