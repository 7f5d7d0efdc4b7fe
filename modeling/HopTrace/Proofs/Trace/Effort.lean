import HopTrace.Proofs.Trace.Balance

/-!
# How much is left to do

Main loop and probes have a bounded number of moves left, and each of them
takes one away. Receive loop and dispatcher may go on as long as datagrams
come, but once the listener is asked to stop they too run out of moves.
-/

namespace HopTrace

variable {t t' : Trace} {e : TraceEvent} {i : Nat} {p : Probe} {q : Probe.Phase} {ttl : UInt16}

def Probe.Phase.effort : Probe.Phase → Nat
  | .spawned => 10
  | .sending _ => 9
  | .withdrawing _ => 4
  | .failing _ => 3
  | .awaiting _ _ => 8
  | .expired => 7
  | .recording _ => 6
  | .settled _ arrived news => arrived.toNat + news.length + 2
  | .released _ => 1
  | .ended _ => 0

namespace Trace

/-- A measurement takes four moves of the main loop and ten of its probe, and a hop three more. -/
def hopEffort (n : Nat) : Nat := 14 * n + 3

def Stage.effort (max n : Nat) : Stage → Nat
  | .checking ttl => (max - ttl.toNat) * hopEffort n + 14 * n + 7
  | .requesting ttl left => (max - ttl.toNat) * hopEffort n + 14 * left + 6
  | .queued ttl left _ => (max - ttl.toNat) * hopEffort n + 14 * left + 19
  | .admitted ttl left => (max - ttl.toNat) * hopEffort n + 14 * left + 18
  | .joined ttl left => (max - ttl.toNat) * hopEffort n + 14 * left + 17
  | .pausing ttl _ => (max - ttl.toNat) * hopEffort n + 5
  | .draining _ => 4
  | .closing => 3
  | .joining => 2
  | .concluding => 1
  | .done _ => 0

def probeEffort (t : Trace) : Nat := (t.standings.toList.map (·.2.effort)).sum

def effort (t : Trace) : Nat :=
  t.stage.effort t.setup.params.maxHops.toNat t.measurements + t.probeEffort

/-- A hop shows at most one new address, and completes at most its own. -/
theorem length_newsOf_le (t : Trace) (h : Hop) : (t.newsOf h).length ≤ 2 := by
  have hfound : (t.announced h).length ≤ 1 := by
    refine Nat.le_trans (List.length_filter_le ..) ?_
    cases h.answeredBy <;> simp
  unfold newsOf
  dsimp only
  split <;> simp only [List.length_append, List.length_map, List.length_singleton,
    List.length_nil] <;> omega

theorem ProbeMove.effort_lt (found : t.probes[i]? = some p) (move : ProbeMove t i p e q t') :
    t'.effort < t.effort := by
  have hget : t.standings.toList[i]? = some (p.key, p.phase) := by
    rw [Array.getElem?_toList]
    exact getElem?_standings found
  have hsum := sum_map_set (·.2.effort) hget (p.key, q)
  have hset : t'.probeEffort = ((t.standings.toList.set i (p.key, q)).map (·.2.effort)).sum := by
    unfold probeEffort
    rw [move.standings, Array.toList_setIfInBounds]
  have hlt : q.effort < p.phase.effort := by
    cases move with
    | @record h phase =>
      have hnews := length_newsOf_le t h
      have harrived := (h.reached t.setup.destination).toNat_le
      rw [phase]
      dsimp only [Probe.Phase.effort]
      omega
    | register phase | sent phase | refused phase | crash phase | withdraw phase | fail phase
    | accept phase | expire phase | giveUp phase | signal phase | tell phase | giveBack phase
    | leave phase =>
      simp [phase, Probe.Phase.effort]
  unfold effort measurements
  rw [hset, move.stage, (Move.probe found move).setup]
  unfold probeEffort
  dsimp only at hsum
  omega

theorem HopOver.effort (passed : t.HopOver ttl) (max n : Nat) :
    (max - ttl.toNat) * hopEffort n + 5 ≤ t.stage.effort max n := by
  rcases passed with ⟨hs, -⟩ | ⟨wake, -, hs⟩ <;> rw [hs] <;>
    simp [Stage.effort]

theorem MainMove.effort_lt (move : MainMove t t') : t'.effort < t.effort := by
  unfold Trace.effort measurements
  cases move with
  | @nextHop ttl passed more =>
    have hle := passed.effort t.setup.params.maxHops.toNat t.setup.params.numMeasurements.toNat
    have hlt := UInt16.lt_iff_toNat_lt.mp more
    obtain ⟨k, hk⟩ : ∃ k, t.setup.params.maxHops.toNat - ttl.toNat = k + 1 :=
      ⟨t.setup.params.maxHops.toNat - ttl.toNat - 1, by omega⟩
    rw [hk, Nat.succ_mul] at hle
    have hk' : t.setup.params.maxHops.toNat - (ttl + 1).toNat = k := by
      rw [toNat_succ more]
      omega
    change Stage.effort t.setup.params.maxHops.toNat t.setup.params.numMeasurements.toNat
      (.checking (ttl + 1)) + t.probeEffort < _
    have hhop : hopEffort t.setup.params.numMeasurements.toNat =
      14 * t.setup.params.numMeasurements.toNat + 3 := rfl
    rw [Stage.effort, hk']
    omega
  | @lastHop ttl passed =>
    have hle := passed.effort t.setup.params.maxHops.toNat t.setup.params.numMeasurements.toNat
    change 4 + t.probeEffort < _
    omega
  | @spawn ttl left stage =>
    rw [stage]
    unfold probeEffort standings
    rw [Array.map_push, Array.toList_push, List.map_append, List.sum_append]
    simp only [Stage.effort, Probe.standing, Probe.Phase.effort, List.map_cons, List.map_nil,
      List.sum_cons, List.sum_nil]
    omega
  | stop stage | beginHop stage | request stage | grant stage | join stage | pause stage
  | release stage | reap stage | miss stage | leave stage | fail stage | succeed stage =>
    rw [stage]
    change Stage.effort _ _ _ + t.probeEffort < Stage.effort _ _ _ + t.probeEffort
    simp only [Stage.effort, measurements]
    omega

/-! ## Receive loop and dispatcher -/

def Dispatcher.effort : Dispatcher → Nat
  | .receiving => 1
  | .delivering _ _ => 2
  | _ => 0

end Trace

def ReceiveLoop.effort : ReceiveLoop → Nat
  | .ready => 1
  | .reading _ => 5
  | .holding _ => 4
  | _ => 0

/-- How many moves the receive loop has left if it is asked to stop, and two for each message that
it has published or may still publish. -/
def Listener.effort (l : Listener) : Nat := 2 * l.stream.length + l.loop.effort

theorem Listener.LoopMove.effort_lt {l l' : Listener} {now : Nat} {e : TraceEvent}
    (stopped : l.stopRequested = true) (move : l.LoopMove now e l') : l'.effort < l.effort := by
  cases move with
  | fall _ goesOn | attempt _ goesOn | refuse _ goesOn => simp [stopped] at goesOn
  | quit loop | crash loop | hold loop | lose loop =>
    simp [effort, loop, ReceiveLoop.effort]
  | publish loop =>
    simp only [effort, loop, ReceiveLoop.effort, List.length_append, List.length_singleton]
    omega

theorem Listener.effort_drop_le (l : Listener) : l.drop.effort ≤ l.effort := by
  unfold drop effort
  cases l.loop <;> simp [ReceiveLoop.effort]

namespace Trace

def mailEffort (t : Trace) : Nat := t.listener.effort + t.dispatcher.effort

theorem DispatchMove.mailEffort_lt (move : DispatchMove t t') : t'.mailEffort < t.mailEffort := by
  unfold mailEffort
  cases move with
  | receive receiving stream | ignore receiving stream =>
    rw [receiving]
    simp only [Listener.effort, stream, Dispatcher.effort, List.length_cons]
    omega
  | @crash d rest receiving stream =>
    have hle := Listener.effort_drop_le { t.listener with stream := rest }
    rw [receiving]
    simp only [Listener.effort, stream, Dispatcher.effort, List.length_cons] at hle ⊢
    omega
  | finish state | deliver state =>
    rw [state]
    simp [Dispatcher.effort]

structure Rests (t t' : Trace) : Prop where
  setup : t'.setup = t.setup
  stage : t'.stage = t.stage
  standings : t'.standings = t.standings
  gate : t'.gate = t.gate
  group : t'.group = t.group

theorem Rests.trans {t'' : Trace} (h : t.Rests t') (h' : t'.Rests t'') : t.Rests t'' where
  setup := h'.setup.trans h.setup
  stage := h'.stage.trans h.stage
  standings := h'.standings.trans h.standings
  gate := h'.gate.trans h.gate
  group := h'.group.trans h.group

theorem DispatchMove.rests (move : DispatchMove t t') : t.Rests t' := by
  cases move with
  | deliver => exact ⟨rfl, rfl, standings_deliver .., rfl, rfl⟩
  | _ => exact ⟨rfl, rfl, rfl, rfl, rfl⟩

end Trace

def TraceEvent.isWork : TraceEvent → Bool
  | .main => true
  | .probe _ => true
  | .sendEnds _ _ => true
  | _ => false

namespace Trace

theorem ProbeMove.isWork (move : ProbeMove t i p e q t') : e.isWork = true := by
  cases move <;> rfl

theorem Move.effort_lt (move : Move t e t') (work : e.isWork = true) : t'.effort < t.effort := by
  cases move with
  | main move => exact move.effort_lt
  | probe found move => exact move.effort_lt found
  | loop move => cases move <;> contradiction
  | dispatch | clock => contradiction

theorem Move.rests (move : Move t e t') (idle : e.isWork = false) : t.Rests t' := by
  cases move with
  | main => contradiction
  | probe found move => simp [move.isWork] at idle
  | dispatch move => exact move.rests
  | loop | clock => exact ⟨rfl, rfl, rfl, rfl, rfl⟩

theorem Rests.effort (h : t.Rests t') : t'.effort = t.effort := by
  unfold Trace.effort probeEffort measurements
  rw [h.setup, h.stage, h.standings]

end Trace

end HopTrace
