import HopTrace.Proofs.Barrier.Calls
import HopTrace.Proofs.Trace.Schedule

/-!
# Gate and group against the probes

Every live probe holds one unit of the group, and one admission until shortly
before it ends; the main loop holds one more of each on its way to the next
probe. Nobody but the main loop waits for an admission, and only while the gate
is full of probes. The group releases the main loop when the last probe ends.
-/

namespace HopTrace

open Trace (Stage)

variable {stage : Stage} {held live : Nat}

namespace Gate

/-- What the gate owes to the main loop at a stage, beside the probes that hold an admission. -/
def Owes (g : Gate) (held : Nat) : Stage → Prop
  | .queued _ _ ticket =>
    (g.requests[ticket]? = some .granted ∧ g.line = [] ∧ g.admitted = held + 1) ∨
      (∃ parked, g.requests[ticket]? = some (.queued parked)) ∧ g.line = [ticket] ∧
        g.admitted = held ∧ g.admitted = g.capacity
  | .admitted _ _ => g.line = [] ∧ g.admitted = held + 1
  | .joined _ _ => g.line = [] ∧ g.admitted = held + 1
  | _ => g.line = [] ∧ g.admitted = held

def Balanced (g : Gate) (held : Nat) (stage : Stage) : Prop :=
  g.admitted ≤ g.capacity ∧ g.Owes held stage

variable {g : Gate}

theorem finished_of_nobody (line : g.line = []) (units : g.admitted = held + 1) :
    g.finished.1 = { g with admitted := held, line := [] } := by
  simp [finished, line, handOver, units]

theorem finished_of_waiting {ticket : Nat} {parked : Bool} (line : g.line = [ticket])
    (standing : g.requests[ticket]? = some (.queued parked)) :
    g.finished.1 = { g.put ticket .granted with line := [] } := by
  simp [finished, line, handOver, standing]

theorem Balanced.start {ttl : UInt16} {left : Nat} (room : g.admitted ≤ g.capacity)
    (line : g.line = []) (units : g.admitted = held) :
    g.start.1.Balanced held (.queued ttl left g.requests.size) := by
  unfold Gate.start
  split
  next hlt => exact ⟨hlt, .inl ⟨by simp, line, by simp [units]⟩⟩
  next hge =>
    have hfull : g.admitted = g.capacity := by omega
    exact ⟨room, .inr ⟨⟨false, by simp⟩, by simp [line], units, hfull⟩⟩

/-- An admission granted is the one that the gate kept for the main loop. -/
theorem Balanced.poll {ttl : UInt16} {left ticket : Nat}
    (h : g.Balanced held (.queued ttl left ticket)) (granted : (g.poll ticket).2 = true) :
    (g.poll ticket).1.Balanced held (.admitted ttl left) := by
  rcases h.2 with ⟨hreq, hline, hunits⟩ | ⟨⟨parked, hreq⟩, -⟩
  · simp only [Gate.poll, hreq]
    exact ⟨h.1, hline, hunits⟩
  · simp [Gate.poll, hreq] at granted

/-- A unit that a probe gives back goes to the main loop if that waits for it. -/
theorem Balanced.finished (h : g.Balanced (held + 1) stage) : g.finished.1.Balanced held stage := by
  obtain ⟨hroom, howes⟩ := h
  have free (hline : g.line = []) (hunits : g.admitted = held + 1) :
      g.finished.1.admitted ≤ g.finished.1.capacity ∧ g.finished.1.line = [] ∧
        g.finished.1.admitted = held := by
    have hle : held ≤ g.capacity := by omega
    rw [finished_of_nobody hline hunits]
    exact ⟨hle, rfl, rfl⟩
  cases stage with
  | queued ttl left ticket =>
    rcases howes with ⟨hreq, hline, hunits⟩ | ⟨⟨parked, hreq⟩, hline, hunits, -⟩
    · have hle : held + 1 ≤ g.capacity := by omega
      rw [finished_of_nobody hline hunits]
      exact ⟨hle, .inl ⟨hreq, rfl, rfl⟩⟩
    · rw [finished_of_waiting hline hreq]
      have hlt : ticket < g.requests.size := (Array.getElem?_eq_some_iff.mp hreq).choose
      exact ⟨hroom, .inl ⟨by simp [put, hlt], rfl, hunits⟩⟩
  | admitted ttl left | joined ttl left =>
    have hle : held + 1 ≤ g.capacity := by
      have hunits := howes.2
      omega
    rw [finished_of_nobody howes.1 howes.2]
    exact ⟨hle, rfl, rfl⟩
  | _ => exact free howes.1 howes.2

end Gate

namespace Barrier

def Balanced (b : Barrier) (live : Nat) : Stage → Prop
  | .joined _ _ => b.outstanding = live + 1 ∧ b.waiters = #[] ∧ b.line = []
  | .draining ticket => ticket = 0 ∧ b.outstanding = live ∧
    (live = 0 ∧ b.waiters = #[.released] ∨
      0 < live ∧ b.line = [0] ∧ ∃ parked, b.waiters = #[.waiting parked])
  | .closing => b.outstanding = 0 ∧ live = 0
  | .joining => b.outstanding = 0 ∧ live = 0
  | .concluding => b.outstanding = 0 ∧ live = 0
  | .done _ => b.outstanding = 0 ∧ live = 0
  | _ => b.outstanding = live ∧ b.waiters = #[] ∧ b.line = []

variable {b : Barrier}

theorem Balanced.wait (units : b.outstanding = live) (waiters : b.waiters = #[])
    (line : b.line = []) : b.wait.Balanced live (.draining b.waiters.size) := by
  unfold Barrier.wait
  refine ⟨by simp [waiters], ?_⟩
  split
  next hz => exact ⟨units, .inl ⟨units ▸ hz, by simp [waiters]⟩⟩
  next hp =>
    have hlive : 0 < live := by omega
    exact ⟨units, .inr ⟨hlive, by simp [line, waiters], false, by simp [waiters]⟩⟩

/-- The main loop is released only when no probe is live. -/
theorem Balanced.poll {ticket : Nat} (h : b.Balanced live (.draining ticket))
    (released : (b.poll ticket).2 = some true) : (b.poll ticket).1.Balanced live .closing := by
  obtain ⟨rfl, hunits, ⟨hlive, hw⟩ | ⟨-, -, parked, hw⟩⟩ := h
  · refine ⟨?_, hlive⟩
    simp only [Barrier.poll, hw]
    exact hunits.trans hlive
  · simp [Barrier.poll, hw] at released

/-- The unit of the last probe releases the main loop if that waits for it. -/
theorem Balanced.done (h : b.Balanced (live + 1) stage) : b.done.1.Balanced live stage := by
  -- While nobody waits for the group, even the last unit releases nobody.
  have idle (hunits : b.outstanding = live + 1) (hw : b.waiters = #[]) (hline : b.line = []) :
      b.done.1.outstanding = live ∧ b.done.1.waiters = #[] ∧ b.done.1.line = [] := by
    cases live with
    | zero =>
      rw [done_of_last hunits, hline]
      exact ⟨rfl, hw, rfl⟩
    | succ live =>
      rw [done_of_more (by omega)]
      exact ⟨Nat.sub_eq_of_eq_add hunits, hw, hline⟩
  cases stage with
  | joined ttl left =>
    have hunits : b.outstanding = live + 2 := h.1
    rw [done_of_more (by omega)]
    exact ⟨Nat.sub_eq_of_eq_add hunits, h.2⟩
  | draining ticket =>
    obtain ⟨rfl, hunits, ⟨hlive, -⟩ | ⟨-, hline, parked, hw⟩⟩ := h
    · simp at hlive
    · cases live with
      | zero =>
        rw [done_of_last hunits, hline]
        exact ⟨rfl, by simp [releaseAll, hw, put], .inl ⟨rfl, by simp [releaseAll, hw, put]⟩⟩
      | succ live =>
        rw [done_of_more (by omega)]
        exact ⟨rfl, Nat.sub_eq_of_eq_add hunits, .inr ⟨by omega, hline, parked, hw⟩⟩
  | closing | joining | concluding | done result => exact absurd h.2 (by omega)
  | _ => exact idle h.1 h.2.1 h.2.2

end Barrier

namespace Trace

variable {t t' : Trace} {e : TraceEvent}

def liveCount (t : Trace) : Nat := t.count fun s => s.2.isLive

def admittedCount (t : Trace) : Nat := t.count fun s => s.2.isAdmitted

theorem admittedCount_le (t : Trace) : t.admittedCount ≤ t.liveCount :=
  Array.countP_mono_left fun _ _ => Probe.Phase.isLive_of_isAdmitted

/-- A move of a probe leaves the gate alone, or gives back the admission of the probe. -/
theorem ProbeMove.admission {i : Nat} {p : Probe} {q : Probe.Phase}
    (found : t.probes[i]? = some p) (move : ProbeMove t i p e q t') :
    (t'.gate = t.gate ∧ t'.admittedCount = t.admittedCount) ∨
      (t'.gate = t.gate.finished.1 ∧ t'.admittedCount + 1 = t.admittedCount) := by
  have hc := move.count found fun s => s.2.isAdmitted
  cases move with
  | giveBack phase =>
    refine .inr ⟨rfl, ?_⟩
    simpa [phase, Probe.Phase.isAdmitted, admittedCount] using hc
  | register phase | sent phase | refused phase | crash phase | withdraw phase | fail phase
  | accept phase | expire phase | giveUp phase | record phase | signal phase | tell phase
  | leave phase =>
    refine .inl ⟨rfl, ?_⟩
    simpa [phase, Probe.Phase.isAdmitted, admittedCount] using hc

/-- A move of a probe leaves the group alone, or gives back the unit of the probe. -/
theorem ProbeMove.unit {i : Nat} {p : Probe} {q : Probe.Phase}
    (found : t.probes[i]? = some p) (move : ProbeMove t i p e q t') :
    (t'.group = t.group ∧ t'.liveCount = t.liveCount) ∨
      (t'.group = t.group.done.1 ∧ t'.liveCount + 1 = t.liveCount) := by
  have hc := move.count found fun s => s.2.isLive
  cases move with
  | leave phase =>
    refine .inr ⟨rfl, ?_⟩
    simpa [phase, Probe.Phase.isLive, liveCount] using hc
  | register phase | sent phase | refused phase | crash phase | withdraw phase | fail phase
  | accept phase | expire phase | giveUp phase | record phase | signal phase | tell phase
  | giveBack phase =>
    refine .inl ⟨rfl, ?_⟩
    simpa [phase, Probe.Phase.isLive, liveCount] using hc

def Balanced (t : Trace) : Prop :=
  t.gate.Balanced t.admittedCount t.stage ∧ t.group.Balanced t.liveCount t.stage

theorem HopOver.balanced {ttl : UInt16} (passed : t.HopOver ttl) (h : t.Balanced) :
    (t.gate.admitted ≤ t.gate.capacity ∧ t.gate.line = [] ∧ t.gate.admitted = t.admittedCount) ∧
      t.group.outstanding = t.liveCount ∧ t.group.waiters = #[] ∧ t.group.line = [] := by
  unfold Balanced at h
  rcases passed with ⟨hs, -⟩ | ⟨wake, -, hs⟩ <;> rw [hs] at h <;> exact h

theorem MainMove.balanced (h : t.Balanced) (move : MainMove t t') : t'.Balanced := by
  have hb := h
  unfold Balanced at hb
  cases move with
  | lastHop passed =>
    obtain ⟨hg, hunits, hwaiters, hline⟩ := passed.balanced h
    exact ⟨hg, .wait hunits hwaiters hline⟩
  | nextHop passed => exact passed.balanced h
  | stop stage =>
    rw [stage] at hb
    exact ⟨hb.1, .wait hb.2.1 hb.2.2.1 hb.2.2.2⟩
  | request stage =>
    rw [stage] at hb
    exact ⟨.start hb.1.1 hb.1.2.1 hb.1.2.2, hb.2⟩
  | grant stage granted =>
    rw [stage] at hb
    exact ⟨hb.1.poll granted, hb.2⟩
  | join stage =>
    rw [stage] at hb
    exact ⟨hb.1, congrArg (· + 1) hb.2.1, hb.2.2⟩
  | spawn stage =>
    rw [stage] at hb
    unfold Balanced admittedCount liveCount count standings
    rw [Array.map_push, Array.countP_push_of_pos (by rfl), Array.countP_push_of_pos (by rfl)]
    exact hb
  | release stage released =>
    rw [stage] at hb
    exact ⟨hb.1, hb.2.poll released⟩
  | beginHop stage | pause stage | reap stage | miss stage | leave stage | fail stage
  | succeed stage =>
    rw [stage] at hb
    exact hb

theorem Move.balanced (h : t.Balanced) (move : Move t e t') : t'.Balanced := by
  cases move with
  | main move => exact move.balanced h
  | probe found move =>
    unfold Balanced at h ⊢
    rw [move.stage]
    constructor
    · rcases move.admission found with ⟨hg, hn⟩ | ⟨hg, hn⟩
      · rw [hg, hn]
        exact h.1
      · rw [← hn] at h
        exact hg ▸ h.1.finished
    · rcases move.unit found with ⟨hb, hn⟩ | ⟨hb, hn⟩
      · rw [hb, hn]
        exact h.2
      · rw [← hn] at h
        exact hb ▸ h.2.done
  | dispatch move =>
    cases move with
    | deliver =>
      unfold Balanced admittedCount liveCount count standings
      rw [standings_deliver]
      exact h
    | _ => exact h
  | loop => exact h
  | clock => exact h

theorem balanced_of_run {setup : TraceSetup} (valid : setup.params.Valid) {plugins : PluginSet}
    {events : List TraceEvent} (hr : (start setup plugins).run events = some t) : t.Balanced := by
  refine run_invariant (P := Balanced) ?_ (fun _ _ _ h move => move.balanced h) hr
  obtain ⟨plugins', fired, log, listening, -, hs⟩ := start_of_valid valid plugins
  have hl : (start setup plugins).liveCount = 0 := by
    rw [hs]
    simp [liveCount, count, standings]
  have ha : (start setup plugins).admittedCount = 0 := by
    have hle := (start setup plugins).admittedCount_le
    omega
  unfold Balanced
  rw [ha, hl, hs]
  exact ⟨⟨Nat.zero_le _, rfl, rfl⟩, rfl, rfl, rfl⟩

/-- Once the main loop has waited for the probes. -/
def Stage.Drained : Stage → Prop
  | .closing => True
  | .joining => True
  | .concluding => True
  | .done _ => True
  | _ => False

/-- No probe is live once the main loop has waited for them. -/
theorem Balanced.liveCount_eq_zero (h : t.Balanced) (drained : t.stage.Drained) :
    t.liveCount = 0 := by
  have hb := h.2
  cases hs : t.stage <;> rw [hs] at drained hb <;>
    first | exact hb.2 | exact drained.elim

theorem admittedCount_pos {i : Nat} {p : Probe} (found : t.probes[i]? = some p)
    (admitted : p.phase.isAdmitted = true) : 0 < t.admittedCount :=
  Array.countP_pos_iff.mpr ⟨_, Array.mem_of_getElem? (getElem?_standings found), admitted⟩

theorem liveCount_pos {i : Nat} {p : Probe} (found : t.probes[i]? = some p)
    (live : p.phase.isLive = true) : 0 < t.liveCount :=
  Array.countP_pos_iff.mpr ⟨_, Array.mem_of_getElem? (getElem?_standings found), live⟩

end Trace

end HopTrace
