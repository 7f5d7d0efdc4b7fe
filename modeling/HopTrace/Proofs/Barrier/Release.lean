import HopTrace.Proofs.Barrier.Calls
import Mathlib.Data.List.Nodup

/-!
# Whom a barrier releases

A poll finds a wait over if and only if no unit has been outstanding at some
moment since the wait began, even if units were added again before the poll.
Those who had been polled in vain are woken by the completion that leaves no
unit, each once, and by nothing else.
-/

namespace HopTrace.Barrier

/-- Whether there was a moment without an outstanding unit, from a barrier on. -/
def BeenIdle (b : Barrier) (calls : List BarrierCall) : Prop :=
  ∃ p, p <+: calls ∧ (serve.after b p).outstanding = 0

def completes (e : Exchange BarrierCall BarrierReply) : Bool :=
  e.call = .act .done ∧ 0 < e.reply.found

def overdoneEntry : Log.Entry := ⟨.error, "TaskGroup::done called with no outstanding work", []⟩

variable {b b₀ : Barrier} {c : BarrierCall} {calls since : List BarrierCall} {w k : Nat}
  {s : Waiter}

theorem beenIdle_nil : b.BeenIdle [] ↔ b.outstanding = 0 := by
  simp [BeenIdle, Machine.after]

theorem beenIdle_concat_iff : b.BeenIdle (calls ++ [c]) ↔
    b.BeenIdle calls ∨ (serve (serve.after b calls) c).1.outstanding = 0 := by
  unfold BeenIdle
  simp only [List.prefix_concat_iff, or_and_right, exists_or, exists_eq_left, serve.after_concat]
  exact or_comm

/-- What is known of a waiter from what was called since it began to wait. -/
def Recorded (b₀ : Barrier) (since : List BarrierCall) (w : Nat) : Waiter → Prop
  | .waiting parked => Live w (serve.history b₀ since) ∧ ¬ b₀.BeenIdle since ∧
      (parked = true ↔ .poll w ∈ since)
  | .released => Live w (serve.history b₀ since) ∧ b₀.BeenIdle since
  | .consumed => ¬ Live w (serve.history b₀ since)
  | .withdrawn => ¬ Live w (serve.history b₀ since)

theorem poll_of_waiting {parked : Bool} (found : b.waiters[w]? = some (.waiting parked)) :
    (b.poll w).2 = some false := by
  simp [poll, found]

theorem poll_of_released (found : b.waiters[w]? = some .released) :
    (b.poll w).2 = some true := by
  simp [poll, found]

/-- A waiter that is left waiting by a call is so because units are still outstanding. -/
theorem Recorded.wait {parked parked' : Bool} (h : Recorded b₀ since w (.waiting parked))
    (live : Live w (serve.history b₀ (since ++ [c])))
    (busy : (serve (serve.after b₀ since) c).1.outstanding ≠ 0)
    (polled : parked' = true ↔ .poll w ∈ since ++ [c]) :
    Recorded b₀ (since ++ [c]) w (.waiting parked') :=
  ⟨live, fun idle => (beenIdle_concat_iff.mp idle).elim h.2.1 busy, polled⟩

theorem Recorded.next_of_waiting {parked : Bool} (orderly : (serve.after b₀ since).Orderly)
    (found : (serve.after b₀ since).waiters[w]? = some (.waiting parked))
    (h : Recorded b₀ since w (.waiting parked)) :
    Recorded b₀ (since ++ [c]) w
      (Waiter.next (serve.after b₀ since).outstanding w (.waiting parked) c) := by
  have hafter := orderly.getElem?_serve found c
  -- As long as it waits, there are units outstanding: nobody is in line otherwise.
  have busy (parked' : Bool)
      (hnext : Waiter.next (serve.after b₀ since).outstanding w (.waiting parked) c =
        .waiting parked') : (serve (serve.after b₀ since) c).1.outstanding ≠ 0 := fun idle =>
    (orderly.kept c).settled idle (hafter.trans (congrArg some hnext))
  have aside (hnext : Waiter.next (serve.after b₀ since).outstanding w (.waiting parked) c =
      .waiting parked) (poll : c ≠ .poll w) (drop : c ≠ .drop w) :
      Recorded b₀ (since ++ [c]) w
        (Waiter.next (serve.after b₀ since).outstanding w (.waiting parked) c) := by
    rw [hnext]
    refine h.wait (Machine.live_of_other h.1 poll drop) (busy parked hnext) ?_
    rw [h.2.2, List.mem_append, List.mem_singleton, or_iff_left poll.symm]
  cases c with
  | wait => exact aside rfl (by simp) (by simp)
  | poll k =>
    by_cases hkw : k = w
    · subst hkw
      have hnext : Waiter.next (serve.after b₀ since).outstanding k (.waiting parked) (.poll k) =
          .waiting true := if_pos rfl
      have hlive : Live k (serve.history b₀ (since ++ [.poll k])) :=
        Machine.live_of_pending h.1 (by simp [serve, poll_of_waiting found])
      rw [hnext]
      exact h.wait hlive (busy true hnext) (by simp)
    · exact aside (if_neg hkw) (by simpa using hkw) (by simp)
  | drop k =>
    by_cases hkw : k = w
    · subst hkw
      simp only [Waiter.next, if_pos]
      exact Machine.not_live_of_drop
    · exact aside (if_neg hkw) (by simp) (by simpa using hkw)
  | act a =>
    cases a with
    | add => exact aside rfl (by simp) (by simp)
    | done =>
      by_cases last : (serve.after b₀ since).outstanding = 1
      · have hidle : (serve (serve.after b₀ since) (.act .done)).1.outstanding = 0 := by
          simp only [serve, done_of_last last]
          exact (releaseAll_frame _ _).1
        simp only [Waiter.next, if_pos last]
        exact ⟨Machine.live_of_other h.1 (by simp) (by simp), beenIdle_concat_iff.mpr (.inr hidle)⟩
      · exact aside (if_neg last) (by simp) (by simp)

theorem Recorded.next_of_released (found : (serve.after b₀ since).waiters[w]? = some .released)
    (h : Recorded b₀ since w .released) :
    Recorded b₀ (since ++ [c]) w
      (Waiter.next (serve.after b₀ since).outstanding w .released c) := by
  have hidle : b₀.BeenIdle (since ++ [c]) := beenIdle_concat_iff.mpr (.inl h.2)
  have aside (poll : c ≠ .poll w) (drop : c ≠ .drop w) :
      Recorded b₀ (since ++ [c]) w .released := ⟨Machine.live_of_other h.1 poll drop, hidle⟩
  cases c with
  | wait => exact aside (by simp) (by simp)
  | poll k =>
    by_cases hkw : k = w
    · subst hkw
      simp only [Waiter.next, if_pos]
      exact Machine.not_live_of_ready (by simp [serve, poll_of_released found])
    · simp only [Waiter.next, if_neg hkw]
      exact aside (by simpa using hkw) (by simp)
  | drop k =>
    by_cases hkw : k = w
    · subst hkw
      simp only [Waiter.next, if_pos]
      exact Machine.not_live_of_drop
    · simp only [Waiter.next, if_neg hkw]
      exact aside (by simp) (by simpa using hkw)
  | act a =>
    cases a with
    | add => exact aside (by simp) (by simp)
    | done =>
      simp only [Waiter.next, Waiter.release, ite_self]
      exact aside (by simp) (by simp)

theorem Recorded.next (orderly : (serve.after b₀ since).Orderly)
    (found : (serve.after b₀ since).waiters[w]? = some s) (h : Recorded b₀ since w s) :
    Recorded b₀ (since ++ [c]) w (s.next (serve.after b₀ since).outstanding w c) := by
  cases s with
  | waiting parked => exact h.next_of_waiting orderly found
  | released => exact h.next_of_released found
  | consumed =>
    have hgone := Machine.not_live_concat (c := c) h
    rcases Waiter.next_of_gone (.inl rfl) with hnext | hnext <;> rw [hnext] <;> exact hgone
  | withdrawn =>
    have hgone := Machine.not_live_concat (c := c) h
    rcases Waiter.next_of_gone (.inr rfl) with hnext | hnext <;> rw [hnext] <;> exact hgone

/-! ## Runs -/

theorem size_of_run (calls : List BarrierCall) :
    (serve.after {} calls).waiters.size = calls.count .wait :=
  (Machine.size_after (f := fun b => b.waiters.size) size_serve ({} : Barrier) calls).trans
    (Nat.zero_add _)

theorem orderly_of_run (calls : List BarrierCall) : (serve.after {} calls).Orderly :=
  orderly_after orderly_empty calls

/-- A waiter that has just begun to wait is released at once if nothing is outstanding. -/
theorem recorded_of_wait (b : Barrier) :
    ∃ s, (serve b .wait).1.waiters[b.waiters.size]? = some s ∧
      Recorded (serve b .wait).1 [] b.waiters.size s := by
  have hlive : Live b.waiters.size (serve.history (serve b .wait).1 []) := nofun
  by_cases idle : b.outstanding = 0
  · have hwait : (serve b .wait).1 = { b with waiters := b.waiters.push .released } := if_pos idle
    refine ⟨.released, by simp [hwait], hlive, beenIdle_nil.mpr ?_⟩
    rw [hwait]
    exact idle
  · have hwait : (serve b .wait).1 = { b with
        line := b.line ++ [b.waiters.size]
        waiters := b.waiters.push (.waiting false) } := if_neg idle
    refine ⟨.waiting false, by simp [hwait], hlive, ?_, by simp⟩
    rw [beenIdle_nil, hwait]
    exact idle

/-- Each waiter stands as the calls since it began to wait say. -/
theorem recorded_of_began (began : serve.Began {} calls w b₀ since) :
    ∃ s, (serve.after b₀ since).waiters[w]? = some s ∧ Recorded b₀ since w s := by
  obtain ⟨before, rfl, rfl, rfl⟩ := began
  rw [serve.after_concat, ← size_of_run]
  have horder : (serve (serve.after {} before) .wait).1.Orderly := (orderly_of_run before).kept _
  induction since using List.reverseRecOn with
  | nil => exact recorded_of_wait _
  | append_singleton since c ih =>
    obtain ⟨s, hs, hrec⟩ := ih
    have hafter := orderly_after horder since
    rw [serve.after_concat]
    exact ⟨_, hafter.getElem?_serve hs c, hrec.next hafter hs⟩

/-- Who is woken has waited, been polled in vain, and is released by the last unit. -/
theorem count_woken_serve (h : b.Orderly) (c : BarrierCall) (w : Nat) :
    (serve b c).2.woken.count w =
      if c = .act .done ∧ b.outstanding = 1 ∧ b.waiters[w]? = some (.waiting true) then 1
      else 0 := by
  cases c with
  | act a =>
    cases a with
    | add => simp [serve]
    | done =>
      rcases b.units_cases with idle | last | more
      · simp [serve, done_of_idle idle, idle, BarrierEvent.woken?]
      · have hline : w ∈ b.line ∧ b.waiters[w]? = some (.waiting true) ↔
            b.waiters[w]? = some (.waiting true) := and_iff_right_of_imp (h.inLine w true)
        simp only [serve, done_of_last last, count_woken_releaseAll, hline]
        simp [last]
      · have hmany : b.outstanding ≠ 1 := by omega
        simp [serve, done_of_more more, hmany]
  | _ => simp [serve]

/-- A live waiter that has been polled in this cycle is one that waits and is parked. -/
theorem waits_iff : (serve.after {} calls).waiters[w]? = some (.waiting true) ↔
    ∃ b₀ since, serve.Began {} calls w b₀ since ∧ Live w (serve.history b₀ since) ∧
      .poll w ∈ since ∧ ¬ b₀.BeenIdle since := by
  constructor
  · intro found
    have hmade : w < calls.count .wait := size_of_run calls ▸ lt_size_of_getElem? found
    obtain ⟨b₀, since, began⟩ := serve.exists_began (x := {}) hmade
    obtain ⟨s, hs, hrec⟩ := recorded_of_began began
    rw [began.after_eq] at found
    obtain rfl : s = .waiting true := Option.some.inj (hs.symm.trans found)
    exact ⟨b₀, since, began, hrec.1, hrec.2.2.mp rfl, hrec.2.1⟩
  · rintro ⟨b₀, since, began, live, polled, busy⟩
    obtain ⟨s, hs, hrec⟩ := recorded_of_began began
    rw [began.after_eq, hs]
    cases s with
    | waiting parked =>
      obtain rfl : parked = true := hrec.2.2.mpr polled
      rfl
    | released => exact absurd hrec.2 busy
    | consumed => exact absurd live hrec
    | withdrawn => exact absurd live hrec

theorem poll_iff (began : serve.Began {} calls w b₀ since)
    (live : Live w (serve.history b₀ since)) :
    (((serve.after {} calls).poll w).2 = some true ↔ b₀.BeenIdle since) ∧
      (((serve.after {} calls).poll w).2 = some false ↔ ¬ b₀.BeenIdle since) := by
  obtain ⟨s, hs, hrec⟩ := recorded_of_began began
  rw [began.after_eq]
  cases s with
  | waiting parked => simp [poll_of_waiting hs, hrec.2.1]
  | released => simp [poll_of_released hs, hrec.2]
  | consumed => exact absurd live hrec
  | withdrawn => exact absurd live hrec

/-- The units outstanding are those added, less those completed. -/
theorem units_of_run (calls : List BarrierCall) :
    (serve.after {} calls).outstanding + (serve.history {} calls).countP completes =
      calls.count (.act .add) := by
  refine serve.run_induction (P := fun calls h b => b.outstanding + h.countP completes =
    calls.count (.act .add)) rfl (fun calls h b c ih => ?_) calls
  rw [List.countP_append, List.count_append, List.countP_singleton, List.count_singleton, ← ih]
  cases c with
  | wait =>
    simp only [serve, wait]
    split <;> simp [completes]
  | poll k =>
    simp only [serve, poll]
    split <;> simp [completes, put]
  | drop k => simp [serve, drop, put, completes]
  | act a =>
    cases a with
    | add =>
      simp [serve, add, completes]
      omega
    | done =>
      rcases b.units_cases with idle | last | more
      · simp [serve, done_of_idle idle, completes, idle]
      · have hframe := (releaseAll_frame { b with outstanding := 0 } b.line).1
        simp [serve, done_of_last last, completes, last, hframe]
        omega
      · have hbusy : 0 < b.outstanding := by omega
        simp [serve, done_of_more more, completes, hbusy]
        omega

theorem log_serve (b : Barrier) (c : BarrierCall) : (serve b c).2.log =
    if c = .act .done ∧ b.outstanding = 0 then [overdoneEntry] else [] := by
  cases c with
  | act a =>
    cases a with
    | add => simp [serve]
    | done =>
      rcases b.units_cases with idle | last | more
      · simp [serve, done_of_idle idle, idle, BarrierEvent.log?, overdoneEntry]
      · simpa [serve, done_of_last last, last] using
          (releaseAll_frame { b with outstanding := 0 } b.line).2.2.2
      · have hbusy : b.outstanding ≠ 0 := by omega
        simp [serve, done_of_more more, hbusy]
  | _ => simp [serve]

/-- A poll of a live waiter finds its wait over iff no unit has been outstanding at some moment
since it began. The completion of the last unit wakes just those live waiters of its cycle that
have been polled, each once. The line is empty when nothing is outstanding, which is what was
added less what was completed; to complete more changes nothing and is logged once. -/
theorem releases_exactly (calls : List BarrierCall) (c : BarrierCall) :
    let b := serve.after {} calls
    (∀ w b₀ since, serve.Began {} calls w b₀ since → Live w (serve.history b₀ since) →
      ((b.poll w).2 = some true ↔ b₀.BeenIdle since) ∧
        ((b.poll w).2 = some false ↔ ¬ b₀.BeenIdle since)) ∧
    (∀ w, w ∈ (serve b c).2.woken ↔ c = .act .done ∧ b.outstanding = 1 ∧
      ∃ b₀ since, serve.Began {} calls w b₀ since ∧ Live w (serve.history b₀ since) ∧
        .poll w ∈ since ∧ ¬ b₀.BeenIdle since) ∧
    (serve b c).2.woken.Nodup ∧
    (b.outstanding = 0 → b.line = []) ∧
    b.outstanding + (serve.history {} calls).countP completes = calls.count (.act .add) ∧
    (c = .act .done → b.outstanding = 0 → (serve b c).1 = b) ∧
    (serve b c).2.log = if c = .act .done ∧ b.outstanding = 0 then [overdoneEntry] else [] := by
  intro b
  have horder : b.Orderly := orderly_of_run calls
  refine ⟨fun w b₀ since => poll_iff, fun w => ?_, ?_, horder.idle, units_of_run calls,
    fun hc idle => ?_, log_serve b c⟩
  · rw [← List.count_pos_iff, count_woken_serve horder c w, ← waits_iff]
    split
    next hwoken => simpa using hwoken
    next hquiet => simpa using hquiet
  · rw [List.nodup_iff_count_le_one]
    intro w
    rw [count_woken_serve horder c w]
    split <;> omega
  · rw [hc]
    exact congrArg Prod.fst (done_of_idle idle)

def rearmed : List BarrierCall := [.act .add, .wait, .poll 0, .act .done, .act .add]

theorem releases_exactly_rearmed :
    ∃ b₀ since, serve.Began {} rearmed 0 b₀ since ∧ Live 0 (serve.history b₀ since) ∧
      (serve.after {} rearmed).outstanding = 1 ∧
      ((serve.after {} rearmed).poll 0).2 = some true := by
  have began : serve.Began {} rearmed 0 (serve.after {} [.act .add, .wait])
      [.poll 0, .act .done, .act .add] := ⟨[.act .add], rfl, rfl, rfl⟩
  have live : Live 0 (serve.history (serve.after {} [.act .add, .wait])
      [.poll 0, .act .done, .act .add]) := by decide
  have idle : (serve.after {} [.act .add, .wait]).BeenIdle [.poll 0, .act .done, .act .add] :=
    ⟨[.poll 0, .act .done], by decide, rfl⟩
  exact ⟨_, _, began, live, rfl,
    ((releases_exactly rearmed .wait).1 0 _ _ began live).1.mpr idle⟩

end HopTrace.Barrier
