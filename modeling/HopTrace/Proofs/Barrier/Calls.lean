import HopTrace.Barrier.Session
import HopTrace.Proofs.Replacement
import HopTrace.Proofs.Waiting

/-!
# What calls do to a barrier and its waiters

Units are added and completed, waiters begin to wait, are polled and dropped.
All that wait are in line, and nobody is in line while no unit is outstanding,
so the completion of the last unit releases everyone who waits.
-/

namespace HopTrace

abbrev BarrierCall := WaitCall Barrier.Action

/-- A reply tells how many units were outstanding. -/
abbrev BarrierReply := WaitReply Nat

def BarrierEvent.woken? : BarrierEvent → Option Nat
  | .woken w => some w
  | .released _ => none
  | .overdone => none

namespace Barrier

def serve : Machine Barrier BarrierCall BarrierReply
  | b, .wait => (b.wait, { found := b.outstanding })
  | b, .poll w => ((b.poll w).1, { found := b.outstanding, answer := (b.poll w).2 })
  | b, .drop w => (b.drop w, { found := b.outstanding })
  | b, .act .add => (b.add, { found := b.outstanding })
  | b, .act .done => (b.done.1, {
      found := b.outstanding
      woken := b.done.2.filterMap (·.woken?)
      log := b.done.2.filterMap (·.log?) })

def Waiter.release : Waiter → Waiter
  | .waiting _ => .released
  | s => s

def Waiter.polled : Waiter → Waiter
  | .waiting _ => .waiting true
  | .released => .consumed
  | s => s

variable {b : Barrier} {line : List Nat} {w k : Nat} {s : Waiter} {parked : Bool}
  {c : BarrierCall}

theorem getElem?_put_self (found : b.waiters[w]? = some s) (s' : Waiter) :
    (b.put w s').waiters[w]? = some s' :=
  getElem?_setIfInBounds_of_found found s'

theorem getElem?_put_ne (h : k ≠ w) (s' : Waiter) : (b.put k s').waiters[w]? = b.waiters[w]? :=
  Array.getElem?_setIfInBounds_ne h

@[simp] theorem size_put (b : Barrier) (w : Nat) (s : Waiter) :
    (b.put w s).waiters.size = b.waiters.size :=
  Array.size_setIfInBounds

/-! ## The release of a line -/

theorem releaseAll_of_waiting {rest : List Nat} (found : b.waiters[k]? = some (.waiting parked)) :
    b.releaseAll (k :: rest) = (((b.put k .released).releaseAll rest).1,
      .released k :: (if parked then [.woken k] else []) ++
        ((b.put k .released).releaseAll rest).2) := by
  simp only [releaseAll, found]

theorem releaseAll_of_settled {rest : List Nat}
    (settled : ∀ parked, b.waiters[k]? ≠ some (.waiting parked)) :
    b.releaseAll (k :: rest) = b.releaseAll rest := by
  rw [releaseAll]
  split
  next parked found => exact absurd found (settled parked)
  next => rfl

/-- A line is released without a complaint, and afterwards it is empty. -/
theorem releaseAll_frame (b : Barrier) (line : List Nat) :
    (b.releaseAll line).1.outstanding = b.outstanding ∧ (b.releaseAll line).1.line = [] ∧
      (b.releaseAll line).1.waiters.size = b.waiters.size ∧
      (b.releaseAll line).2.filterMap (·.log?) = [] := by
  induction line generalizing b with
  | nil => exact ⟨rfl, rfl, rfl, rfl⟩
  | cons k rest ih =>
    by_cases waits : ∃ parked, b.waiters[k]? = some (.waiting parked)
    · obtain ⟨parked, found⟩ := waits
      obtain ⟨hunits, hline, hsize, hlog⟩ := ih (b.put k .released)
      rw [releaseAll_of_waiting found]
      refine ⟨hunits, hline, hsize.trans (size_put ..), ?_⟩
      rw [List.cons_append, List.filterMap_cons_none rfl, List.filterMap_append, hlog]
      cases parked <;> rfl
    · rw [releaseAll_of_settled fun parked found => waits ⟨parked, found⟩]
      exact ih b

/-- Those of a line who wait are released. -/
theorem getElem?_releaseAll (found : b.waiters[w]? = some s) :
    (b.releaseAll line).1.waiters[w]? = some (if w ∈ line then s.release else s) := by
  induction line generalizing b s with
  | nil => exact found
  | cons k rest ih =>
    by_cases waits : ∃ parked, b.waiters[k]? = some (.waiting parked)
    · obtain ⟨parked, hk⟩ := waits
      rw [releaseAll_of_waiting hk]
      by_cases hkw : k = w
      · subst hkw
        obtain rfl : s = .waiting parked := Option.some.inj (found.symm.trans hk)
        rw [ih (getElem?_put_self hk .released)]
        simp [Waiter.release]
      · rw [ih ((getElem?_put_ne hkw _).trans found)]
        simp [Ne.symm hkw]
    · have settled : ∀ parked, b.waiters[k]? ≠ some (.waiting parked) :=
        fun parked hk => waits ⟨parked, hk⟩
      rw [releaseAll_of_settled settled, ih found]
      by_cases hkw : k = w
      · subst hkw
        have hs : s.release = s := by
          cases s with
          | waiting parked => exact absurd found (settled parked)
          | _ => rfl
        simp [hs]
      · simp [Ne.symm hkw]

/-- Those of a line who wait and have been polled are woken, each once. -/
theorem count_woken_releaseAll (b : Barrier) (line : List Nat) (w : Nat) :
    ((b.releaseAll line).2.filterMap (·.woken?)).count w =
      if w ∈ line ∧ b.waiters[w]? = some (.waiting true) then 1 else 0 := by
  induction line generalizing b with
  | nil => simp [releaseAll]
  | cons k rest ih =>
    by_cases waits : ∃ parked, b.waiters[k]? = some (.waiting parked)
    · obtain ⟨parked, hk⟩ := waits
      have hnow : ((BarrierEvent.released k :: if parked then [.woken k] else []).filterMap
          (·.woken?)) = if parked then [k] else [] := by
        cases parked <;> rfl
      rw [releaseAll_of_waiting hk, List.filterMap_append, hnow, List.count_append, ih]
      by_cases hkw : k = w
      · subst hkw
        rw [getElem?_put_self hk]
        cases parked <;> simp [hk]
      · rw [getElem?_put_ne hkw]
        cases parked <;> simp [hkw, Ne.symm hkw]
    · have settled : ∀ parked, b.waiters[k]? ≠ some (.waiting parked) :=
        fun parked hk => waits ⟨parked, hk⟩
      rw [releaseAll_of_settled settled, ih]
      by_cases hkw : k = w
      · subst hkw
        simp [settled true]
      · simp [Ne.symm hkw]

/-! ## Calls -/

theorem done_of_idle (idle : b.outstanding = 0) : b.done = (b, [.overdone]) := if_pos idle

theorem done_of_last (last : b.outstanding = 1) :
    b.done = ({ b with outstanding := 0 } : Barrier).releaseAll b.line := by
  simp [done, last]

theorem done_of_more (more : 1 < b.outstanding) :
    b.done = ({ b with outstanding := b.outstanding - 1 }, []) := by
  have hbusy : b.outstanding ≠ 0 := by omega
  have hleft : b.outstanding - 1 ≠ 0 := by omega
  simp [done, hbusy, hleft]

/-- What completing a unit can meet. -/
theorem units_cases (b : Barrier) : b.outstanding = 0 ∨ b.outstanding = 1 ∨ 1 < b.outstanding := by
  omega

/-- Who waits is in line, and nobody is in line while nothing is outstanding. -/
structure Orderly (b : Barrier) : Prop where
  idle : b.outstanding = 0 → b.line = []
  inLine : ∀ w parked, b.waiters[w]? = some (.waiting parked) → w ∈ b.line

theorem Orderly.settled (h : b.Orderly) (idle : b.outstanding = 0) :
    b.waiters[w]? ≠ some (.waiting parked) := fun found =>
  List.not_mem_nil (h.idle idle ▸ h.inLine w parked found)

def Waiter.next (outstanding w : Nat) (s : Waiter) : BarrierCall → Waiter
  | .wait => s
  | .poll k => if k = w then s.polled else s
  | .drop k => if k = w then .withdrawn else s
  | .act .add => s
  | .act .done => if outstanding = 1 then s.release else s

theorem getElem?_poll (found : b.waiters[w]? = some s) :
    (b.poll k).1.waiters[w]? = some (if k = w then s.polled else s) := by
  by_cases hkw : k = w
  · subst hkw
    rw [if_pos rfl]
    cases s with
    | waiting | released =>
      simp only [poll, found]
      exact getElem?_put_self found _
    | consumed | withdrawn =>
      simp only [poll, found]
      rfl
  · rw [if_neg hkw]
    unfold poll
    split
    · exact (getElem?_put_ne hkw _).trans found
    · exact (getElem?_put_ne hkw _).trans found
    · exact found

theorem Orderly.getElem?_done (h : b.Orderly) (found : b.waiters[w]? = some s) :
    b.done.1.waiters[w]? = some (if b.outstanding = 1 then s.release else s) := by
  rcases b.units_cases with idle | last | more
  · rw [done_of_idle idle, if_neg (by omega)]
    exact found
  · rw [done_of_last last, if_pos last]
    have hidle : ({ b with outstanding := 0 } : Barrier).waiters[w]? = some s := found
    rw [getElem?_releaseAll hidle]
    split
    next => rfl
    next absent =>
      cases s with
      | waiting parked => exact absurd (h.inLine w parked found) absent
      | _ => rfl
  · rw [done_of_more more, if_neg (by omega)]
    exact found

theorem Orderly.getElem?_serve (h : b.Orderly) (found : b.waiters[w]? = some s) (c : BarrierCall) :
    (serve b c).1.waiters[w]? = some (s.next b.outstanding w c) := by
  cases c with
  | wait =>
    simp only [serve, wait]
    split
    next => exact getElem?_push_of_found found _
    next => exact getElem?_push_of_found found _
  | poll k => exact getElem?_poll found
  | drop k =>
    by_cases hkw : k = w
    · subst hkw
      simp only [Waiter.next, if_pos]
      exact getElem?_put_self found _
    · simp only [Waiter.next, if_neg hkw]
      exact (getElem?_put_ne hkw _).trans found
  | act a =>
    cases a with
    | add => exact found
    | done => exact h.getElem?_done found

theorem size_serve (b : Barrier) (c : BarrierCall) :
    (serve b c).1.waiters.size = b.waiters.size + [c].count .wait := by
  cases c with
  | wait =>
    simp only [serve, wait]
    split <;> exact Array.size_push _
  | poll k =>
    simp only [serve, poll]
    split
    · exact size_put ..
    · exact size_put ..
    · rfl
  | drop k => exact size_put ..
  | act a =>
    cases a with
    | add => rfl
    | done =>
      rcases b.units_cases with idle | last | more
      · simp [serve, done_of_idle idle]
      · simpa [serve, done_of_last last] using (releaseAll_frame _ b.line).2.2.1
      · simp [serve, done_of_more more]

/-- A waiter that a call leaves waiting waited before, and was not released. -/
theorem Waiter.waiting_of_next {outstanding : Nat} (h : s.next outstanding w c = .waiting parked) :
    (∃ parked, s = .waiting parked) ∧ ¬ (c = .act .done ∧ outstanding = 1) := by
  cases c with
  | act a =>
    cases a with
    | done =>
      by_cases last : outstanding = 1 <;> cases s <;>
        simp [next, release, last] at h ⊢
    | add => cases s <;> simp [next] at h ⊢
  | wait => cases s <;> simp [next] at h ⊢
  | poll k =>
    by_cases hkw : k = w <;> cases s <;> simp [next, polled, hkw] at h ⊢
  | drop k =>
    by_cases hkw : k = w <;> cases s <;> simp [next, hkw] at h ⊢

/-- Who has been told, or was dropped, does not wait any more. -/
theorem Waiter.next_of_gone {outstanding : Nat} (gone : s = .consumed ∨ s = .withdrawn) :
    s.next outstanding w c = .consumed ∨ s.next outstanding w c = .withdrawn := by
  cases c with
  | wait => exact gone
  | poll k => rcases gone with rfl | rfl <;> simp [next, polled]
  | drop k =>
    by_cases hkw : k = w
    · exact .inr (if_pos hkw)
    · simpa only [next, if_neg hkw] using gone
  | act a =>
    cases a with
    | add => exact gone
    | done => rcases gone with rfl | rfl <;> simp [next, release]

/-- Only the release of a cycle takes waiters out of the line. -/
theorem mem_line_serve (hw : w ∈ b.line) (kept : ¬ (c = .act .done ∧ b.outstanding = 1)) :
    w ∈ (serve b c).1.line := by
  cases c with
  | wait =>
    simp only [serve, wait]
    split
    · exact hw
    · exact List.mem_append_left _ hw
  | poll k =>
    simp only [serve, poll]
    split <;> exact hw
  | drop k => exact hw
  | act a =>
    cases a with
    | add => exact hw
    | done =>
      rcases b.units_cases with idle | last | more
      · simpa [serve, done_of_idle idle] using hw
      · exact absurd ⟨rfl, last⟩ kept
      · simpa [serve, done_of_more more] using hw

theorem Orderly.line_serve (h : b.Orderly) (c : BarrierCall)
    (idle : (serve b c).1.outstanding = 0) : (serve b c).1.line = [] := by
  cases c with
  | wait =>
    simp only [serve, wait] at idle ⊢
    split at idle
    next hidle =>
      rw [if_pos hidle]
      exact h.idle hidle
    next hbusy => exact absurd idle hbusy
  | poll k =>
    simp only [serve, poll] at idle ⊢
    split at idle <;> exact h.idle idle
  | drop k => exact h.idle idle
  | act a =>
    cases a with
    | add => exact absurd idle (Nat.succ_ne_zero _)
    | done =>
      simp only [serve] at idle ⊢
      rcases b.units_cases with hidle | last | more
      · rw [done_of_idle hidle]
        exact h.idle hidle
      · rw [done_of_last last]
        exact (releaseAll_frame _ _).2.1
      · rw [done_of_more more] at idle
        exact absurd idle (by show b.outstanding - 1 ≠ 0; omega)

theorem Orderly.kept (h : b.Orderly) (c : BarrierCall) : (serve b c).1.Orderly where
  idle := h.line_serve c
  inLine w parked found := by
    by_cases hlt : w < b.waiters.size
    · have hs := Array.getElem?_eq_getElem hlt
      have hnext := (h.getElem?_serve hs c).symm.trans found
      obtain ⟨⟨parked', hwaits⟩, kept⟩ := Waiter.waiting_of_next (Option.some.inj hnext)
      exact mem_line_serve (h.inLine w parked' (hs.trans (congrArg some hwaits))) kept
    · obtain ⟨rfl, rfl⟩ := WaitCall.eq_wait_of_size (size_serve b c) hlt (lt_size_of_getElem? found)
      simp only [serve, wait] at found ⊢
      split at found
      next => simp at found
      next busy => simp [busy]

theorem orderly_after (h : b.Orderly) (calls : List BarrierCall) :
    (serve.after b calls).Orderly :=
  serve.run_induction (P := fun _ _ b => b.Orderly) h (fun _ _ _ c h => h.kept c) calls

theorem orderly_empty : ({} : Barrier).Orderly := ⟨fun _ => rfl, by simp⟩

end Barrier

end HopTrace
