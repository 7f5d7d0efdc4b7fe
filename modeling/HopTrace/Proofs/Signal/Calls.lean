import HopTrace.Proofs.Replacement
import HopTrace.Proofs.Waiting
import HopTrace.Signal.Session

/-!
# What calls do to a signal and its waiters

A wake is there after a raise until somebody takes it, which is one poll or one
who asks without waiting. Nobody stays parked while it is there.
-/

namespace HopTrace

abbrev SignalCall := WaitCall Signal.Action

abbrev SignalReply := WaitReply Bool

namespace Signal

def serve : Machine Signal SignalCall SignalReply
  | s, .wait => (s.wait, { found := s.pending })
  | s, .poll w => ((s.poll w).1, { found := s.pending, answer := (s.poll w).2 })
  | s, .drop w => (s.drop w, { found := s.pending })
  | s, .act .raise => (s.raise.1, { found := s.pending, woken := s.raise.2 })
  | s, .act .tryTake => (s.tryTake.1, { found := s.pending, answer := some s.tryTake.2 })

def consumes (e : Exchange SignalCall SignalReply) : Bool := e.reply.answer = some true

def takesEffect (e : Exchange SignalCall SignalReply) : Bool :=
  e.call = .act .raise ∧ e.reply.found = false

def Waiter.polled (pending : Bool) : Waiter → Waiter
  | .fresh => if pending then .consumed else .parked
  | .woken => if pending then .consumed else .parked
  | x => x

def Waiter.wake : Waiter → Waiter
  | .parked => .woken
  | x => x

def Waiter.next (pending : Bool) (w : Nat) (x : Waiter) : SignalCall → Waiter
  | .wait => x
  | .poll k => if k = w then x.polled pending else x
  | .drop k => if k = w then .withdrawn else x
  | .act .raise => if pending then x else x.wake
  | .act .tryTake => x

variable {s : Signal} {w k : Nat} {x : Waiter} {c : SignalCall}

theorem getElem?_put_self (found : s.waiters[w]? = some x) (x' : Waiter) :
    (s.put w x').waiters[w]? = some x' :=
  getElem?_setIfInBounds_of_found found x'

theorem getElem?_put_ne (h : k ≠ w) (x' : Waiter) : (s.put k x').waiters[w]? = s.waiters[w]? :=
  Array.getElem?_setIfInBounds_ne h

theorem mem_parked : w ∈ s.parked ↔ s.waiters[w]? = some .parked := by
  unfold parked
  rw [List.mem_filter, List.mem_range, decide_eq_true_iff, and_iff_right_iff_imp]
  exact lt_size_of_getElem?

theorem raise_of_pending (h : s.pending = true) : s.raise = (s, []) := if_pos h

theorem raise_of_idle (h : s.pending = false) : s.raise =
    ({ pending := true
       waiters := s.waiters.map fun x => if x = .parked then .woken else x }, s.parked) := by
  simp [raise, h]

theorem Waiter.wake_eq (x : Waiter) : (if x = .parked then .woken else x) = x.wake := by
  cases x <;> rfl

/-! ## Polls -/

def Waiter.Looks (x : Waiter) : Prop := x = .fresh ∨ x = .woken

theorem poll_of_pending (found : s.waiters[w]? = some x) (looks : x.Looks)
    (pending : s.pending = true) :
    s.poll w = ({ s.put w .consumed with pending := false }, some true) := by
  rcases looks with rfl | rfl <;> simp [poll, found, pending]

theorem poll_of_idle (found : s.waiters[w]? = some x) (looks : x.Looks)
    (idle : s.pending = false) : s.poll w = (s.put w .parked, some false) := by
  rcases looks with rfl | rfl <;> simp [poll, found, idle]

/-- A poll of anyone else leaves the signal alone. -/
theorem poll_of_other (other : ∀ x, s.waiters[w]? = some x → ¬ x.Looks) :
    (s.poll w).1 = s ∧ (s.poll w).2 ≠ some true := by
  unfold poll
  split
  next => exact ⟨rfl, by simp⟩
  next => exact ⟨rfl, by simp⟩
  next => exact ⟨rfl, by simp⟩
  next => exact ⟨rfl, by simp⟩
  next x hparked hconsumed hwithdrawn found =>
    refine absurd ?_ (other x found)
    cases x with
    | fresh => exact .inl rfl
    | woken => exact .inr rfl
    | parked => exact absurd rfl hparked
    | consumed => exact absurd rfl hconsumed
    | withdrawn => exact absurd rfl hwithdrawn

theorem getElem?_poll (found : s.waiters[w]? = some x) :
    (s.poll k).1.waiters[w]? = some (if k = w then x.polled s.pending else x) := by
  by_cases looks : ∃ y, s.waiters[k]? = some y ∧ y.Looks
  · obtain ⟨y, hk, hlooks⟩ := looks
    by_cases hkw : k = w
    · subst hkw
      obtain rfl : x = y := Option.some.inj (found.symm.trans hk)
      cases hp : s.pending with
      | true =>
        rw [poll_of_pending found hlooks hp, if_pos rfl]
        rcases hlooks with rfl | rfl <;> exact getElem?_put_self found _
      | false =>
        rw [poll_of_idle found hlooks hp, if_pos rfl]
        rcases hlooks with rfl | rfl <;> exact getElem?_put_self found _
    · rw [if_neg hkw]
      cases hp : s.pending with
      | true =>
        rw [poll_of_pending hk hlooks hp]
        exact (getElem?_put_ne hkw _).trans found
      | false =>
        rw [poll_of_idle hk hlooks hp]
        exact (getElem?_put_ne hkw _).trans found
  · have other : ∀ y, s.waiters[k]? = some y → ¬ y.Looks := fun y hk hy => looks ⟨y, hk, hy⟩
    rw [(poll_of_other other).1, found]
    by_cases hkw : k = w
    · subst hkw
      have hx : x.polled s.pending = x := by
        cases x with
        | fresh => exact absurd (.inl rfl) (other _ found)
        | woken => exact absurd (.inr rfl) (other _ found)
        | _ => rfl
      simp [hx]
    · rw [if_neg hkw]

/-! ## Calls -/

theorem getElem?_serve (found : s.waiters[w]? = some x) (c : SignalCall) :
    (serve s c).1.waiters[w]? = some (x.next s.pending w c) := by
  cases c with
  | wait => exact getElem?_push_of_found found .fresh
  | poll k => exact getElem?_poll found
  | drop k =>
    by_cases hkw : k = w
    · subst hkw
      simp only [Waiter.next, if_pos]
      exact getElem?_put_self found _
    · simp only [Waiter.next, if_neg hkw]
      exact (getElem?_put_ne hkw _).trans found
  | act a =>
    cases a with
    | raise =>
      cases hp : s.pending with
      | true =>
        simp only [serve, raise_of_pending hp]
        exact found
      | false =>
        simp only [serve, raise_of_idle hp, Array.getElem?_map, found, Option.map_some,
          Waiter.wake_eq]
        rfl
    | tryTake => exact found

theorem size_serve (s : Signal) (c : SignalCall) :
    (serve s c).1.waiters.size = s.waiters.size + [c].count .wait := by
  cases c with
  | wait => exact Array.size_push _
  | poll k =>
    by_cases looks : ∃ y, s.waiters[k]? = some y ∧ y.Looks
    · obtain ⟨y, hk, hlooks⟩ := looks
      cases hp : s.pending with
      | true =>
        simp only [serve, poll_of_pending hk hlooks hp]
        exact Array.size_setIfInBounds
      | false =>
        simp only [serve, poll_of_idle hk hlooks hp]
        exact Array.size_setIfInBounds
    · simp only [serve, (poll_of_other fun y hk hy => looks ⟨y, hk, hy⟩).1]
      rfl
  | drop k => exact Array.size_setIfInBounds
  | act a =>
    cases a with
    | raise =>
      cases hp : s.pending with
      | true => simp [serve, raise_of_pending hp]
      | false => simp [serve, raise_of_idle hp]
    | tryTake => rfl

/-- A wake comes with a raise that takes effect, and goes with whoever takes it. -/
theorem pending_serve (s : Signal) (c : SignalCall) :
    (consumes ⟨c, (serve s c).2⟩).toNat + (serve s c).1.pending.toNat =
      s.pending.toNat + (takesEffect ⟨c, (serve s c).2⟩).toNat := by
  cases c with
  | wait => simp [serve, wait, consumes, takesEffect]
  | poll k =>
    by_cases looks : ∃ y, s.waiters[k]? = some y ∧ y.Looks
    · obtain ⟨y, hk, hlooks⟩ := looks
      cases hp : s.pending with
      | true => simp [serve, poll_of_pending hk hlooks hp, consumes, takesEffect]
      | false => simp [serve, poll_of_idle hk hlooks hp, consumes, takesEffect, put, hp]
    · obtain ⟨hsame, hanswer⟩ := poll_of_other fun y hk hy => looks ⟨y, hk, hy⟩
      simp [serve, hsame, hanswer, consumes, takesEffect]
  | drop k => simp [serve, drop, put, consumes, takesEffect]
  | act a =>
    cases a with
    | raise =>
      cases hp : s.pending with
      | true => simp [serve, raise_of_pending hp, consumes, takesEffect, hp]
      | false => simp [serve, raise_of_idle hp, consumes, takesEffect, hp]
    | tryTake => cases hp : s.pending <;> simp [serve, tryTake, consumes, takesEffect, hp]

/-- Nobody is parked while a wake is pending. -/
def Attentive (s : Signal) : Prop := s.pending = true → ∀ w : Nat, s.waiters[w]? ≠ some .parked

theorem Waiter.parked_of_next {pending : Bool} (h : x.next pending w c = .parked) :
    (x = .parked ∧ (c = .act .raise → pending = true)) ∨ c = .poll w ∧ pending = false := by
  cases c with
  | wait => exact .inl ⟨h, by simp⟩
  | poll k =>
    by_cases hkw : k = w
    · subst hkw
      cases pending <;> cases x <;> simp [next, polled] at h ⊢
    · simpa [next, hkw] using h
  | drop k =>
    by_cases hkw : k = w
    · simp [next, hkw] at h
    · simpa [next, hkw] using h
  | act a =>
    cases a with
    | raise => cases pending <;> cases x <;> simp [next, wake] at h ⊢
    | tryTake => exact .inl ⟨h, by simp⟩

theorem Attentive.kept (h : s.Attentive) (c : SignalCall) : (serve s c).1.Attentive := by
  intro pending w parked
  by_cases hlt : w < s.waiters.size
  · have hx := Array.getElem?_eq_getElem hlt
    have hnext := Option.some.inj ((getElem?_serve hx c).symm.trans parked)
    have hwakes := pending_serve s c
    rcases Waiter.parked_of_next hnext with ⟨hparked, hraise⟩ | ⟨rfl, hidle⟩
    · -- Who stays parked is not there while a wake is pending, and this call has not raised one.
      have hidle : s.pending = false := by
        by_contra hp
        exact h (by simpa using hp) w (hx.trans (congrArg some hparked))
      have hnot : c ≠ .act .raise := fun hc => by simp [hidle] at hraise; exact hraise hc
      simp [hidle, pending, takesEffect, hnot] at hwakes
    · simp [hidle, pending, takesEffect] at hwakes
  · obtain ⟨rfl, rfl⟩ := WaitCall.eq_wait_of_size (size_serve s c) hlt (lt_size_of_getElem? parked)
    simp [serve, wait] at parked

end Signal

end HopTrace
