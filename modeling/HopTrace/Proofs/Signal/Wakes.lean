import HopTrace.Proofs.Signal.Calls

/-!
# No wake is lost and none is taken twice

Each raise that takes effect makes one wake, which is taken by one poll or by
one who asks without waiting. Whoever has been polled in vain has been woken
since then if a wake is pending, so the wake cannot be stranded.
-/

namespace HopTrace.Signal

def WokenSincePoll (w : Nat) (h : List (Exchange SignalCall SignalReply)) : Prop :=
  ∃ earlier e later, h = earlier ++ e :: later ∧ w ∈ e.reply.woken ∧
    ∀ x ∈ e :: later, x.call ≠ .poll w

variable {s s₀ : Signal} {w : Nat} {x : Waiter} {c : SignalCall} {calls since : List SignalCall}

theorem WokenSincePoll.concat {h : List (Exchange SignalCall SignalReply)}
    {e : Exchange SignalCall SignalReply} (woken : WokenSincePoll w h) (other : e.call ≠ .poll w) :
    WokenSincePoll w (h ++ [e]) := by
  obtain ⟨earlier, e', later, rfl, hmem, hlater⟩ := woken
  refine ⟨earlier, e', later ++ [e], by simp, hmem, ?_⟩
  rw [← List.cons_append, List.forall_mem_append, List.forall_mem_singleton]
  exact ⟨hlater, other⟩

def Recorded (s₀ : Signal) (since : List SignalCall) (w : Nat) : Waiter → Prop
  | .fresh => Live w (serve.history s₀ since) ∧ .poll w ∉ since
  | .parked => Live w (serve.history s₀ since)
  | .woken => Live w (serve.history s₀ since) ∧ WokenSincePoll w (serve.history s₀ since)
  | .consumed => ¬ Live w (serve.history s₀ since)
  | .withdrawn => ¬ Live w (serve.history s₀ since)

theorem Recorded.live (h : Recorded s₀ since w x) (consumed : x ≠ .consumed)
    (withdrawn : x ≠ .withdrawn) : Live w (serve.history s₀ since) := by
  cases x with
  | fresh => exact h.1
  | parked => exact h
  | woken => exact h.1
  | consumed => exact absurd rfl consumed
  | withdrawn => exact absurd rfl withdrawn

/-- A call that is about no waiter or another one, and does not wake this one. -/
theorem Recorded.aside (h : Recorded s₀ since w x) (poll : c ≠ .poll w) (drop : c ≠ .drop w) :
    Recorded s₀ (since ++ [c]) w x := by
  cases x with
  | fresh =>
    refine ⟨Machine.live_of_other h.1 poll drop, fun hmem => ?_⟩
    rw [List.mem_append, List.mem_singleton] at hmem
    exact hmem.elim h.2 poll.symm
  | parked => exact Machine.live_of_other h poll drop
  | woken =>
    refine ⟨Machine.live_of_other h.1 poll drop, ?_⟩
    rw [serve.history_concat]
    exact h.2.concat poll
  | consumed | withdrawn => exact Machine.not_live_concat h

/-- A poll takes the wake that is pending, or parks the waiter. -/
theorem Recorded.poll (found : (serve.after s₀ since).waiters[w]? = some x)
    (h : Recorded s₀ since w x) :
    Recorded s₀ (since ++ [.poll w]) w (x.polled (serve.after s₀ since).pending) := by
  have looked (looks : x.Looks) : Recorded s₀ (since ++ [.poll w]) w
      (if (serve.after s₀ since).pending then .consumed else .parked) := by
    have hlive : Live w (serve.history s₀ since) :=
      h.live (by rcases looks with rfl | rfl <;> simp) (by rcases looks with rfl | rfl <;> simp)
    cases hp : (serve.after s₀ since).pending with
    | true => exact Machine.not_live_of_ready (by simp [serve, poll_of_pending found looks hp])
    | false => exact Machine.live_of_pending hlive (by simp [serve, poll_of_idle found looks hp])
  cases x with
  | fresh => exact looked (.inl rfl)
  | woken => exact looked (.inr rfl)
  | parked => exact Machine.live_of_pending h (by simp [serve, Signal.poll, found])
  | consumed | withdrawn => exact Machine.not_live_concat h

/-- A raise that takes effect wakes whoever is parked. -/
theorem Recorded.raise (found : (serve.after s₀ since).waiters[w]? = some x)
    (idle : (serve.after s₀ since).pending = false) (h : Recorded s₀ since w x) :
    Recorded s₀ (since ++ [.act .raise]) w x.wake := by
  have haside := h.aside (c := .act .raise) (by simp) (by simp)
  cases x with
  | parked =>
    refine ⟨haside, ?_⟩
    rw [serve.history_concat]
    refine ⟨_, _, [], rfl, ?_, by simp⟩
    simp only [serve, raise_of_idle idle]
    exact mem_parked.mpr found
  | _ => exact haside

theorem Recorded.next (found : (serve.after s₀ since).waiters[w]? = some x)
    (h : Recorded s₀ since w x) :
    Recorded s₀ (since ++ [c]) w (x.next (serve.after s₀ since).pending w c) := by
  cases c with
  | wait => exact h.aside (by simp) (by simp)
  | poll k =>
    by_cases hkw : k = w
    · subst hkw
      rw [Waiter.next, if_pos rfl]
      exact h.poll found
    · rw [Waiter.next, if_neg hkw]
      exact h.aside (by simpa using hkw) (by simp)
  | drop k =>
    by_cases hkw : k = w
    · subst hkw
      rw [Waiter.next, if_pos rfl]
      exact Machine.not_live_of_drop
    · rw [Waiter.next, if_neg hkw]
      exact h.aside (by simp) (by simpa using hkw)
  | act a =>
    cases a with
    | raise =>
      cases hp : (serve.after s₀ since).pending with
      | true => exact h.aside (by simp) (by simp)
      | false => exact h.raise found hp
    | tryTake => exact h.aside (by simp) (by simp)

/-! ## Runs -/

theorem size_of_run (calls : List SignalCall) :
    (serve.after {} calls).waiters.size = calls.count .wait :=
  (Machine.size_after (f := fun s => s.waiters.size) size_serve ({} : Signal) calls).trans
    (Nat.zero_add _)

theorem attentive_of_run (calls : List SignalCall) : (serve.after {} calls).Attentive :=
  serve.run_induction (P := fun _ _ s => s.Attentive) (fun pending => by simp at pending)
    (fun _ _ _ c h => h.kept c) calls

theorem recorded_of_began (began : serve.Began {} calls w s₀ since) :
    ∃ x, (serve.after s₀ since).waiters[w]? = some x ∧ Recorded s₀ since w x := by
  obtain ⟨before, rfl, rfl, rfl⟩ := began
  rw [serve.after_concat, ← size_of_run]
  induction since using List.reverseRecOn with
  | nil => exact ⟨.fresh, Array.getElem?_push_size, nofun, by simp⟩
  | append_singleton since c ih =>
    obtain ⟨x, hx, hrec⟩ := ih
    rw [serve.after_concat]
    exact ⟨_, getElem?_serve hx c, hrec.next hx⟩

theorem countP_one {α : Type} (p : α → Bool) (a : α) : [a].countP p = (p a).toNat := by
  rw [List.countP_singleton]
  cases p a <;> rfl

/-- The wakes taken, and the one pending, are the one that was pending before and those of the
raises that took effect. -/
theorem wakes_of_run (s : Signal) (calls : List SignalCall) :
    (serve.history s calls).countP consumes + (serve.after s calls).pending.toNat =
      s.pending.toNat + (serve.history s calls).countP takesEffect := by
  refine serve.run_induction (P := fun _ h s' => h.countP consumes + s'.pending.toNat =
    s.pending.toNat + h.countP takesEffect) (Nat.zero_add _) (fun _ h s' c ih => ?_) calls
  have hc := pending_serve s' c
  rw [List.countP_append, List.countP_append, countP_one, countP_one]
  omega

/-- A wake that nobody takes stays. -/
theorem pending_of_burst {burst : List SignalCall} (raised : .act .raise ∈ burst)
    (kept : ∀ e ∈ serve.history s burst, consumes e = false) :
    (serve.after s burst).pending = true := by
  induction burst using List.reverseRecOn with
  | nil => simp at raised
  | append_singleton burst c ih =>
    rw [serve.history_concat, List.forall_mem_append, List.forall_mem_singleton] at kept
    have hc := pending_serve (serve.after s burst) c
    rw [kept.2] at hc
    rw [serve.after_concat]
    by_contra hlost
    have hgone : (serve (serve.after s burst) c).1.pending = false := by simpa using hlost
    rw [hgone] at hc
    by_cases hraise : .act .raise ∈ burst
    · rw [ih hraise kept.1] at hc
      simp at hc
      omega
    · have hnow : c = .act .raise := by simpa [hraise, eq_comm] using raised
      subst hnow
      cases hp : (serve.after s burst).pending <;>
        simp [hp, takesEffect, serve] at hc

/-- Of the waiters that are live, those polled in vain have been woken since if a wake is pending,
and each of them would get it. -/
theorem attended_of_pending (pending : (serve.after {} calls).pending = true)
    (began : serve.Began {} calls w s₀ since) (live : Live w (serve.history s₀ since)) :
    (.poll w ∈ since → WokenSincePoll w (serve.history s₀ since)) ∧
      ((serve.after {} calls).poll w).2 = some true := by
  obtain ⟨x, hx, hrec⟩ := recorded_of_began began
  have hattentive := attentive_of_run calls pending w
  rw [began.after_eq] at hattentive pending ⊢
  cases x with
  | fresh =>
    exact ⟨fun polled => absurd polled hrec.2, by rw [poll_of_pending hx (.inl rfl) pending]⟩
  | woken => exact ⟨fun _ => hrec.2, by rw [poll_of_pending hx (.inr rfl) pending]⟩
  | parked => exact absurd hx hattentive
  | consumed => exact absurd live hrec
  | withdrawn => exact absurd live hrec

/-- The wakes taken, and the one pending, are as many as the raises that took effect. However
often the signal is raised while nobody takes the wake, there is just one. While a wake is pending,
each live waiter that has been polled in vain has been woken since its last poll, and would be
served by the next. -/
theorem one_wake_per_raise (calls : List SignalCall) :
    let s := serve.after {} calls
    (serve.history {} calls).countP consumes + s.pending.toNat =
        (serve.history {} calls).countP takesEffect ∧
      (∀ burst, .act .raise ∈ burst → (∀ e ∈ serve.history s burst, consumes e = false) →
        s.pending.toNat + (serve.history s burst).countP takesEffect = 1 ∧
          ∀ rest, .act .raise ∉ rest →
            (serve.history (serve.after s burst) rest).countP consumes +
              (serve.after (serve.after s burst) rest).pending.toNat = 1) ∧
      (s.pending = true → ∀ w s₀ since, serve.Began {} calls w s₀ since →
        Live w (serve.history s₀ since) →
          (.poll w ∈ since → WokenSincePoll w (serve.history s₀ since)) ∧
            (s.poll w).2 = some true) := by
  intro s
  refine ⟨?_, fun burst raised kept => ?_, fun pending w s₀ since => attended_of_pending pending⟩
  · simpa using wakes_of_run {} calls
  · have hpending := pending_of_burst raised kept
    have hburst := wakes_of_run s burst
    have hnone : (serve.history s burst).countP consumes = 0 := by
      rw [List.countP_eq_zero]
      exact fun e he => by simp [kept e he]
    rw [hpending, hnone] at hburst
    refine ⟨by simpa using hburst.symm, fun rest silent => ?_⟩
    have hrest := wakes_of_run (serve.after s burst) rest
    have hidle : (serve.history (serve.after s burst) rest).countP takesEffect = 0 := by
      rw [List.countP_eq_zero]
      intro e he heffect
      have hcall : e.call ∈ rest := serve.call_mem he
      simp only [takesEffect, decide_eq_true_eq] at heffect
      exact silent (heffect.1 ▸ hcall)
    rw [hidle, hpending] at hrest
    exact hrest

/-- Of two who wait the first is woken and dropped, and the wake is left to the second. -/
def handedOn : List SignalCall :=
  [.wait, .wait, .poll 0, .poll 1, .act .raise, .act .raise, .drop 0]

theorem one_wake_per_raise_handed_on :
    ∃ s₀ since, serve.Began {} handedOn 1 s₀ since ∧ Live 1 (serve.history s₀ since) ∧
      .poll 1 ∈ since ∧ WokenSincePoll 1 (serve.history s₀ since) ∧
      ((serve.after {} handedOn).poll 1).2 = some true ∧
      (serve.history {} handedOn).countP takesEffect = 1 := by
  have began : serve.Began {} handedOn 1 (serve.after {} [.wait, .wait])
      [.poll 0, .poll 1, .act .raise, .act .raise, .drop 0] := ⟨[.wait], rfl, rfl, rfl⟩
  have live : Live 1 (serve.history (serve.after {} [.wait, .wait])
      [.poll 0, .poll 1, .act .raise, .act .raise, .drop 0]) := by decide
  obtain ⟨hwakes, -, hattended⟩ := one_wake_per_raise handedOn
  obtain ⟨hwoken, hserved⟩ := hattended rfl 1 _ _ began live
  exact ⟨_, _, began, live, by decide, hwoken (by decide), hserved, hwakes.symm⟩

end HopTrace.Signal
