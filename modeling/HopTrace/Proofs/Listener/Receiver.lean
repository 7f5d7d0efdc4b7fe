import HopTrace.Proofs.Listener.Flow

/-!
# What a receiver is answered while the loop ends

A receiver waits for a message or for the end of the stream. Once a started
loop has been asked to stop, nothing but its read in flight can keep a receiver
waiting.
-/

namespace HopTrace.Listener

def arrived (l : Listener) : Bool := !l.stream.isEmpty || l.ended

namespace Session

variable {c : ListenerConfig} {script : List Attempt} {s : Session} {what : Step}
  {patience time : Nat} {r : ReadEnd} {reached : Listener → Bool}

def remaining (s : Session) : Nat :=
  match s.ending with
  | some (time, _) => time - s.now
  | none => 0

/-! ## Waiting -/

theorem passUntil_of_reached (h : reached s.listener = true) (deadline n : Nat) :
    passUntil deadline reached n s = s := by
  cases n with
  | zero => rfl
  | succ n => rw [passUntil, if_pos h]

theorem await_of_reached (h : reached s.listener = true) (patience : Nat) :
    s.await patience reached = (s, true) := by
  rw [await, passUntil_of_reached h, if_pos h]

theorem passUntil_of_waits (waits : ¬ reached s.listener = true)
    (ending : s.ending = some (time, r)) (deadline n : Nat) :
    passUntil deadline reached (n + 1) s =
      if time < deadline then passUntil deadline reached n (s.pass time).settle else s := by
  rw [passUntil, if_neg waits]
  split
  next time' r' hending =>
    obtain ⟨rfl, -⟩ := Prod.mk.inj (Option.some.inj (ending.symm.trans hending))
    rfl
  next hending => exact absurd (ending.symm.trans hending) (Option.some_ne_none _)

theorem await_of_due (waits : ¬ reached s.listener = true) (ending : s.ending = some (time, r))
    (due : time < s.now + patience)
    (ends : reached (s.pass time).settle.listener = true) :
    s.await patience reached = ((s.pass time).settle, true) := by
  have hpass : passUntil (s.now + patience) reached (s.listener.config.bound + 3) s =
      (s.pass time).settle := by
    rw [passUntil_of_waits waits ending, if_pos due]
    exact passUntil_of_reached ends _ _
  rw [await, hpass, if_pos ends]

theorem await_of_later (waits : ¬ reached s.listener = true) (ending : s.ending = some (time, r))
    (later : s.now + patience ≤ time) :
    s.await patience reached = (s.pass (s.now + patience), false) := by
  have hpass : passUntil (s.now + patience) reached (s.listener.config.bound + 3) s = s := by
    rw [passUntil_of_waits waits ending, if_neg (Nat.not_lt.mpr later)]
  rw [await, hpass, if_neg waits]

theorem settle_spent (stopped : s.listener.stopRequested = true) :
    s.settle.now = s.now ∧ (s.settle.ending = s.ending ∨ s.settle.ending = none) := by
  have hall := settle_invariant (P := fun s' => s'.listener.stopRequested = true ∧
      s'.now = s.now ∧ (s'.ending = s.ending ∨ s'.ending = none)) ?_ ⟨stopped, rfl, .inl rfl⟩
  · exact hall.2
  rintro s₁ s₂ ⟨hstop, hnow, hending⟩ move
  obtain ⟨-, hnow', hending'⟩ := move.spent hstop
  refine ⟨move.kept.stopRequested.trans hstop, hnow'.trans hnow, ?_⟩
  obtain hsame | hnone := hending'
  · rwa [hsame]
  · exact .inr hnone

theorem remaining_settle_le (stopped : s.listener.stopRequested = true) :
    s.settle.remaining ≤ s.remaining := by
  obtain ⟨hnow, hsame | hnone⟩ := settle_spent stopped
  · rw [remaining, hnow, hsame]
    exact Nat.le_refl _
  · simp [remaining, hnone]

/-! ## The end of the stream -/

theorem take_of_nil (empty : s.listener.stream = []) (otherwise : Answer) :
    s.take otherwise = (s, if s.listener.closed then .closed else otherwise) := by
  rw [take, receive?, empty]

theorem take_of_cons {m : Message} {rest : List Message} (stream : s.listener.stream = m :: rest)
    (otherwise : Answer) :
    s.take otherwise = ({ s with listener := { s.listener with stream := rest } }, .message m) := by
  rw [take, receive?, stream]

theorem arrived_iff (l : Listener) : arrived l = true ↔ l.stream ≠ [] ∨ l.ended = true := by
  simp [arrived]

theorem closed_of_take {otherwise : Answer} (other : otherwise ≠ .closed)
    (h : (s.take otherwise).2 = .closed) : (s.take otherwise).1.listener.closed = true := by
  cases hs : s.listener.stream with
  | cons m rest =>
    rw [take_of_cons hs] at h
    contradiction
  | nil =>
    rw [take_of_nil hs] at h ⊢
    by_cases hclosed : s.listener.closed = true
    · exact hclosed
    · exact absurd ((if_neg hclosed).symm.trans h) other

theorem closed_of_act (h : (s.act what).2 = .closed) : (s.act what).1.listener.closed = true := by
  cases heard : s.listener.consumed with
  | false => cases what <;> simp [act, heard] at h
  | true =>
    cases what with
    | recv patience =>
      simp only [act, heard] at h ⊢
      exact closed_of_take Answer.noConfusion h
    | tryRecv =>
      simp only [act, heard] at h ⊢
      exact closed_of_take Answer.noConfusion h
    | join patience =>
      simp only [act, heard, Bool.not_true, Bool.false_eq_true, if_false] at h
      split at h
      next => split at h <;> contradiction
      next => contradiction
    | start | stop => simp [act, heard] at h
    | handleStop | drop | advance => simp [act] at h

theorem quiet_of_ended (ended : s.listener.ended = true) : s.Quiet := by
  unfold Quiet
  cases loop : s.listener.loop with
  | exited | crashed => trivial
  | _ => simp [Listener.ended, loop] at ended

/-- The stream is seen closed only when nothing is left in it and the loop has ended. -/
theorem closed_of_step (h : (s.step what).2.1 = .closed) :
    (s.step what).1.listener.closed = true := by
  let s₀ : Session := { s with listener := { s.listener with log := [] } }
  have hstep : (s.step what).1 = (s₀.act what).1.settle := rfl
  have hclosed : (s₀.act what).1.listener.closed = true := closed_of_act h
  have hquiet := quiet_of_ended ((closed_iff _).mp hclosed).2
  rw [hstep, settle_of_quiet hquiet]
  exact hclosed

theorem Met.undelivered_of_closed (h : s.Met c script) (closed : s.listener.closed = true) :
    s.undelivered = [] := by
  obtain ⟨hempty, hended⟩ := (closed_iff _).mp closed
  cases loop : s.listener.loop with
  | exited | crashed =>
    have hending : s.ending = none := h.clear fun deadline hl => by simp [loop] at hl
    simp [undelivered, coming, held, inFlight, hempty, loop, hending]
  | _ => simp [Listener.ended, loop] at hended

theorem step_recv (heard : s.listener.consumed = true) (patience : Nat) :
    let s₀ : Session := { s with listener := { s.listener with log := [] } }
    let waited := (s₀.await patience arrived).1
    s.step (.recv patience) =
      ((waited.take .pending).1.settle, (waited.take .pending).2,
        (waited.take .pending).1.settle.listener.log) := by
  intro s₀ waited
  have hheard : ¬ (!s₀.listener.consumed) = true := by simp [s₀, heard]
  have hact : s₀.act (.recv patience) = waited.take .pending := by
    simp only [act, if_neg hheard]
    rfl
  simp only [step]
  rw [hact]

theorem recv_of_closed (heard : s.listener.consumed = true) (closed : s.listener.closed = true)
    (patience : Nat) : (s.step (.recv patience)).2.1 = .closed := by
  let s₀ : Session := { s with listener := { s.listener with log := [] } }
  have hclosed : s₀.listener.closed = true := closed
  obtain ⟨hempty, hended⟩ := (closed_iff _).mp hclosed
  have harrived := (arrived_iff s₀.listener).mpr (.inr hended)
  rw [step_recv heard, await_of_reached harrived, take_of_nil hempty]
  exact if_pos hclosed

theorem recvs_of_closed (heard : s.listener.consumed = true) (closed : s.listener.closed = true)
    (patiences : List Nat) : ∀ answer ∈ (s.play (patiences.map .recv)).2, answer = .closed := by
  induction patiences generalizing s with
  | nil => exact nofun
  | cons patience rest ih =>
    have hanswer := recv_of_closed heard closed patience
    have hheard := (consumed_step s (.recv patience)).mpr ⟨heard, nofun⟩
    have hrest := ih hheard (closed_of_step hanswer)
    exact List.forall_mem_cons.mpr ⟨hanswer, hrest⟩

/-! ## A receiver that goes on -/

/-- At rest, started and kept, with the loop asked to stop. -/
structure Closing (c : ListenerConfig) (script : List Attempt) (s : Session) : Prop where
  quiet : s.Quiet
  met : s.Met c script
  stopped : s.listener.stopRequested = true
  heard : s.listener.consumed = true
  started : s.listener.loop ≠ .unstarted
  kept : s.listener.loop ≠ .discarded

theorem Closing.of_settle (met : s.Met c script) (stopped : s.listener.stopRequested = true)
    (heard : s.listener.consumed = true) (started : s.listener.loop ≠ .unstarted)
    (kept : s.listener.loop ≠ .discarded) : s.settle.Closing c script := by
  have hkept := (calms_settle s).kept
  exact ⟨quiet_settle s, settle_invariant (fun _ _ h move => move.met h) met,
    hkept.stopRequested.trans stopped, hkept.consumed.trans heard,
    mt hkept.unstarted.mp started, mt hkept.discarded.mp kept⟩

theorem Closing.step_recv (h : s.Closing c script) (patience : Nat) :
    (s.step (.recv patience)).1.Closing c script := by
  have hkept := (calms_step (.recv patience) s).kept
  exact ⟨quiet_settle _, met_play h.met [.recv patience], hkept.stopRequested.trans h.stopped,
    hkept.consumed.trans h.heard, mt hkept.unstarted.mp h.started,
    mt hkept.discarded.mp h.kept⟩

theorem remaining_of_ending (ending : s.ending = some (time, r)) : s.remaining = time - s.now := by
  rw [remaining, ending]

/-- Nothing but a read in flight keeps a receiver waiting. -/
theorem Closing.waits (h : s.Closing c script) (waits : ¬ arrived s.listener = true) :
    ∃ time r, s.ending = some (time, r) ∧ s.now < time := by
  obtain ⟨hempty, hgoesOn⟩ : s.listener.stream = [] ∧ s.listener.ended = false := by
    simpa [arrived] using waits
  have hquiet := h.quiet
  have hplace := h.met.place
  unfold Quiet at hquiet
  cases loop : s.listener.loop with
  | ready => simp [loop] at hquiet
  | reading deadline =>
    rw [loop] at hquiet hplace
    obtain ⟨n, time, r, -, hending, -⟩ := hplace
    exact ⟨time, r, hending, hquiet time r hending⟩
  | holding m =>
    -- At rest a message is held only for want of room, and the stream is empty.
    rw [loop, hempty] at hquiet
    have hroom : 1 ≤ s.listener.config.bound := Nat.le_max_right _ _
    exact absurd hquiet.2 (Nat.not_le.mpr hroom)
  | exited | crashed => simp [ended, loop] at hgoesOn
  | unstarted => exact absurd loop h.started
  | discarded => exact absurd loop h.kept

theorem Closing.arrived_of_spent (h : s.Closing c script) (spent : s.remaining = 0) :
    arrived s.listener = true := by
  by_cases harrived : arrived s.listener = true
  · exact harrived
  · obtain ⟨time, r, hending, hlater⟩ := h.waits harrived
    have hremaining := remaining_of_ending hending
    omega

/-- A receiver that is kept waiting all its patience has waited for the read in flight. -/
theorem Closing.await (h : s.Closing c script) (patience : Nat) :
    let waited := (s.await patience arrived).1
    arrived waited.listener = true ∧ waited.remaining ≤ s.remaining ∨
      patience ≤ s.remaining ∧ waited.remaining = s.remaining - patience := by
  intro waited
  by_cases harrived : arrived s.listener = true
  · have hwaited : waited = s := congrArg Prod.fst (await_of_reached harrived patience)
    rw [hwaited]
    exact .inl ⟨harrived, Nat.le_refl _⟩
  obtain ⟨time, r, hending, hlater⟩ := h.waits harrived
  have hremaining := remaining_of_ending hending
  by_cases hdue : time < s.now + patience
  · -- When the read is due the loop goes on, and it comes to rest with nothing left in flight.
    let due : Session := s.pass time
    have hclosing : due.settle.Closing c script :=
      .of_settle (h.met.wait (Nat.le_max_left ..)) h.stopped h.heard h.started h.kept
    have hspent : due.settle.remaining = 0 := by
      have hdone : due.remaining = time - max s.now time := remaining_of_ending hending
      have hsettled : due.settle.remaining ≤ due.remaining := remaining_settle_le h.stopped
      omega
    have hends := hclosing.arrived_of_spent hspent
    have hwaited : waited = due.settle :=
      congrArg Prod.fst (await_of_due harrived hending hdue hends)
    rw [hwaited, hspent]
    exact .inl ⟨hends, Nat.zero_le _⟩
  · have hwaited : waited = s.pass (s.now + patience) :=
      congrArg Prod.fst (await_of_later harrived hending (Nat.le_of_not_lt hdue))
    have hleft : waited.remaining = time - max s.now (s.now + patience) := by
      rw [hwaited]
      exact remaining_of_ending hending
    right
    omega

theorem remaining_take (s : Session) (otherwise : Answer) :
    (s.take otherwise).1.remaining = s.remaining := by
  cases hs : s.listener.stream with
  | nil => rw [take_of_nil hs]
  | cons m rest =>
    rw [take_of_cons hs]
    rfl

/-- What a receiver is answered, and how long the read in flight still takes then. -/
theorem Closing.recv (h : s.Closing c script) (patience : Nat) :
    let next := s.step (.recv patience)
    next.1.remaining ≤ s.remaining ∧ ((∃ m, next.2.1 = .message m) ∨ next.2.1 = .closed ∨
      next.2.1 = .pending ∧ patience ≤ s.remaining ∧
        next.1.remaining ≤ s.remaining - patience) := by
  let s₀ : Session := { s with listener := { s.listener with log := [] } }
  have h₀ : s₀.Closing c script :=
    ⟨h.quiet, ⟨h.met.config, h.met.place, h.met.crashed⟩, h.stopped, h.heard, h.started, h.kept⟩
  intro next
  let waited := (s₀.await patience arrived).1
  have hnext : next = ((waited.take .pending).1.settle, (waited.take .pending).2,
      (waited.take .pending).1.settle.listener.log) := Session.step_recv h.heard patience
  have hstopped : (waited.take .pending).1.listener.stopRequested = true := by
    have htaken : waited.Calms _ (waited.take .pending).1 := calms_take waited rfl
    exact ((calms_await s₀ patience arrived).trans htaken).kept.stopRequested.trans h.stopped
  have hsettled : next.1.remaining ≤ waited.remaining := by
    rw [hnext, ← remaining_take waited .pending]
    exact remaining_settle_le hstopped
  have hanswer : next.2.1 = (waited.take .pending).2 := by rw [hnext]
  have hawait := h₀.await patience
  have hle : waited.remaining ≤ s.remaining := by
    obtain ⟨-, hle⟩ | ⟨-, heq⟩ := hawait
    · exact hle
    · exact Nat.le_trans (Nat.le_of_eq heq) (Nat.sub_le _ _)
  refine ⟨Nat.le_trans hsettled hle, ?_⟩
  rw [hanswer]
  cases hs : waited.listener.stream with
  | cons m rest =>
    rw [take_of_cons hs]
    exact .inl ⟨m, rfl⟩
  | nil =>
    rw [take_of_nil hs]
    by_cases hclosed : waited.listener.closed = true
    · exact .inr (.inl (if_pos hclosed))
    · obtain ⟨harrived, -⟩ | ⟨hpatience, heq⟩ := hawait
      · have hended := ((arrived_iff _).mp harrived).resolve_left (absurd hs)
        exact absurd ((closed_iff _).mpr ⟨hs, hended⟩) hclosed
      · exact .inr (.inr ⟨if_neg hclosed, hpatience, heq ▸ hsettled⟩)

theorem Closing.undelivered_recv (h : s.Closing c script) (patience : Nat) :
    let next := s.step (.recv patience)
    s.undelivered = next.2.1.messages ++ next.1.undelivered := by
  have htouched := (touch_touched s (.recv patience)).flows nofun
  have hcalms := (calms_step (.recv patience) s).flows h.stopped h.heard
  exact (htouched.trans hcalms).undelivered

end Session

end HopTrace.Listener
