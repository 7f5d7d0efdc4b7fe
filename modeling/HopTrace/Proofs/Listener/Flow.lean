import HopTrace.Proofs.Listener.Ending

/-!
# The stream of a loop asked to stop

Once the loop is asked to stop it begins no further attempt. The message it
holds, or the one that the read in flight comes to, is the last to enter the
stream.
-/

namespace HopTrace.Listener.Session

variable {c : ListenerConfig} {script : List Attempt} {s s' s'' : Session}
  {ms ms' : List Message} {what : Step} {more : List Step}

def inFlight (s : Session) : List Message :=
  (s.ending.bind fun e => s.listener.config.message? e.2).toList

/-- The messages that have still to enter the stream if no further attempt is begun. -/
def coming (s : Session) : List Message := s.listener.held ++ s.inFlight

def undelivered (s : Session) : List Message := s.listener.stream ++ s.coming

/-- What has entered the stream between two sessions is the first of what was coming. -/
def Flows (s : Session) (received : List Message) (s' : Session) : Prop :=
  ∃ entered, received ++ s'.listener.stream = s.listener.stream ++ entered ∧
    entered ++ s'.coming = s.coming

/-! ## The stream of a loop asked to stop -/

theorem Flows.refl (s : Session) : s.Flows [] s := ⟨[], by simp, by simp⟩

theorem Flows.trans (first : s.Flows ms s') (last : s'.Flows ms' s'') :
    s.Flows (ms ++ ms') s'' := by
  obtain ⟨entered, hstream, hcoming⟩ := first
  obtain ⟨entered', hstream', hcoming'⟩ := last
  refine ⟨entered ++ entered', ?_, ?_⟩
  · rw [List.append_assoc, hstream', ← List.append_assoc, hstream, List.append_assoc]
  · rw [List.append_assoc, hcoming', hcoming]

theorem Flows.undelivered (flows : s.Flows ms s') : s.undelivered = ms ++ s'.undelivered := by
  obtain ⟨entered, hstream, hcoming⟩ := flows
  unfold Session.undelivered
  rw [← hcoming, ← List.append_assoc, ← hstream, List.append_assoc]

theorem Section.flows (move : s.Section s') (stopped : s.listener.stopRequested = true)
    (heard : s.listener.consumed = true) : s.Flows [] s' := by
  cases move with
  | quit loop => exact ⟨[], by simp, by simp [coming, held, inFlight, loop]⟩
  | fall loop goesOn | refuse loop goesOn | read loop goesOn => simp [stopped] at goesOn
  -- A read that ends, or a message that is held, is still to come: nothing has entered yet.
  | crash loop ending =>
    exact ⟨[], by simp, by simp [coming, held, inFlight, loop, ending, ListenerConfig.message?]⟩
  | hold loop ending due told =>
    exact ⟨[], by simp, by simp [coming, held, inFlight, loop, ending, told]⟩
  | @publish m loop => exact ⟨[m], by simp, by simp [coming, held, inFlight, loop]⟩
  | lose loop lost => simp [heard] at lost

theorem Calm.flows (move : s.Calm ms s') (stopped : s.listener.stopRequested = true)
    (heard : s.listener.consumed = true) : s.Flows ms s' := by
  cases move with
  | loop move => exact move.flows stopped heard
  | receive stream => exact ⟨[], by simp [stream], by simp [coming, held, inFlight]⟩
  | takeHandle | say | wait => exact .refl s

theorem Calms.flows (moves : s.Calms ms s') (stopped : s.listener.stopRequested = true)
    (heard : s.listener.consumed = true) : s.Flows ms s' := by
  have hall : s'.listener.stopRequested = true ∧ s'.listener.consumed = true ∧ s.Flows ms s' := by
    refine moves.invariant (P := fun received s' => s'.listener.stopRequested = true ∧
      s'.listener.consumed = true ∧ s.Flows received s') ⟨stopped, heard, .refl s⟩ ?_
    rintro received s ms s' ⟨hstop, hheard, hflows⟩ move
    exact ⟨move.kept.stopRequested.trans hstop, move.kept.consumed.trans hheard,
      hflows.trans (move.flows hstop hheard)⟩
  exact hall.2.2

theorem Touch.flows (touch : s.Touch what s') (kept : what ≠ .drop) : s.Flows [] s' := by
  cases touch with
  | start heard fresh => exact ⟨[], by simp, by simp [coming, held, inFlight, fresh]⟩
  | stop | say => exact .refl s
  | discard | drop => contradiction

theorem Touch.stopped (touch : s.Touch what s') (guarded : s.Guarded)
    (stopped : s.listener.stopRequested = true ∨ what.stops = true) :
    s'.listener.stopRequested = true := by
  rw [touch.stopRequested guarded, Bool.or_eq_true]
  exact stopped

theorem stopped_step (guarded : s.Guarded)
    (stopped : s.listener.stopRequested = true ∨ what.stops = true) :
    (s.step what).1.listener.stopRequested = true :=
  (calms_step what s).kept.stopRequested.trans ((touch_touched s what).stopped guarded stopped)

theorem flows_step (guarded : s.Guarded) (heard : s.listener.consumed = true)
    (kept : what ≠ .drop) (stopped : s.listener.stopRequested = true ∨ what.stops = true) :
    s.Flows (s.step what).2.1.messages (s.step what).1 := by
  have htouch := touch_touched s what
  have hstop := htouch.stopped guarded stopped
  have hheard : (s.touched what).listener.consumed = true := htouch.consumed.mpr ⟨heard, kept⟩
  exact (htouch.flows kept).trans ((calms_step what s).flows hstop hheard)

theorem flows_play (guarded : s.Guarded)
    (stopped : s.listener.stopRequested = true ∨ what.stops = true)
    (heard : s.listener.consumed = true) (kept : .drop ∉ what :: more) :
    s.Flows (received (s.play (what :: more)).2) (s.play (what :: more)).1 := by
  induction more generalizing s what with
  | nil =>
    exact (flows_step guarded heard (List.ne_of_not_mem_cons kept).symm stopped).trans (.refl _)
  | cons next rest ih =>
    have hkept := (List.ne_of_not_mem_cons kept).symm
    have hrest := List.not_mem_of_not_mem_cons kept
    have hstop := stopped_step guarded stopped
    have hheard := (consumed_step s what).mpr ⟨heard, hkept⟩
    exact (flows_step guarded heard hkept stopped).trans
      (ih (guarded_step guarded what) (.inl hstop) hheard hrest)

theorem Met.coming_length_le (h : s.Met c script) : s.coming.length ≤ 1 := by
  cases loop : s.listener.loop with
  | reading deadline =>
    have hheld : s.listener.held = [] := by simp [held, loop]
    rw [coming, hheld, List.nil_append, inFlight]
    exact Option.length_toList_le
  | _ =>
    have hending : s.ending = none := h.clear fun deadline hl => by simp [loop] at hl
    simp [coming, held, inFlight, loop, hending]

/-! ## Attempts -/

/-- A section after a stop request begins no attempt, and the clock does not move. -/
theorem Section.spent (move : s.Section s') (stopped : s.listener.stopRequested = true) :
    s'.listener.attempts = s.listener.attempts ∧ s'.now = s.now ∧
      (s'.ending = s.ending ∨ s'.ending = none) := by
  cases move with
  | quit | publish | lose => exact ⟨rfl, rfl, .inl rfl⟩
  | fall loop goesOn | refuse loop goesOn | read loop goesOn => simp [stopped] at goesOn
  | crash | hold => exact ⟨rfl, rfl, .inr rfl⟩

theorem Calm.attempts (move : s.Calm ms s') (stopped : s.listener.stopRequested = true) :
    s'.listener.attempts = s.listener.attempts := by
  cases move with
  | loop move => exact (move.spent stopped).1
  | takeHandle | say | receive | wait => rfl

theorem Touch.attempts (touch : s.Touch what s') :
    s'.listener.attempts = s.listener.attempts := by
  cases touch <;> rfl

theorem attempts_step (guarded : s.Guarded)
    (stopped : s.listener.stopRequested = true ∨ what.stops = true) :
    (s.step what).1.listener.attempts = s.listener.attempts := by
  have htouch := touch_touched s what
  have hstop := htouch.stopped guarded stopped
  have hall := (calms_step what s).invariant
    (P := fun _ s' => s'.listener.stopRequested = true ∧
      s'.listener.attempts = s.listener.attempts) ⟨hstop, htouch.attempts⟩
    fun _ _ _ _ h move =>
      ⟨move.kept.stopRequested.trans h.1, (move.attempts h.1).trans h.2⟩
  exact hall.2

theorem attempts_play (guarded : s.Guarded)
    (stopped : s.listener.stopRequested = true ∨ what.stops = true) (more : List Step) :
    (s.play (what :: more)).1.listener.attempts = s.listener.attempts := by
  induction more generalizing s what with
  | nil => exact attempts_step guarded stopped
  | cons next rest ih =>
    have hstop := stopped_step guarded stopped
    exact (ih (guarded_step guarded what) (.inl hstop)).trans (attempts_step guarded stopped)

end HopTrace.Listener.Session
