import HopTrace.Proofs.Listener.Conservation

/-!
# What ends the receive loop

Only the owner asks the loop to stop, and only a crash ends it unasked. The
connection goes with the loop, or with a listener that was never started. What a
step does at once decides whether the loop is asked, whether someone listens
and whether the loop was started; the moves after it leave these alone.
-/

namespace HopTrace

def ReceiveLoop.holder : ReceiveLoop → Holder
  | .unstarted => .owner
  | .exited => .nobody
  | .crashed => .nobody
  | .discarded => .nobody
  | _ => .loop

/-- Once it was started, whoever has the connection keeps it when the listener is dropped. -/
theorem ReceiveLoop.afterDrop_holder {loop : ReceiveLoop} (started : loop ≠ .unstarted) :
    loop.holder.afterDrop = loop.holder := by
  cases loop with
  | unstarted => contradiction
  | _ => rfl

def Listener.Housed (l : Listener) : Prop := l.holder = l.loop.holder

theorem Listener.Housed.holdsConnection_iff {l : Listener} (h : l.Housed) :
    l.holdsConnection = false ↔ l.ended = true ∨ l.loop = .discarded := by
  unfold holdsConnection ended
  rw [h]
  cases l.loop <;> simp [ReceiveLoop.holder]

theorem Listener.Housed.drop {l : Listener} (h : l.Housed) : l.drop.Housed := by
  unfold Housed at h ⊢
  unfold Listener.drop
  dsimp only
  rw [h]
  cases l.loop <;> rfl

namespace Listener.Session

variable {c : ListenerConfig} {script : List Attempt} {s s' s'' : Session} {ms : List Message}
  {what : Step} {steps : List Step}

/-! ## What the owner decides -/

/-- What the loop, the clock and whoever receives leave alone. -/
structure Kept (s s' : Session) : Prop where
  config : s'.listener.config = s.listener.config
  stopRequested : s'.listener.stopRequested = s.listener.stopRequested
  consumed : s'.listener.consumed = s.listener.consumed
  unstarted : s'.listener.loop = .unstarted ↔ s.listener.loop = .unstarted
  discarded : s'.listener.loop = .discarded ↔ s.listener.loop = .discarded

theorem Kept.trans (first : s.Kept s') (last : s'.Kept s'') : s.Kept s'' :=
  ⟨last.config.trans first.config, last.stopRequested.trans first.stopRequested,
    last.consumed.trans first.consumed, last.unstarted.trans first.unstarted,
    last.discarded.trans first.discarded⟩

theorem Section.kept (move : s.Section s') : s.Kept s' := by
  cases move with
  | quit loop | fall loop | refuse loop | read loop | crash loop | hold loop | publish loop
  | lose loop =>
    exact ⟨rfl, rfl, rfl, by simp [loop], by simp [loop]⟩

theorem Calm.kept (move : s.Calm ms s') : s.Kept s' := by
  cases move with
  | loop move => exact move.kept
  | takeHandle | say | receive | wait => exact ⟨rfl, rfl, rfl, .rfl, .rfl⟩

theorem Calms.kept (moves : s.Calms ms s') : s.Kept s' :=
  moves.invariant (P := fun _ s' => s.Kept s') ⟨rfl, rfl, rfl, .rfl, .rfl⟩
    fun _ _ _ _ first move => first.trans move.kept

/-- The loop exits only when asked to, and a listener that was dropped asks it to and leaves
nothing behind. -/
structure Guarded (s : Session) : Prop where
  exits : s.listener.loop = .exited → s.listener.stopRequested = true
  stops : s.listener.consumed = false → s.listener.stopRequested = true
  empties : s.listener.consumed = false → s.listener.stream = []
  hands : s.listener.consumed = false → s.listener.loop ≠ .unstarted

theorem Section.guarded (move : s.Section s') (h : s.Guarded) : s'.Guarded := by
  cases move with
  | quit loop stopped => exact ⟨fun _ => stopped, h.stops, h.empties, fun _ => nofun⟩
  | lose loop lost => exact ⟨fun _ => h.stops lost, h.stops, h.empties, fun _ => nofun⟩
  | publish loop heard =>
    exact ⟨nofun, h.stops, fun lost => by simp [heard] at lost, fun _ => nofun⟩
  | fall | refuse | read | crash | hold => exact ⟨nofun, h.stops, h.empties, fun _ => nofun⟩

theorem Calm.guarded (move : s.Calm ms s') (h : s.Guarded) : s'.Guarded := by
  cases move with
  | loop move => exact move.guarded h
  | receive stream =>
    refine ⟨h.exits, h.stops, fun lost => ?_, h.hands⟩
    have hempty := h.empties lost
    rw [stream] at hempty
    contradiction
  | takeHandle | say | wait => exact ⟨h.exits, h.stops, h.empties, h.hands⟩

theorem Touch.guarded (touch : s.Touch what s') (h : s.Guarded) : s'.Guarded := by
  cases touch with
  | start heard => exact ⟨nofun, h.stops, h.empties, fun _ => nofun⟩
  | stop => exact ⟨fun _ => rfl, fun _ => rfl, h.empties, h.hands⟩
  | say => exact ⟨h.exits, h.stops, h.empties, h.hands⟩
  | discard => exact ⟨nofun, fun _ => rfl, fun _ => rfl, fun _ => nofun⟩
  | drop started => exact ⟨fun _ => rfl, fun _ => rfl, fun _ => rfl, fun _ => started⟩

theorem guarded_play (h : s.Guarded) (steps : List Step) : (s.play steps).1.Guarded :=
  play_invariant (fun _ _ _ h touch => touch.guarded h) (fun _ _ _ h move => move.guarded h) h steps

theorem guarded_step (h : s.Guarded) (what : Step) : (s.step what).1.Guarded :=
  guarded_play h [what]

theorem guarded_opened (c : ListenerConfig) (script : List Attempt) (now : Nat) :
    (opened c script now).Guarded :=
  ⟨nofun, nofun, nofun, nofun⟩

theorem Touch.stopRequested (touch : s.Touch what s') (h : s.Guarded) :
    s'.listener.stopRequested = (s.listener.stopRequested || what.stops) := by
  cases touch with
  | stop stops => simp [stops]
  | say kept lost =>
    by_cases hstops : what.stops = true
    · simp [h.stops (lost hstops)]
    · simp [hstops]
  | start | discard | drop => simp [Step.stops]

theorem Touch.consumed (touch : s.Touch what s') :
    s'.listener.consumed = true ↔ s.listener.consumed = true ∧ what ≠ .drop := by
  cases touch with
  | start heard => simp [heard]
  | stop stops kept => simp [kept]
  | say kept => simp [kept]
  | discard => simp
  | drop => simp

theorem Touch.unstarted (touch : s.Touch what s') (h : s.Guarded) :
    s'.listener.loop = .unstarted ↔
      s.listener.loop = .unstarted ∧ what ≠ .start ∧ what ≠ .drop := by
  cases touch with
  | start => simp
  | stop stops kept =>
    have hnot : what ≠ .start := fun hwhat => by simp [hwhat, Step.stops] at stops
    simp [kept, hnot]
  | say kept lost started =>
    refine ⟨fun fresh => ⟨fresh, fun hwhat => ?_, kept⟩, fun hall => hall.1⟩
    have hheard : s.listener.consumed = true := eq_true_of_ne_false fun hlost => h.hands hlost fresh
    exact started hwhat hheard fresh
  | discard => simp
  | drop started => simp [started]

theorem Touch.discarded (touch : s.Touch what s') :
    s'.listener.loop = .discarded ↔
      s.listener.loop = .discarded ∨ s.listener.loop = .unstarted ∧ what = .drop := by
  cases touch with
  | start heard fresh => simp [fresh]
  | stop stops kept => simp [kept]
  | say kept => simp [kept]
  | discard fresh => simp [fresh]
  | drop started => simp [started]

theorem stopRequested_step (h : s.Guarded) (what : Step) :
    (s.step what).1.listener.stopRequested = (s.listener.stopRequested || what.stops) :=
  (calms_step what s).kept.stopRequested.trans ((touch_touched s what).stopRequested h)

theorem consumed_step (s : Session) (what : Step) :
    (s.step what).1.listener.consumed = true ↔ s.listener.consumed = true ∧ what ≠ .drop := by
  rw [(calms_step what s).kept.consumed]
  exact (touch_touched s what).consumed

theorem unstarted_step (h : s.Guarded) (what : Step) :
    (s.step what).1.listener.loop = .unstarted ↔
      s.listener.loop = .unstarted ∧ what ≠ .start ∧ what ≠ .drop :=
  (calms_step what s).kept.unstarted.trans ((touch_touched s what).unstarted h)

theorem discarded_step (s : Session) (what : Step) :
    (s.step what).1.listener.loop = .discarded ↔
      s.listener.loop = .discarded ∨ s.listener.loop = .unstarted ∧ what = .drop :=
  (calms_step what s).kept.discarded.trans (touch_touched s what).discarded

theorem stopRequested_play (h : s.Guarded) (steps : List Step) :
    (s.play steps).1.listener.stopRequested =
      (s.listener.stopRequested || steps.any Step.stops) := by
  induction steps generalizing s with
  | nil => simp [play]
  | cons what rest ih =>
    have hrest := ih (guarded_step h what)
    rw [stopRequested_step h what] at hrest
    rw [List.any_cons, ← Bool.or_assoc]
    exact hrest

theorem consumed_play (s : Session) (steps : List Step) :
    (s.play steps).1.listener.consumed = true ↔ s.listener.consumed = true ∧ .drop ∉ steps := by
  induction steps generalizing s with
  | nil => simp [play]
  | cons what rest ih =>
    have hrest := ih (s.step what).1
    rw [consumed_step] at hrest
    simp only [List.mem_cons, not_or, ← and_assoc, ne_comm]
    exact hrest

theorem unstarted_play (h : s.Guarded) (steps : List Step) :
    (s.play steps).1.listener.loop = .unstarted ↔
      s.listener.loop = .unstarted ∧ .start ∉ steps ∧ .drop ∉ steps := by
  induction steps generalizing s with
  | nil => simp [play]
  | cons what rest ih =>
    have hrest := ih (guarded_step h what)
    rw [unstarted_step h what] at hrest
    refine hrest.trans ?_
    simp only [List.mem_cons, not_or]
    constructor
    · rintro ⟨⟨fresh, hstart, hdrop⟩, hstarts, hdrops⟩
      exact ⟨fresh, ⟨Ne.symm hstart, hstarts⟩, Ne.symm hdrop, hdrops⟩
    · rintro ⟨fresh, ⟨hstart, hstarts⟩, hdrop, hdrops⟩
      exact ⟨⟨fresh, Ne.symm hstart, Ne.symm hdrop⟩, hstarts, hdrops⟩

/-! ## Who has the connection -/

theorem Section.housed (move : s.Section s') (h : s.listener.Housed) : s'.listener.Housed := by
  cases move with
  | refuse loop | read loop | hold loop | publish loop =>
    unfold Housed at h ⊢
    rw [h, loop]
    rfl
  | quit | fall | crash | lose => rfl

theorem Calm.housed (move : s.Calm ms s') (h : s.listener.Housed) : s'.listener.Housed := by
  cases move with
  | loop move => exact move.housed h
  | takeHandle | say | receive | wait => exact h

theorem Touch.housed (touch : s.Touch what s') (h : s.listener.Housed) : s'.listener.Housed := by
  cases touch with
  | start => rfl
  | stop | say => exact h
  | discard fresh =>
    unfold Housed at h ⊢
    rw [h, fresh]
    rfl
  | drop started =>
    unfold Housed at h ⊢
    rw [h]
    exact ReceiveLoop.afterDrop_holder started

theorem housed_play (h : s.listener.Housed) (steps : List Step) :
    (s.play steps).1.listener.Housed :=
  play_invariant (P := fun s => s.listener.Housed) (fun _ _ _ h touch => touch.housed h)
    (fun _ _ _ h move => move.housed h) h steps

/-! ## Dropping before a start -/

def droppedUnstarted : List Step → Bool
  | [] => false
  | .start :: _ => false
  | .drop :: _ => true
  | _ :: rest => droppedUnstarted rest

theorem discarded_play (h : s.Guarded) (steps : List Step) :
    (s.play steps).1.listener.loop = .discarded ↔
      s.listener.loop = .discarded ∨
        s.listener.loop = .unstarted ∧ droppedUnstarted steps = true := by
  induction steps generalizing s with
  | nil => simp [play, droppedUnstarted]
  | cons what rest ih =>
    have hrest := ih (guarded_step h what)
    rw [discarded_step, unstarted_step h what] at hrest
    refine hrest.trans ?_
    -- The first of a start and a drop decides: a loop once started is not discarded any more.
    cases what with
    | start => simp [droppedUnstarted]
    | drop => simp [droppedUnstarted]
    | stop | handleStop | advance | recv | tryRecv | join => simp [droppedUnstarted]

theorem drop_mem_of_droppedUnstarted (h : droppedUnstarted steps = true) : .drop ∈ steps := by
  induction steps with
  | nil => contradiction
  | cons what rest ih =>
    cases what with
    | start => contradiction
    | drop => exact List.mem_cons_self
    | stop | handleStop | advance | recv | tryRecv | join =>
      exact List.mem_cons_of_mem _ (ih h)

/-! ## Where a session is in its script -/

/-- An attempt makes no message exactly when it meets a crash in time. -/
theorem attempt_eq_none_iff :
    (attempt c script).1 = none ↔
      ∃ after rest, script = .read after .crashed :: rest ∧ after ≤ c.readTimeout.nanos := by
  match script with
  | [] => simp [attempt]
  | .refuse cause :: rest => simp [attempt]
  | .read after r :: rest =>
    by_cases hlate : c.readTimeout.nanos < after
    · simp [attempt, hlate]
    · cases r with
      | crashed => simp [attempt, hlate, ListenerConfig.message?, Nat.le_of_not_lt hlate]
      | received | failed => simp [attempt, hlate, ListenerConfig.message?]

/-- Why an attempt makes no message: it meets a crash in time, or has got no buffer or deadline. -/
def Fatal (c : ListenerConfig) (script : List Attempt) (now : Nat) : Prop :=
  (attempt c script).1 = none ∨ ∃ time ≤ now, c.fits time = false

structure Met (c : ListenerConfig) (script : List Attempt) (s : Session) : Prop where
  config : s.listener.config = c
  place : match s.listener.loop with
    | .reading _ => ∃ n time r, s.listener.attempts = n + 1 ∧ s.ending = some (time, r) ∧
        attempt c (leftover c script n) = (c.message? r, s.script)
    | .crashed => s.ending = none
    | _ => s.ending = none ∧ s.script = leftover c script s.listener.attempts
  crashed : s.listener.loop = .crashed →
    ∃ n, s.listener.attempts = n + 1 ∧ Fatal c (leftover c script n) s.now

theorem Section.met (move : s.Section s') (h : s.Met c script) : s'.Met c script := by
  obtain ⟨rfl, place, -⟩ := h
  cases move with
  | quit loop | publish loop | lose loop =>
    rw [loop] at place
    exact ⟨rfl, place, nofun⟩
  | fall loop goesOn unfit =>
    rw [loop] at place
    exact ⟨rfl, place.1, fun _ => ⟨_, rfl, .inr ⟨s.now, Nat.le_refl _, unfit⟩⟩⟩
  | refuse loop goesOn fit refused =>
    rw [loop] at place
    refine ⟨rfl, ⟨place.1, ?_⟩, nofun⟩
    rw [leftover, ← place.2, refused]
    rfl
  | read loop goesOn fit accepted expires =>
    rw [loop] at place
    subst expires
    refine ⟨rfl, ⟨_, _, _, rfl, rfl, ?_⟩, nofun⟩
    rw [← place.2]
    exact attempt_eq_of_accepted accepted s.now
  | crash loop ending due =>
    rw [loop] at place
    obtain ⟨n, time, r, hattempts, hending, hcomes⟩ := place
    obtain ⟨rfl, rfl⟩ := Prod.mk.inj (Option.some.inj (ending.symm.trans hending))
    exact ⟨rfl, rfl, fun _ => ⟨n, hattempts, .inl (congrArg Prod.fst hcomes)⟩⟩
  | hold loop ending due comes =>
    rw [loop] at place
    obtain ⟨n, time, r, hattempts, hending, hcomes⟩ := place
    refine ⟨rfl, ⟨rfl, ?_⟩, nofun⟩
    rw [hattempts, leftover, hcomes]

theorem Fatal.later {now later : Nat} (h : Fatal c script now) (le : now ≤ later) :
    Fatal c script later :=
  h.imp_right fun ⟨time, hle, unfit⟩ => ⟨time, Nat.le_trans hle le, unfit⟩

theorem Met.wait (h : s.Met c script) {now : Nat} (later : s.now ≤ now) :
    Met c script { s with now } where
  config := h.config
  place := h.place
  crashed loop := by
    obtain ⟨n, hattempts, hfatal⟩ := h.crashed loop
    exact ⟨n, hattempts, hfatal.later later⟩

theorem Calm.met (move : s.Calm ms s') (h : s.Met c script) : s'.Met c script := by
  cases move with
  | loop move => exact move.met h
  | takeHandle | say | receive => exact ⟨h.config, h.place, h.crashed⟩
  | wait later => exact h.wait later

theorem Touch.met (touch : s.Touch what s') (h : s.Met c script) : s'.Met c script := by
  cases touch with
  | start heard fresh | discard fresh =>
    have hplace := h.place
    rw [fresh] at hplace
    exact ⟨h.config, hplace, nofun⟩
  | stop | say | drop => exact ⟨h.config, h.place, h.crashed⟩

theorem met_play (h : s.Met c script) (steps : List Step) : (s.play steps).1.Met c script :=
  play_invariant (fun _ _ _ h touch => touch.met h) (fun _ _ _ h move => move.met h) h steps

theorem met_opened (c : ListenerConfig) (script : List Attempt) (now : Nat) :
    (opened c script now).Met c script :=
  ⟨rfl, ⟨rfl, rfl⟩, nofun⟩

/-- The loop crashes only where the script has a crash, or for want of a buffer or a deadline. -/
theorem Met.crash (h : s.Met c script) (loop : s.listener.loop = .crashed) :
    ∃ n, s.listener.attempts = n + 1 ∧
      ((∃ after rest, leftover c script n = .read after .crashed :: rest ∧
        after ≤ c.readTimeout.nanos) ∨ ∃ time ≤ s.now, c.fits time = false) := by
  obtain ⟨n, hattempts, hfatal⟩ := h.crashed loop
  exact ⟨n, hattempts, hfatal.imp_left attempt_eq_none_iff.mp⟩

structure Barred (c : ListenerConfig) (s : Session) : Prop where
  config : s.listener.config = c
  unfit : c.fits s.now = false
  reads : ∀ deadline, s.listener.loop ≠ .reading deadline
  holds : ∀ m, s.listener.loop ≠ .holding m

theorem Section.barred (move : s.Section s') (h : s.Barred c) : s'.Barred c := by
  cases move with
  | quit | fall => exact ⟨h.config, h.unfit, nofun, nofun⟩
  | refuse loop goesOn fit | read loop goesOn fit =>
    rw [h.config, h.unfit] at fit
    contradiction
  | crash loop | hold loop => exact absurd loop (h.reads _)
  | publish loop | lose loop => exact absurd loop (h.holds _)

theorem Calm.barred (move : s.Calm ms s') (h : s.Barred c) : s'.Barred c := by
  cases move with
  | loop move => exact move.barred h
  | takeHandle | say | receive => exact ⟨h.config, h.unfit, h.reads, h.holds⟩
  | wait later =>
    refine ⟨h.config, ?_, h.reads, h.holds⟩
    rw [Bool.eq_false_iff]
    intro fit
    have hbefore := ListenerConfig.fits_of_le fit later
    rw [h.unfit] at hbefore
    contradiction

theorem Touch.barred (touch : s.Touch what s') (h : s.Barred c) : s'.Barred c := by
  cases touch with
  | start | discard => exact ⟨h.config, h.unfit, nofun, nofun⟩
  | stop | say | drop => exact ⟨h.config, h.unfit, h.reads, h.holds⟩

theorem barred_play {now : Nat} (unfit : c.fits now = false) (script : List Attempt)
    (steps : List Step) : ((opened c script now).play steps).1.Barred c := by
  have hopened : (opened c script now).Barred c := by
    constructor
    · rfl
    · exact unfit
    · intro deadline
      simp [opened]
    · intro m
      simp [opened]
  exact play_invariant (P := fun s => s.Barred c) (fun _ _ _ h touch => touch.barred h)
    (fun _ _ _ h move => move.barred h) hopened steps

/-- At rest a loop that cannot read has ended, if it was ever started. -/
theorem Barred.ended (h : s.Barred c) (quiet : s.Quiet) :
    s.listener.loop = .unstarted ∨ s.listener.loop = .discarded ∨ s.listener.ended = true := by
  unfold Quiet at quiet
  cases loop : s.listener.loop with
  | unstarted => exact .inl rfl
  | discarded => exact .inr (.inl rfl)
  | exited | crashed => exact .inr (.inr (by simp [Listener.ended, loop]))
  | ready => simp [loop] at quiet
  | reading deadline => exact absurd loop (h.reads deadline)
  | holding m => exact absurd loop (h.holds m)

theorem Met.clear (h : s.Met c script) (loop : ∀ deadline, s.listener.loop ≠ .reading deadline) :
    s.ending = none := by
  have hplace := h.place
  split at hplace
  next deadline hl => exact absurd hl (loop deadline)
  next => exact hplace
  next => exact hplace.1

end Listener.Session

end HopTrace
