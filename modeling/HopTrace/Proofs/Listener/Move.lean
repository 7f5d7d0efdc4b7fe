import HopTrace.Proofs.Listener.Script

/-!
# What a step of a session can do

A session goes on by sections of its receive loop, and between these by what
the owner of the listener does and by time that passes. The relations below
list these moves, each with its condition, as long as the listener is not
dropped. What is written to the log is left open.
-/

namespace HopTrace.Listener.Session

inductive Section (s : Session) : Session → Prop
  | quit {log} (loop : s.listener.loop = .ready) (stopped : s.listener.stopRequested = true) :
      Section s { s with
        listener := { s.listener with loop := .exited, holder := .nobody, log } }
  | fall (loop : s.listener.loop = .ready) (goesOn : s.listener.stopRequested = false)
      (unfit : s.listener.config.fits s.now = false) :
      Section s { s with
        listener := { s.listener with
          attempts := s.listener.attempts + 1
          loop := .crashed
          holder := .nobody } }
  | refuse {cause rest} (loop : s.listener.loop = .ready)
      (goesOn : s.listener.stopRequested = false) (fit : s.listener.config.fits s.now = true)
      (script : s.script = .refuse cause :: rest) :
      Section s { s with
        listener := { s.listener with
          attempts := s.listener.attempts + 1
          loop := .holding (.error (.setDeadline cause)) }
        script := rest }
  | read {deadline} (loop : s.listener.loop = .ready)
      (goesOn : s.listener.stopRequested = false) (fit : s.listener.config.fits s.now = true)
      (accepted : ∀ cause rest, s.script ≠ .refuse cause :: rest)
      (expires : deadline = s.now + s.listener.config.readTimeout.nanos) :
      Section s { s with
        listener := { s.listener with
          attempts := s.listener.attempts + 1
          loop := .reading deadline }
        script := (meet s.now deadline s.script).2
        ending := some (meet s.now deadline s.script).1 }
  | crash {deadline time} (loop : s.listener.loop = .reading deadline)
      (ending : s.ending = some (time, .crashed)) (due : time ≤ s.now) :
      Section s { s with
        listener := { s.listener with loop := .crashed, holder := .nobody }
        ending := none }
  | hold {deadline time r m log} (loop : s.listener.loop = .reading deadline)
      (ending : s.ending = some (time, r)) (due : time ≤ s.now)
      (told : s.listener.config.message? r = some m) :
      Section s { s with
        listener := { s.listener with loop := .holding m, log }
        ending := none }
  | publish {m} (loop : s.listener.loop = .holding m) (heard : s.listener.consumed = true)
      (room : s.listener.stream.length < s.listener.config.bound) :
      Section s { s with
        listener := { s.listener with stream := s.listener.stream ++ [m], loop := .ready } }
  | lose {m log} (loop : s.listener.loop = .holding m) (lost : s.listener.consumed = false) :
      Section s { s with
        listener := { s.listener with loop := .exited, holder := .nobody, log } }

/-- A move of a session whose listener is kept, and the messages received by it. -/
inductive Move (s : Session) : List Message → Session → Prop
  | loop {s'} (move : s.Section s') : Move s [] s'
  | start {log} (fresh : s.listener.loop = .unstarted) :
      Move s [] { s with
        listener := { s.listener with loop := .ready, holder := .loop, joinable := true, log } }
  | stop : Move s [] { s with listener := { s.listener with stopRequested := true } }
  | takeHandle : Move s [] { s with listener := { s.listener with joinable := false } }
  | say {log} : Move s [] { s with listener := { s.listener with log } }
  | receive {m rest} (stream : s.listener.stream = m :: rest) :
      Move s [m] { s with listener := { s.listener with stream := rest } }
  | wait {now} (later : s.now ≤ now) : Move s [] { s with now }

inductive Moves (s : Session) : List Message → Session → Prop
  | none : Moves s [] s
  | more {received ms s' s''} (first : Moves s received s') (last : s'.Move ms s'') :
      Moves s (received ++ ms) s''

/-- A move by which the loop is neither started nor asked to stop. -/
inductive Calm (s : Session) : List Message → Session → Prop
  | loop {s'} (move : s.Section s') : Calm s [] s'
  | takeHandle : Calm s [] { s with listener := { s.listener with joinable := false } }
  | say {log} : Calm s [] { s with listener := { s.listener with log } }
  | receive {m rest} (stream : s.listener.stream = m :: rest) :
      Calm s [m] { s with listener := { s.listener with stream := rest } }
  | wait {now} (later : s.now ≤ now) : Calm s [] { s with now }

inductive Calms (s : Session) : List Message → Session → Prop
  | none : Calms s [] s
  | more {received ms s' s''} (first : Calms s received s') (last : s'.Calm ms s'') :
      Calms s (received ++ ms) s''

variable {s s' s'' : Session} {ms ms' : List Message}

theorem Move.moves (move : s.Move ms s') : s.Moves ms s' := .more .none move

theorem Moves.trans (first : s.Moves ms s') (last : s'.Moves ms' s'') :
    s.Moves (ms ++ ms') s'' := by
  induction last with
  | none =>
    rw [List.append_nil]
    exact first
  | more _ move ih =>
    rw [← List.append_assoc]
    exact .more ih move

/-- Whatever holds at first and is kept by each move holds after all of them. -/
theorem Moves.invariant {P : List Message → Session → Prop} (zero : P [] s)
    (kept : ∀ received s ms s', P received s → s.Move ms s' → P (received ++ ms) s')
    (moves : s.Moves ms s') : P ms s' := by
  induction moves with
  | none => exact zero
  | more _ move ih => exact kept _ _ _ _ ih move

theorem Calm.move (move : s.Calm ms s') : s.Move ms s' := by
  cases move with
  | loop move => exact .loop move
  | takeHandle => exact .takeHandle
  | say => exact .say
  | receive stream => exact .receive stream
  | wait later => exact .wait later

theorem Calm.calms (move : s.Calm ms s') : s.Calms ms s' := .more .none move

theorem Calms.invariant {P : List Message → Session → Prop} (zero : P [] s)
    (kept : ∀ received s ms s', P received s → s.Calm ms s' → P (received ++ ms) s')
    (moves : s.Calms ms s') : P ms s' := by
  induction moves with
  | none => exact zero
  | more _ move ih => exact kept _ _ _ _ ih move

theorem Calms.moves (moves : s.Calms ms s') : s.Moves ms s' :=
  moves.invariant (P := s.Moves) .none fun _ _ _ _ first move => .more first move.move

theorem Calms.trans (first : s.Calms ms s') (last : s'.Calms ms' s'') :
    s.Calms (ms ++ ms') s'' := by
  refine last.invariant (P := fun received s'' => s.Calms (ms ++ received) s'') ?_ ?_
  · rw [List.append_nil]
    exact first
  · intro received s ms s' moves move
    rw [← List.append_assoc]
    exact .more moves move

/-! ## The receive loop -/

theorem section_of_ready (loop : s.listener.loop = .ready) (h : s.loopStep? = some s') :
    s.Section s' := by
  simp only [loopStep?, loop] at h
  split at h
  next cause rest _ hscript =>
    obtain ⟨l, hl, rfl⟩ := Option.map_eq_some_iff.mp h
    simp only [refuse?, loop] at hl
    split at hl
    next htries =>
      obtain rfl := Option.some.inj hl
      obtain ⟨hgoesOn, hfit⟩ := tries_iff.mp htries
      exact .refuse loop hgoesOn hfit hscript
    next => contradiction
  next haccepted =>
    obtain ⟨l, hl, rfl⟩ := Option.map_eq_some_iff.mp h
    simp only [begin?, loop] at hl
    split at hl
    next hstop =>
      obtain rfl := Option.some.inj hl
      exact .quit loop hstop
    next hstop =>
      have hgoesOn : s.listener.stopRequested = false := by simpa using hstop
      split at hl
      next hfit =>
        obtain rfl := Option.some.inj hl
        exact .read loop hgoesOn hfit
          (fun cause rest => haccepted cause rest (tries_iff.mpr ⟨hgoesOn, hfit⟩)) rfl
      next hunfit =>
        obtain rfl := Option.some.inj hl
        exact .fall loop hgoesOn (by simpa using hunfit)

theorem section_of_reading {deadline : Nat} (loop : s.listener.loop = .reading deadline)
    (h : s.loopStep? = some s') : s.Section s' := by
  simp only [loopStep?, loop] at h
  split at h
  next time r hending =>
    split at h
    next hdue =>
      obtain ⟨l, hl, rfl⟩ := Option.map_eq_some_iff.mp h
      simp only [finish?, loop] at hl
      cases r with
      | crashed =>
        obtain rfl := Option.some.inj hl
        exact .crash loop hending hdue
      | failed e =>
        obtain rfl := Option.some.inj hl
        exact .hold loop hending hdue rfl
      | received bytes reported peer =>
        dsimp only at hl
        split at hl
        all_goals
          obtain rfl := Option.some.inj hl
          exact .hold loop hending hdue rfl
    next => contradiction
  next => contradiction

theorem section_of_publish {l : Listener} (h : s.listener.publish? = some l) :
    s.Section { s with listener := l } := by
  unfold publish? at h
  split at h
  next m hl =>
    split at h
    next hc =>
      obtain rfl := Option.some.inj h
      exact .lose hl (by simpa using hc)
    next hc =>
      split at h
      next hr =>
        obtain rfl := Option.some.inj h
        exact .publish hl (by simpa using hc) hr
      next => contradiction
  next => contradiction

theorem section_of_loopStep (h : s.loopStep? = some s') : s.Section s' := by
  cases hl : s.listener.loop with
  | ready => exact section_of_ready hl h
  | reading deadline => exact section_of_reading hl h
  | _ =>
    simp only [loopStep?, hl] at h
    obtain ⟨l, hp, rfl⟩ := Option.map_eq_some_iff.mp h
    exact section_of_publish hp

/-- Whatever is kept by each section that runs holds when the loop has run as far as it can. -/
theorem runLoop_of_loopStep {P : Session → Prop}
    (kept : ∀ s s', P s → s.loopStep? = some s' → P s') {s : Session} (h : P s) (n : Nat) :
    P (runLoop n s) := by
  induction n generalizing s with
  | zero => exact h
  | succ n ih =>
    unfold runLoop
    split
    next s' hs' => exact ih (kept s s' h hs')
    next => exact h

theorem settle_of_loopStep {P : Session → Prop}
    (kept : ∀ s s', P s → s.loopStep? = some s' → P s') {s : Session} (h : P s) : P s.settle :=
  runLoop_of_loopStep kept h _

theorem settle_invariant {P : Session → Prop} (kept : ∀ s s', P s → s.Section s' → P s')
    {s : Session} (h : P s) : P s.settle :=
  settle_of_loopStep (fun s s' h hs => kept s s' h (section_of_loopStep hs)) h

theorem calms_settle (s : Session) : s.Calms [] s.settle :=
  settle_invariant (P := fun s' => s.Calms [] s') (fun _ _ moves move => moves.more (.loop move))
    .none

/-! ## Waiting -/

/-- Whatever sections of the loop and the clock keep holds after a wait. -/
theorem passUntil_of_loopStep {P : Session → Prop}
    (kept : ∀ s s', P s → s.loopStep? = some s' → P s') (pass : ∀ s time, P s → P (s.pass time))
    (deadline : Nat) (reached : Listener → Bool) (n : Nat) {s : Session} (h : P s) :
    P (passUntil deadline reached n s) := by
  induction n generalizing s with
  | zero => exact h
  | succ n ih =>
    unfold passUntil
    split
    next => exact h
    next =>
      split
      next time _ _ =>
        split
        next => exact ih (settle_of_loopStep kept (pass s time h))
        next => exact h
      next => exact h

theorem await_of_loopStep {P : Session → Prop}
    (kept : ∀ s s', P s → s.loopStep? = some s' → P s') (pass : ∀ s time, P s → P (s.pass time))
    (patience : Nat) (reached : Listener → Bool) {s : Session} (h : P s) :
    P (s.await patience reached).1 := by
  have hpass := passUntil_of_loopStep kept pass (s.now + patience) reached
    (s.listener.config.bound + 3) h
  simp only [await]
  split
  next => exact hpass
  next => exact pass _ _ hpass

theorem await_invariant {P : Session → Prop} (kept : ∀ s s', P s → s.Section s' → P s')
    (pass : ∀ s time, P s → P (s.pass time)) (patience : Nat) (reached : Listener → Bool)
    {s : Session} (h : P s) : P (s.await patience reached).1 :=
  await_of_loopStep (fun s s' h hs => kept s s' h (section_of_loopStep hs)) pass patience reached h

theorem calms_await (s : Session) (patience : Nat) (reached : Listener → Bool) :
    s.Calms [] (s.await patience reached).1 :=
  await_invariant (P := fun s' => s.Calms [] s') (fun _ _ moves move => moves.more (.loop move))
    (fun _ _ moves => moves.more (.wait (Nat.le_max_left ..))) patience reached .none

/-! ## Steps -/

def Answer.messages : Answer → List Message
  | .message m => [m]
  | _ => []

def Step.touch (what : Step) (l : Listener) : Listener :=
  match what with
  | .start => if l.consumed then l.start else l
  | .stop => if l.consumed then l.stop else l
  | .handleStop => l.stop
  | .drop => l.drop
  | _ => l

def touched (s : Session) (what : Step) : Session :=
  { s with listener := what.touch { s.listener with log := [] } }

def Step.stops : Step → Bool
  | .stop => true
  | .handleStop => true
  | .drop => true
  | _ => false

inductive Touch (s : Session) : Step → Session → Prop
  | start {log} (heard : s.listener.consumed = true) (fresh : s.listener.loop = .unstarted) :
      Touch s .start { s with
        listener := { s.listener with loop := .ready, holder := .loop, joinable := true, log } }
  | stop {what log} (stops : what.stops = true) (kept : what ≠ .drop) :
      Touch s what { s with listener := { s.listener with stopRequested := true, log } }
  | say {what log} (kept : what ≠ .drop)
      (lost : what.stops = true → s.listener.consumed = false)
      (started : what = .start → s.listener.consumed = true → s.listener.loop ≠ .unstarted) :
      Touch s what { s with listener := { s.listener with log } }
  | discard {log} (fresh : s.listener.loop = .unstarted) :
      Touch s .drop { s with
        listener := { s.listener with
          stopRequested := true, consumed := false, joinable := false, stream := []
          loop := .discarded, holder := s.listener.holder.afterDrop, log } }
  | drop {log} (started : s.listener.loop ≠ .unstarted) :
      Touch s .drop { s with
        listener := { s.listener with
          stopRequested := true, consumed := false, joinable := false, stream := []
          holder := s.listener.holder.afterDrop, log } }

theorem calms_take (s : Session) {otherwise : Answer} (none : otherwise.messages = []) :
    s.Calms (s.take otherwise).2.messages (s.take otherwise).1 := by
  unfold take receive?
  cases hs : s.listener.stream with
  | nil =>
    by_cases hc : s.listener.closed
    · simp only [hc, if_true]
      exact .none
    · simp only [hc, Bool.false_eq_true, if_false, none]
      exact .none
  | cons m rest => exact (Calm.receive hs).calms

theorem calms_reportEnd (s : Session) :
    s.Calms [] { s with listener := s.listener.reportEnd } := by
  unfold reportEnd
  split
  next => exact Calm.say.calms
  next => exact .none

theorem calms_join (s : Session) (patience : Nat) :
    s.Calms (s.act (.join patience)).2.messages (s.act (.join patience)).1 := by
  simp only [act]
  split
  next => exact .none
  next =>
    split
    next =>
      have htaken : s.Calm [] { s with listener := s.listener.takeHandle } := .takeHandle
      have hawaited := htaken.calms.trans (calms_await _ patience (·.ended))
      split
      next => exact hawaited.trans (calms_reportEnd _)
      next => exact hawaited
    next => exact .none

/-- After what a step does at once, it goes on by calm moves and receives what it answers. -/
theorem calms_act (what : Step) (s : Session) :
    ({ s with listener := what.touch s.listener } : Session).Calms
      (s.act what).2.messages (s.act what).1 := by
  cases what with
  | advance time => exact calms_await ..
  | handleStop => exact .none
  | drop => exact .none
  | join patience => exact calms_join s patience
  | start =>
    simp only [act, Step.touch]
    cases s.listener.consumed <;> exact .none
  | stop =>
    simp only [act, Step.touch]
    cases s.listener.consumed <;> exact .none
  | recv patience =>
    simp only [act]
    split
    next => exact .none
    next => exact (calms_await ..).trans (calms_take _ rfl)
  | tryRecv =>
    simp only [act]
    split
    next => exact .none
    next => exact calms_take s rfl

theorem calms_step (what : Step) (s : Session) :
    (s.touched what).Calms (s.step what).2.1.messages (s.step what).1 := by
  have hact := calms_act what { s with listener := { s.listener with log := [] } }
  have hall := hact.trans (calms_settle _)
  rw [List.append_nil] at hall
  exact hall

theorem touch_start (s : Session) : s.Touch .start (s.touched .start) := by
  by_cases heard : s.listener.consumed = true
  · rw [touched, Step.touch, if_pos heard, Listener.start]
    split
    next fresh => exact .start heard fresh
    next started => exact .say nofun nofun fun _ _ => started
  · rw [touched, Step.touch, if_neg heard]
    exact .say nofun nofun fun _ h => absurd h heard

theorem touch_stop (s : Session) : s.Touch .stop (s.touched .stop) := by
  by_cases heard : s.listener.consumed = true
  · rw [touched, Step.touch, if_pos heard]
    exact .stop rfl nofun
  · rw [touched, Step.touch, if_neg heard]
    exact .say nofun (fun _ => eq_false_of_ne_true heard) nofun

theorem touch_drop (s : Session) : s.Touch .drop (s.touched .drop) := by
  simp only [touched, Step.touch, Listener.drop]
  split
  next fresh => exact .discard fresh
  next started => exact .drop started

theorem touch_touched (s : Session) (what : Step) : s.Touch what (s.touched what) := by
  cases what with
  | start => exact touch_start s
  | stop => exact touch_stop s
  | handleStop => exact .stop rfl nofun
  | drop => exact touch_drop s
  | advance | recv | tryRecv | join =>
    exact .say nofun nofun nofun

theorem Touch.moves {what : Step} (touch : s.Touch what s') (kept : what ≠ .drop) :
    s.Moves [] s' := by
  cases touch with
  | start heard fresh => exact (Move.start fresh).moves
  | stop => exact Move.stop.moves.trans Move.say.moves
  | say => exact Move.say.moves
  | discard => contradiction
  | drop => contradiction

/-- A step that does not drop the listener is made of moves, and receives what it answers. -/
theorem moves_step {what : Step} (kept : what ≠ .drop) (s : Session) :
    s.Moves (s.step what).2.1.messages (s.step what).1 :=
  ((touch_touched s what).moves kept).trans (calms_step what s).moves

/-! ## Runs -/

def play (s : Session) : List Step → Session × List Answer
  | [] => (s, [])
  | what :: rest =>
    let (s, answer, _) := s.step what
    let (s, answers) := s.play rest
    (s, answer :: answers)

theorem play_append (s : Session) (steps more : List Step) :
    (s.play (steps ++ more)).1 = ((s.play steps).1.play more).1 := by
  induction steps generalizing s with
  | nil => rfl
  | cons what rest ih => exact ih (s.step what).1

/-- Whatever a step's touch and calm moves keep holds after all steps of a run. -/
theorem play_invariant {P : Session → Prop}
    (touch : ∀ s what s', P s → s.Touch what s' → P s')
    (calm : ∀ s ms s', P s → s.Calm ms s' → P s') (h : P s) (steps : List Step) :
    P (s.play steps).1 := by
  induction steps generalizing s with
  | nil => exact h
  | cons what rest ih =>
    have htouched : P (s.touched what) := touch s what _ h (touch_touched s what)
    have hstep : P (s.step what).1 :=
      (calms_step what s).invariant (P := fun _ s' => P s') htouched
        fun _ s ms s' hs move => calm s ms s' hs move
    exact ih hstep

def received (answers : List Answer) : List Message := answers.flatMap (·.messages)

theorem moves_play {steps : List Step} (kept : .drop ∉ steps) (s : Session) :
    s.Moves (received (s.play steps).2) (s.play steps).1 := by
  induction steps generalizing s with
  | nil => exact .none
  | cons what rest ih =>
    have hwhat : what ≠ .drop := fun h => kept (h ▸ List.mem_cons_self)
    have hrest : .drop ∉ rest := fun h => kept (List.mem_cons_of_mem _ h)
    exact (moves_step hwhat s).trans (ih hrest _)

end HopTrace.Listener.Session
