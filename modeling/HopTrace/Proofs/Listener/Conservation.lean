import HopTrace.Proofs.Listener.Quiet

/-!
# Nothing on the stream is lost

Each attempt that does not crash comes to one message. It is held until there
is room, published, and received; the three places together hold what the
script makes of the attempts so far, in order.
-/

namespace HopTrace.Listener

def held (l : Listener) : List Message :=
  match l.loop with
  | .holding m => [m]
  | _ => []

def crashes (l : Listener) : Nat :=
  match l.loop with
  | .crashed => 1
  | _ => 0

namespace Session

variable {c : ListenerConfig} {script : List Attempt} {received ms : List Message} {n : Nat}
  {s s' : Session}

/-- Where a session is in its script, after a number of attempts that have come to a message. -/
def Stands (c : ListenerConfig) (script : List Attempt) (n : Nat) (s : Session) : Prop :=
  match s.listener.loop with
  | .reading _ => ∃ time r, s.ending = some (time, r) ∧
      attempt c (leftover c script n) = (c.message? r, s.script)
  | .crashed => s.ending = none
  | _ => s.ending = none ∧ s.script = leftover c script n

structure Conserved (c : ListenerConfig) (script : List Attempt) (received : List Message)
    (n : Nat) (s : Session) : Prop where
  config : s.listener.config = c
  heard : s.listener.consumed = true
  room : s.listener.stream.length ≤ c.bound
  told : received ++ s.listener.stream ++ s.listener.held = outcomes c script n
  each : (outcomes c script n).length = n
  attempts : s.listener.attempts = n + s.ending.toList.length + s.listener.crashes
  stands : s.Stands c script n

/-- One more message is what one more attempt comes to. -/
theorem told_succ {told : List Message} {m : Message} (htold : told = outcomes c script n)
    (each : (outcomes c script n).length = n)
    (comes : (attempt c (leftover c script n)).1 = some m) :
    told ++ [m] = outcomes c script (n + 1) ∧ (outcomes c script (n + 1)).length = n + 1 := by
  rw [outcomes_succ_of_some comes, List.length_append, each, htold]
  exact ⟨rfl, rfl⟩

theorem Section.conserved (move : s.Section s') (h : Conserved c script received n s) :
    ∃ n', Conserved c script received n' s' := by
  obtain ⟨rfl, heard, room, told, each, attempts, stands⟩ := h
  cases move with
  | quit loop stopped =>
    simp only [Stands, held, crashes, loop] at told attempts stands
    exact ⟨n, rfl, heard, room, told, each, attempts, stands⟩
  | fall loop =>
    simp only [Stands, held, crashes, loop] at told attempts stands
    exact ⟨n, rfl, heard, room, told, each, congrArg (· + 1) attempts, stands.1⟩
  | @refuse cause rest loop goesOn fit refused =>
    simp only [Stands, held, crashes, loop, List.append_nil] at told attempts stands
    have hcomes : attempt s.listener.config (leftover s.listener.config script n) =
        (some (.error (.setDeadline cause)), rest) := by
      rw [← stands.2, refused]
      rfl
    obtain ⟨htold, heach⟩ := told_succ told each (congrArg Prod.fst hcomes)
    refine ⟨n + 1, rfl, heard, room, htold, heach, ?_, stands.1, ?_⟩
    · simp only [attempts, crashes]
      omega
    · exact (congrArg Prod.snd hcomes).symm
  | read loop goesOn fit accepted expires =>
    simp only [Stands, held, crashes, loop] at told attempts stands
    subst expires
    have hcomes := attempt_eq_of_accepted (c := s.listener.config) accepted s.now
    refine ⟨n, rfl, heard, room, told, each, ?_, _, _, rfl, ?_⟩
    · simp only [attempts, stands.1, crashes]
      rfl
    · rw [← stands.2]
      exact hcomes
  | crash loop ending due =>
    simp only [Stands, held, crashes, loop] at told attempts stands
    refine ⟨n, rfl, heard, room, told, each, ?_, rfl⟩
    simpa [ending, crashes] using attempts
  | @hold deadline time r m log loop ending due comes =>
    simp only [Stands, held, crashes, loop, List.append_nil] at told attempts stands
    -- The read that ends belongs to the first attempt that has not been told yet.
    obtain ⟨time', r', hending, hcomes⟩ := stands
    obtain rfl : r = r' := congrArg Prod.snd (Option.some.inj (ending.symm.trans hending))
    obtain ⟨htold, heach⟩ := told_succ told each ((congrArg Prod.fst hcomes).trans comes)
    refine ⟨n + 1, rfl, heard, room, htold, heach, ?_, rfl, ?_⟩
    · simpa [ending, crashes] using attempts
    · exact (congrArg Prod.snd hcomes).symm
  | @publish m loop heard room =>
    simp only [Stands, held, crashes, loop] at told attempts stands
    refine ⟨n, rfl, heard, ?_, ?_, each, attempts, stands⟩
    · rw [List.length_append]
      exact room
    · rw [← told]
      simp [held]
  | lose loop lost => simp [heard] at lost

theorem Move.conserved (move : s.Move ms s') (h : Conserved c script received n s) :
    ∃ n', Conserved c script (received ++ ms) n' s' := by
  cases move with
  | loop move =>
    rw [List.append_nil]
    exact move.conserved h
  | start fresh =>
    obtain ⟨config, heard, room, told, each, attempts, stands⟩ := h
    simp only [Stands, held, crashes, fresh] at told attempts stands
    rw [List.append_nil]
    exact ⟨n, config, heard, room, told, each, attempts, stands⟩
  | receive stream =>
    obtain ⟨config, heard, room, told, each, attempts, stands⟩ := h
    rw [stream] at room told
    refine ⟨n, config, heard, Nat.le_of_succ_le room, ?_, each, attempts, stands⟩
    rw [← told]
    simp [held]
  | stop | takeHandle | say | wait =>
    obtain ⟨config, heard, room, told, each, attempts, stands⟩ := h
    rw [List.append_nil]
    exact ⟨n, config, heard, room, told, each, attempts, stands⟩

def opened (c : ListenerConfig) (script : List Attempt) (now : Nat) : Session :=
  { listener := { config := c }, now, script }

theorem conserved_opened (c : ListenerConfig) (script : List Attempt) (now : Nat) :
    Conserved c script [] 0 (opened c script now) :=
  ⟨rfl, rfl, Nat.zero_le _, rfl, rfl, rfl, rfl, rfl⟩

theorem conserved_play {steps : List Step} (kept : .drop ∉ steps) (c : ListenerConfig)
    (script : List Attempt) (now : Nat) :
    ∃ n, Conserved c script (Session.received ((opened c script now).play steps).2) n
      ((opened c script now).play steps).1 := by
  refine Moves.invariant (P := fun received s => ∃ n, Conserved c script received n s) ?_ ?_
    (moves_play kept (opened c script now))
  · exact ⟨0, conserved_opened c script now⟩
  · rintro received s ms s' ⟨n, h⟩ move
    exact move.conserved h

theorem start_of_started {l : Listener} (started : l.loop ≠ .unstarted) :
    l.start = l.say ⟨.warn, "Listener already started", []⟩ := by
  unfold Listener.start
  split
  next hl => exact absurd hl started
  next => rfl

theorem step_start_of_started (quiet : s.Quiet) (heard : s.listener.consumed = true)
    (started : s.listener.loop ≠ .unstarted) :
    let log := [⟨.warn, "Listener already started", []⟩]
    s.step .start = ({ s with listener := { s.listener with log } }, .done, log) := by
  intro log
  have hquiet : Quiet { s with listener := { s.listener with log } } := quiet
  have hheard : ¬ (!s.listener.consumed) = true := by simp [heard]
  have hstart : Listener.start { s.listener with log := [] } = { s.listener with log } :=
    start_of_started started
  have hact : act { s with listener := { s.listener with log := [] } } .start =
      ({ s with listener := { s.listener with log } }, .done) := by
    simp only [act, if_neg hheard, hstart]
  simp only [step, hact, settle_of_quiet hquiet]

theorem Conserved.clear (h : Conserved c script received n s) :
    s.listener.held = [] ∨ s.ending = none := by
  have hstands := h.stands
  unfold Stands at hstands
  unfold held
  split at hstands
  next loop => exact .inl (by rw [loop])
  next => exact .inr hstands
  next => exact .inr hstands.1

theorem Conserved.full (h : Conserved c script received n s) (quiet : s.Quiet)
    (holds : s.listener.held ≠ []) : s.listener.stream.length = c.bound := by
  unfold held at holds
  unfold Quiet at quiet
  split at holds
  next m loop =>
    rw [loop] at quiet
    exact Nat.le_antisymm h.room (h.config ▸ quiet.2)
  next => exact absurd rfl holds

/-- On a listener that has not been dropped, the messages received, then those on the stream, then
the one held are what the attempts of the script come to, in order. -/
theorem stream_conserved (c : ListenerConfig) (script : List Attempt) (now : Nat)
    (steps : List Step) (kept : .drop ∉ steps) :
    let run := (opened c script now).play steps
    let s := run.1
    let told := Session.received run.2 ++ s.listener.stream ++ s.listener.held
    told = outcomes c script told.length ∧
      s.listener.attempts = (Session.received run.2).length + s.listener.stream.length +
        s.listener.held.length + s.ending.toList.length + s.listener.crashes ∧
      (s.listener.held = [] ∨ s.ending = none) ∧
      s.listener.stream.length ≤ max c.queueCapacity 1 ∧
      (s.listener.held ≠ [] → s.listener.stream.length = max c.queueCapacity 1) ∧
      (s.listener.loop ≠ .unstarted →
        let log := [⟨.warn, "Listener already started", []⟩]
        s.step .start = ({ s with listener := { s.listener with log } }, .done, log)) := by
  intro run s told
  obtain ⟨n, h⟩ := conserved_play kept c script now
  have hfresh : (opened c script now).Quiet := trivial
  have hquiet : s.Quiet := quiet_play hfresh steps
  have htold : told = outcomes c script n := h.told
  have hlength : told.length = n := by rw [htold, h.each]
  have hsum : told.length = (Session.received run.2).length + s.listener.stream.length +
      s.listener.held.length := by simp only [told, List.length_append]
  refine ⟨?_, ?_, h.clear, h.room, h.full hquiet, step_start_of_started hquiet h.heard⟩
  · rw [hlength, htold]
  · rw [h.attempts, ← hlength, hsum]

def mixed : List Attempt :=
  [.read 5 (.received [1, 2] 2 ⟨.v4 ⟨10, 0, 0, 2⟩, 7, 0⟩), .refuse "busy",
    .read 0 (.failed .readTimeout)]

def crowding : List Step := [.start, .advance 20, .start, .tryRecv, .stop, .advance 20]

def crowded : Session × List Answer := (opened { queueCapacity := 0 } mixed 0).play crowding

theorem stream_conserved_crowded :
    .drop ∉ crowding ∧ crowded.1.listener.held.length = 1 ∧ crowded.1.listener.stream.length = 1 ∧
      Session.received crowded.2 ++ crowded.1.listener.stream ++ crowded.1.listener.held =
        outcomes { queueCapacity := 0 } mixed 3 := by
  have kept : .drop ∉ crowding := by simp [crowding]
  have hheld : crowded.1.listener.held.length = 1 := by decide
  have hholds : crowded.1.listener.held ≠ [] := fun h => by simp [h] at hheld
  have hlength : (Session.received crowded.2 ++ crowded.1.listener.stream ++
      crowded.1.listener.held).length = 3 := by decide
  obtain ⟨htold, -, -, -, hfull, -⟩ :=
    stream_conserved { queueCapacity := 0 } mixed 0 crowding kept
  have houtcomes := congrArg (outcomes { queueCapacity := 0 } mixed) hlength
  exact ⟨kept, hheld, hfull hholds, htold.trans houtcomes⟩

end Session

end HopTrace.Listener
