import HopTrace.Proofs.Listener.Receiver

/-!
# Shutting a listener down

A started listener that is asked to stop is left to whoever keeps receiving:
each message still undelivered arrives, in order, and then the stream is
closed for good. The loop ends unasked if the connection crashes, and if an
attempt wants a buffer or a deadline that there is not; no failure ends it.
-/

namespace HopTrace.Listener.Session

variable {c : ListenerConfig} {script : List Attempt} {s : Session} {steps : List Step}

/-- The answers to a receiver that goes on, each beside its patience: what is undelivered, in
order, and then that the stream is closed. The patience lost on waiting is within a budget. -/
inductive Answered : Nat → List Message → List (Nat × Answer) → Prop
  | none {budget ms} : Answered budget ms []
  | wait {budget patience ms answers} (within : patience ≤ budget)
      (rest : Answered (budget - patience) ms answers) :
      Answered budget ms ((patience, .pending) :: answers)
  | message {budget patience m ms answers} (rest : Answered budget ms answers) :
      Answered budget (m :: ms) ((patience, .message m) :: answers)
  | closed {budget patience answers} (ended : ∀ next ∈ answers, next.2 = .closed) :
      Answered budget [] ((patience, .closed) :: answers)

theorem Answered.mono {budget more : Nat} {ms : List Message} {answers : List (Nat × Answer)}
    (h : Answered budget ms answers) (le : budget ≤ more) : Answered more ms answers := by
  induction h generalizing more with
  | none => exact .none
  | wait within rest ih =>
    exact .wait (Nat.le_trans within le) (ih (Nat.sub_le_sub_right le _))
  | message rest ih => exact .message (ih le)
  | closed ended => exact .closed ended

theorem received_of_closed {answers : List Answer} (ended : ∀ answer ∈ answers, answer = .closed) :
    received answers = [] := by
  unfold received
  rw [List.flatMap_eq_nil_iff]
  intro answer hanswer
  rw [ended answer hanswer]
  rfl

/-- A receiver that waits at all, and often enough, gets everything and sees the end. -/
theorem Answered.complete {budget : Nat} {ms : List Message} {answers : List (Nat × Answer)}
    (h : Answered budget ms answers) (patient : ∀ next ∈ answers, 0 < next.1)
    (enough : budget + ms.length < answers.length) :
    received (answers.map Prod.snd) = ms ∧ .closed ∈ answers.map Prod.snd := by
  -- Each wait takes from the budget and each message from those that are left.
  induction h with
  | none => exact absurd enough (Nat.not_lt_zero _)
  | @wait budget patience ms answers within rest ih =>
    obtain ⟨hpatience, hrest⟩ := List.forall_mem_cons.mp patient
    have hfewer : budget - patience + ms.length < answers.length := by
      simp only [List.length_cons] at enough hpatience
      omega
    obtain ⟨hms, hclosed⟩ := ih hrest hfewer
    exact ⟨hms, List.mem_cons_of_mem _ hclosed⟩
  | @message budget patience m ms answers rest ih =>
    obtain ⟨-, hrest⟩ := List.forall_mem_cons.mp patient
    have hfewer : budget + ms.length < answers.length := by
      simp only [List.length_cons] at enough
      omega
    obtain ⟨hms, hclosed⟩ := ih hrest hfewer
    exact ⟨congrArg (m :: ·) hms, List.mem_cons_of_mem _ hclosed⟩
  | @closed budget patience answers ended =>
    have hended : ∀ answer ∈ .closed :: answers.map Prod.snd, answer = .closed :=
      List.forall_mem_cons.mpr ⟨rfl, List.forall_mem_map.mpr ended⟩
    exact ⟨received_of_closed hended, List.mem_cons_self⟩

theorem Closing.answered (h : s.Closing c script) (patiences : List Nat) :
    Answered s.remaining s.undelivered (patiences.zip (s.play (patiences.map .recv)).2) := by
  induction patiences generalizing s with
  | nil => exact .none
  | cons patience rest ih =>
    have hnext := h.step_recv patience
    have hrest := ih hnext
    have hmessages := h.undelivered_recv patience
    have hplay : (s.play ((patience :: rest).map .recv)).2 = (s.step (.recv patience)).2.1 ::
        ((s.step (.recv patience)).1.play (rest.map .recv)).2 := rfl
    rw [hplay, List.zip_cons_cons, hmessages]
    obtain ⟨hle, ⟨m, hanswer⟩ | hanswer | ⟨hanswer, hwithin, hless⟩⟩ := h.recv patience
    · rw [hanswer]
      exact .message (hrest.mono hle)
    · have hclosed := closed_of_step hanswer
      have hended := recvs_of_closed hnext.heard hclosed rest
      rw [hanswer, hnext.met.undelivered_of_closed hclosed]
      exact .closed fun next hmem => hended next.2 (List.of_mem_zip hmem).2
    · rw [hanswer]
      exact .wait hwithin (hrest.mono hless)

theorem length_play (s : Session) (steps : List Step) : (s.play steps).2.length = steps.length := by
  induction steps generalizing s with
  | nil => rfl
  | cons what rest ih => exact congrArg Nat.succ (ih (s.step what).1)

theorem Closing.complete (h : s.Closing c script) {patiences : List Nat}
    (patient : ∀ patience ∈ patiences, 0 < patience)
    (enough : s.remaining + s.undelivered.length < patiences.length) :
    let answers := (s.play (patiences.map .recv)).2
    received answers = s.undelivered ∧ .closed ∈ answers := by
  intro answers
  have hlength : answers.length = patiences.length := by
    rw [length_play, List.length_map]
  have hanswers : (patiences.zip answers).map Prod.snd = answers :=
    List.map_snd_zip (Nat.le_of_eq hlength)
  have hall := (h.answered patiences).complete
    (fun next hmem => patient next.1 (List.of_mem_zip hmem).1)
    (by rw [List.length_zip, hlength, Nat.min_self]; exact enough)
  rwa [hanswers] at hall

/-! ## The whole run -/

theorem closing_play (c : ListenerConfig) (script : List Attempt) (now : Nat)
    (stops : steps.any Step.stops = true) (started : .start ∈ steps) (kept : .drop ∉ steps) :
    ((opened c script now).play steps).1.Closing c script := by
  have hguarded := guarded_opened c script now
  have hquiet : (opened c script now).Quiet := trivial
  refine ⟨quiet_play hquiet steps, met_play (met_opened c script now) steps, ?_, ?_, ?_, ?_⟩
  · rw [stopRequested_play hguarded, stops, Bool.or_true]
  · exact (consumed_play _ steps).mpr ⟨rfl, kept⟩
  · intro loop
    exact ((unstarted_play hguarded steps).mp loop).2.1 started
  · intro loop
    obtain loop | ⟨-, hdropped⟩ := (discarded_play hguarded steps).mp loop
    · contradiction
    · exact kept (drop_mem_of_droppedUnstarted hdropped)

/-- The loop ends only when asked to, by a crash of the connection, or at an attempt that gets no
buffer or no deadline, as its first one does if none fits from the outset; the connection goes with
it. Once asked, it begins no attempt and lets at most what it holds or reads enter the stream, and
whoever keeps receiving gets all that is undelivered before the stream is closed. -/
theorem shuts_down_in_order (c : ListenerConfig) (script : List Attempt) (now : Nat)
    (steps : List Step) :
    let s := ((opened c script now).play steps).1
    (s.listener.loop = .exited → ∃ what ∈ steps, what.stops = true) ∧
      (s.listener.loop = .crashed → ∃ n, s.listener.attempts = n + 1 ∧
        ((∃ after rest, leftover c script n = .read after .crashed :: rest ∧
          after ≤ c.readTimeout.nanos) ∨ ∃ time ≤ s.now, c.fits time = false)) ∧
      (c.fits now = false →
        s.listener.loop = .unstarted ∨ s.listener.loop = .discarded ∨ s.listener.ended = true) ∧
      (s.listener.holdsConnection = false ↔
        s.listener.ended = true ∨ droppedUnstarted steps = true) ∧
      (∀ what, (s.step what).2.1 = .closed →
        (s.step what).1.listener.ended = true ∧ (s.step what).1.undelivered = []) ∧
      ∀ what more, what.stops = true →
        let all := steps ++ what :: more
        let later := s.play (what :: more)
        later.1.listener.attempts = s.listener.attempts ∧
          (.drop ∈ all → later.1.listener.stream = []) ∧
          (.drop ∉ all → s.coming.length ≤ 1 ∧ s.Flows (received later.2) later.1) ∧
          (.drop ∉ all → .start ∈ all → ∀ patiences : List Nat,
            let answers := (later.1.play (patiences.map .recv)).2
            Answered later.1.remaining later.1.undelivered (patiences.zip answers) ∧
              ((∀ patience ∈ patiences, 0 < patience) →
                later.1.remaining + later.1.undelivered.length < patiences.length →
                received answers = later.1.undelivered ∧ .closed ∈ answers)) := by
  intro s
  have hopened := guarded_opened c script now
  have hguarded : s.Guarded := guarded_play hopened steps
  have hmet : s.Met c script := met_play (met_opened c script now) steps
  have hfresh : (opened c script now).Quiet := trivial
  have hhoused : (opened c script now).listener.Housed := rfl
  refine ⟨?_, hmet.crash, ?_, ?_, ?_, ?_⟩
  · intro loop
    have hstopped := hguarded.exits loop
    rw [stopRequested_play hopened] at hstopped
    exact List.any_eq_true.mp hstopped
  · exact fun unfit => (barred_play unfit script steps).ended (quiet_play hfresh steps)
  · rw [(housed_play hhoused steps).holdsConnection_iff]
    refine or_congr_right ?_
    rw [discarded_play hopened]
    simp [opened]
  · intro what hclosed
    have hlast := closed_of_step hclosed
    have hmet' : (s.step what).1.Met c script := met_play hmet [what]
    exact ⟨((closed_iff _).mp hlast).2, hmet'.undelivered_of_closed hlast⟩
  intro what more stops all later
  have hlater : later.1 = ((opened c script now).play all).1 :=
    (play_append _ steps (what :: more)).symm
  have hconsumed := consumed_play (opened c script now) all
  rw [← hlater] at hconsumed
  refine ⟨attempts_play hguarded (.inr stops) more, ?_, ?_, ?_⟩
  · intro hdrop
    have hlost : later.1.listener.consumed = false :=
      eq_false_of_ne_true fun heard => (hconsumed.mp heard).2 hdrop
    exact (guarded_play hguarded (what :: more)).empties hlost
  · intro kept
    obtain ⟨hbefore, hafter⟩ := not_or.mp (mt List.mem_append.mpr kept)
    have hheard : s.listener.consumed = true := (consumed_play _ steps).mpr ⟨rfl, hbefore⟩
    exact ⟨hmet.coming_length_le, flows_play hguarded (.inr stops) hheard hafter⟩
  · intro kept started patiences answers
    have hstops : all.any Step.stops = true := by simp [all, stops]
    have hclosing := closing_play c script now hstops started kept
    rw [← hlater] at hclosing
    exact ⟨hclosing.answered patiences, hclosing.complete⟩

def filling : List Step := [.start, .advance 20]

def blocked : Session := ((opened { queueCapacity := 0 } mixed 0).play filling).1

def stalled : Session := (blocked.play [.stop, .advance 20]).1

/-- Nobody asks the loop to stop, but there is no such buffer. -/
def oversized : Session :=
  ((opened { bufferSize := ListenerConfig.bufferLimit } mixed 0).play filling).1

theorem shuts_down_in_order_blocked :
    (Step.stops .stop = true ∧ .drop ∉ filling ++ [.stop, .advance 20] ∧
      .start ∈ filling ++ [.stop, .advance 20] ∧
      blocked.coming.length = 1 ∧ stalled.listener.ended = false ∧
      stalled.listener.attempts = blocked.listener.attempts ∧ stalled.undelivered.length = 2 ∧
      let answers := (stalled.play ([1, 1, 1].map .recv)).2
      received answers = stalled.undelivered ∧ .closed ∈ answers) ∧
    (∀ what ∈ filling, what.stops = false) ∧ oversized.listener.ended = true ∧
      oversized.listener.holdsConnection = false := by
  have hstops : Step.stops .stop = true := rfl
  have hkept : .drop ∉ filling ++ [.stop, .advance 20] := by simp [filling]
  have hstarted : .start ∈ filling ++ [.stop, .advance 20] := by simp [filling]
  have hcoming : blocked.coming.length = 1 := by decide
  have hended : stalled.listener.ended = false := by decide
  have hlength : stalled.undelivered.length = 2 := by decide
  have henough : stalled.remaining + stalled.undelivered.length < [1, 1, 1].length := by decide
  obtain ⟨-, -, -, -, -, hafter⟩ :=
    shuts_down_in_order { queueCapacity := 0 } mixed 0 filling
  obtain ⟨hattempts, -, -, hreceives⟩ := hafter .stop [.advance 20] hstops
  obtain ⟨-, hall⟩ := hreceives hkept hstarted [1, 1, 1]
  obtain ⟨-, -, hbarred, hreleased, -⟩ :=
    shuts_down_in_order { bufferSize := ListenerConfig.bufferLimit } mixed 0 filling
  have hover : oversized.listener.ended = true := by
    rcases hbarred (by decide) with hfresh | hgone | hover
    · cases hfresh
    · cases hgone
    · exact hover
  exact ⟨⟨hstops, hkept, hstarted, hcoming, hended, hattempts, hlength, hall (by simp) henough⟩,
    by simp [filling, Step.stops], hover, hreleased.mpr (.inl hover)⟩

end HopTrace.Listener.Session
