import HopTrace.Proofs.Listener.Receiver

/-!
# Who still knows whether the loop has ended

The handle of a started loop tells whether the loop has ended. A join takes the
handle along, and one that is given up early loses it. From then on a listener
counts as finished and is joined at once, whatever its loop does; as long as no
join is given up, both tell the truth.
-/

namespace HopTrace.Listener.Session

variable {c : ListenerConfig} {script : List Attempt} {s s' : Session} {deserted lost : Prop}
  {what : Step} {answer : Answer} {steps : List Step}

/-! ## Joins that are given up -/

def GivesUp (what : Step) (answer : Answer) : Prop :=
  ∃ patience, what = .join patience ∧ answer = .pending

def Deserted (steps : List Step) (answers : List Answer) : Prop :=
  ∃ next ∈ steps.zip answers, GivesUp next.1 next.2

theorem deserted_cons {answers : List Answer} :
    Deserted (what :: steps) (answer :: answers) ↔
      GivesUp what answer ∨ Deserted steps answers := by
  simp [Deserted]

/-! ## Where the handle is -/

/-- Where the handle of a listener that is not dropped is, and whether a join was given up. -/
structure Handled (s : Session) (deserted : Prop) : Prop where
  heard : s.listener.consumed = true
  held : s.listener.joinable = true → s.listener.loop ≠ .unstarted
  taken : s.listener.joinable = false →
    s.listener.loop = .unstarted ∨ s.listener.ended = true ∨ deserted
  lost : deserted → s.listener.joinable = false ∧ s.listener.loop ≠ .unstarted

theorem Handled.congr (h : s.Handled deserted) (iff : lost ↔ deserted) : s.Handled lost :=
  propext iff ▸ h

theorem Handled.of_ended (h : s.Handled lost) (ended : s.listener.ended = true)
    (imp : deserted → lost) : s.Handled deserted :=
  ⟨h.heard, h.held, fun _ => .inr (.inl ended), fun d => h.lost (imp d)⟩

theorem Section.not_ended (move : s.Section s') : s.listener.ended = false := by
  cases move with
  | quit loop | fall loop | refuse loop | read loop | crash loop | hold loop | publish loop
  | lose loop =>
    simp [Listener.ended, loop]

theorem Section.handled (move : s.Section s') (h : s.Handled deserted) :
    s'.Handled deserted := by
  have hjoinable : s'.listener.joinable = s.listener.joinable := by cases move <;> rfl
  have hkept := move.kept
  refine ⟨hkept.consumed.trans h.heard, fun held => ?_, fun taken => ?_, fun d => ?_⟩
  · rw [Ne, hkept.unstarted]
    exact h.held (hjoinable ▸ held)
  · -- A loop that runs has not ended yet.
    rcases h.taken (hjoinable ▸ taken) with fresh | ended | d
    · exact .inl (hkept.unstarted.mpr fresh)
    · rw [move.not_ended] at ended
      contradiction
    · exact .inr (.inr d)
  · rw [hjoinable, Ne, hkept.unstarted]
    exact h.lost d

theorem Handled.settle (h : s.Handled deserted) : s.settle.Handled deserted :=
  settle_invariant (fun _ _ h move => move.handled h) h

theorem Handled.await (h : s.Handled deserted) (patience : Nat) (reached : Listener → Bool) :
    (s.await patience reached).1.Handled deserted :=
  await_invariant (fun _ _ h move => move.handled h)
    (fun _ _ h => ⟨h.heard, h.held, h.taken, h.lost⟩) patience reached h

theorem Handled.say (h : s.Handled deserted) (log : List Log.Entry) :
    Handled { s with listener := { s.listener with log } } deserted :=
  ⟨h.heard, h.held, h.taken, h.lost⟩

theorem Handled.stop (h : s.Handled deserted) :
    Handled { s with listener := s.listener.stop } deserted :=
  ⟨h.heard, h.held, h.taken, h.lost⟩

theorem Handled.start (h : s.Handled deserted) :
    Handled { s with listener := s.listener.start } deserted := by
  unfold Listener.start
  split
  next fresh => exact ⟨h.heard, fun _ => nofun, nofun, fun d => absurd fresh (h.lost d).2⟩
  next => exact h.say _

theorem Handled.taking (h : s.Handled deserted) (otherwise : Answer) :
    (s.take otherwise).1.Handled deserted := by
  unfold Session.take receive?
  cases s.listener.stream with
  | nil => exact h
  | cons m rest => exact ⟨h.heard, h.held, h.taken, h.lost⟩

/-! ## Joins -/

/-- A wait tells what holds at its end. -/
theorem snd_await (s : Session) (patience : Nat) (reached : Listener → Bool) :
    (s.await patience reached).2 = reached (s.await patience reached).1.listener := by
  simp only [Session.await]
  split
  next h => exact h.symm
  next h => exact (Bool.eq_false_iff.mpr h).symm

def joined (s : Session) (patience : Nat) : Session :=
  (({ s with listener := s.listener.takeHandle } : Session).await patience (·.ended)).1

theorem Handled.joined (h : s.Handled deserted) (held : s.listener.joinable = true)
    (patience : Nat) : (s.joined patience).Handled True := by
  have htaken : Handled { s with listener := s.listener.takeHandle } True :=
    ⟨h.heard, nofun, fun _ => .inr (.inr trivial), fun _ => ⟨rfl, h.held held⟩⟩
  exact htaken.await patience _

theorem act_join_of_held (heard : s.listener.consumed = true)
    (held : s.listener.joinable = true) (patience : Nat) :
    s.act (.join patience) =
      if (s.joined patience).listener.ended then
        ({ s.joined patience with listener := (s.joined patience).listener.reportEnd }, .joined)
      else (s.joined patience, .pending) := by
  simp only [act, heard, held, Bool.not_true, Bool.false_eq_true, if_false, if_true, snd_await]
  rfl

theorem act_join_of_taken (heard : s.listener.consumed = true)
    (taken : s.listener.joinable = false) (patience : Nat) :
    s.act (.join patience) = (s, .joined) := by
  simp [act, heard, taken]

theorem reportEnd_eq (l : Listener) : ∃ log, l.reportEnd = { l with log } := by
  unfold Listener.reportEnd
  split <;> exact ⟨_, rfl⟩

/-- A join completes with the end of the loop, finds the handle gone, or is given up. -/
theorem Handled.join (h : s.Handled deserted) (patience : Nat) :
    let next := s.act (.join patience)
    next.1.Handled (deserted ∨ GivesUp (.join patience) next.2) ∧
      (next.2 = .joined → s.listener.joinable = false ∨ next.1.listener.ended = true) := by
  intro next
  by_cases held : s.listener.joinable = true
  · have hjoined := h.joined held patience
    have hnext : next = _ := act_join_of_held h.heard held patience
    split at hnext
    next ended =>
      obtain ⟨log, hlog⟩ := reportEnd_eq (s.joined patience).listener
      rw [hlog] at hnext
      rw [hnext]
      exact ⟨(hjoined.say log).of_ended ended fun _ => trivial, fun _ => .inr ended⟩
    next =>
      rw [hnext]
      exact ⟨hjoined.congr (iff_true_intro (.inr ⟨patience, rfl, rfl⟩)), nofun⟩
  · have taken : s.listener.joinable = false := by simpa using held
    have hnext : next = (s, .joined) := act_join_of_taken h.heard taken patience
    rw [hnext]
    refine ⟨h.congr ⟨fun d => d.resolve_right ?_, .inl⟩, fun _ => .inl taken⟩
    rintro ⟨_, -, hpending⟩
    contradiction

theorem Handled.act (h : s.Handled deserted) (kept : what ≠ .drop) :
    (s.act what).1.Handled (deserted ∨ GivesUp what (s.act what).2) := by
  have other (hwhat : ∀ patience, what ≠ .join patience)
      (hacts : (s.act what).1.Handled deserted) :
      (s.act what).1.Handled (deserted ∨ GivesUp what (s.act what).2) := by
    refine hacts.congr ⟨fun d => d.resolve_right ?_, .inl⟩
    rintro ⟨patience, hjoin, -⟩
    exact hwhat patience hjoin
  have heard : (!s.listener.consumed) = false := by simp [h.heard]
  cases what with
  | drop => contradiction
  | join patience => exact (h.join patience).1
  | advance time => exact other (by simp) (h.await _ _)
  | handleStop => exact other (by simp) h.stop
  | start =>
    refine other (by simp) ?_
    simp only [Session.act, heard]
    exact h.start
  | stop =>
    refine other (by simp) ?_
    simp only [Session.act, heard]
    exact h.stop
  | recv patience =>
    refine other (by simp) ?_
    simp only [Session.act, heard]
    exact (h.await _ _).taking _
  | tryRecv =>
    refine other (by simp) ?_
    simp only [Session.act, heard]
    exact h.taking _

theorem Handled.step (h : s.Handled deserted) (kept : what ≠ .drop) :
    (s.step what).1.Handled (deserted ∨ GivesUp what (s.step what).2.1) :=
  ((h.say []).act kept).settle

theorem Handled.play (h : s.Handled deserted) (kept : .drop ∉ steps) :
    (s.play steps).1.Handled (deserted ∨ Deserted steps (s.play steps).2) := by
  induction steps generalizing s deserted with
  | nil => exact h.congr ⟨fun d => d.resolve_right (by simp [Deserted]), .inl⟩
  | cons what rest ih =>
    have hwhat : what ≠ .drop := fun hd => kept (hd ▸ List.mem_cons_self)
    have hrest : .drop ∉ rest := fun hd => kept (List.mem_cons_of_mem _ hd)
    refine (ih (h.step hwhat) hrest).congr ?_
    rw [or_assoc]
    exact or_congr_right deserted_cons

theorem handled_opened (c : ListenerConfig) (script : List Attempt) (now : Nat) :
    (opened c script now).Handled False :=
  ⟨rfl, nofun, fun _ => .inl rfl, False.elim⟩

theorem started_of_ended {l : Listener} (ended : l.ended = true) : l.loop ≠ .unstarted := by
  intro fresh
  simp [Listener.ended, fresh] at ended

theorem isFinished_of_taken {l : Listener} (housed : l.Housed) (taken : l.joinable = false) :
    l.isFinished = true ↔ l.loop ≠ .unstarted := by
  simp only [Listener.isFinished, taken, Bool.false_eq_true, if_false]
  rw [housed]
  cases l.loop <;> simp [ReceiveLoop.holder]

theorem Handled.isFinished_iff (h : s.Handled deserted) (housed : s.listener.Housed) :
    s.listener.isFinished = true ↔ s.listener.ended = true ∨ deserted := by
  by_cases held : s.listener.joinable = true
  · have hnot : ¬ deserted := fun d => by simp [(h.lost d).1] at held
    rw [Listener.isFinished, if_pos held, or_iff_left hnot]
  · have taken : s.listener.joinable = false := by simpa using held
    rw [isFinished_of_taken housed taken]
    constructor
    · exact fun started => (h.taken taken).resolve_left started
    · rintro (ended | d)
      · exact started_of_ended ended
      · exact (h.lost d).2

theorem ended_settle (ended : s.listener.ended = true) : s.settle.listener.ended = true := by
  rwa [settle_of_quiet (quiet_of_ended ended)]

/-- A join of a started listener completes only if the loop has ended or the handle is lost. -/
theorem Handled.ended_of_joined (h : s.Handled deserted) (started : s.listener.loop ≠ .unstarted)
    {patience : Nat} (joined : (s.step (.join patience)).2.1 = .joined) :
    (s.step (.join patience)).1.listener.ended = true ∨ deserted := by
  have hsilent := h.say []
  rcases (hsilent.join patience).2 joined with taken | ended
  · rcases h.taken taken with fresh | ended | d
    · contradiction
    · have hact := act_join_of_taken hsilent.heard taken patience
      exact .inl (ended_settle ((congrArg (·.1.listener.ended) hact).trans ended))
    · exact .inr d
  · exact .inl (ended_settle ended)

/-- Once the handle is lost a join completes at once. -/
theorem Handled.joined_of_deserted (h : s.Handled deserted) (quiet : s.Quiet) (d : deserted)
    (patience : Nat) : s.step (.join patience) =
      ({ s with listener := { s.listener with log := [] } }, .joined, []) := by
  have hquiet : Quiet { s with listener := { s.listener with log := [] } } := quiet
  have hact : Session.act { s with listener := { s.listener with log := [] } } (.join patience) =
      ({ s with listener := { s.listener with log := [] } }, .joined) :=
    act_join_of_taken (h.say []).heard (h.lost d).1 patience
  simp only [Session.step, hact, settle_of_quiet hquiet]

/-! ## The whole run -/

/-- A listener that is not dropped counts as finished exactly if its loop was started and has ended
or a join of it was given up, and only then does a join complete. After a join that was given up
every join completes at once. -/
theorem finished_iff_ended_or_deserted (c : ListenerConfig) (script : List Attempt) (now : Nat)
    (steps : List Step) (kept : .drop ∉ steps) :
    let run := (opened c script now).play steps
    let s := run.1
    let deserted := Deserted steps run.2
    (s.listener.isFinished = true ↔ .start ∈ steps ∧ (s.listener.ended = true ∨ deserted)) ∧
      (.start ∈ steps → ∀ patience, (s.step (.join patience)).2.1 = .joined →
        (s.step (.join patience)).1.listener.ended = true ∨ deserted) ∧
      (deserted → ∀ patience, (s.step (.join patience)).2.1 = .joined ∧
        (s.step (.join patience)).1.now = s.now ∧
        (s.step (.join patience)).1.listener.ended = s.listener.ended) := by
  intro run s deserted
  have h : s.Handled deserted :=
    ((handled_opened c script now).play kept).congr ⟨.inr, fun d => d.resolve_left id⟩
  have started : .start ∈ steps ↔ s.listener.loop ≠ .unstarted := by
    rw [Ne, unstarted_play (guarded_opened c script now)]
    simp [opened, kept]
  have hfresh : (opened c script now).Quiet := trivial
  refine ⟨?_, fun hstart patience => h.ended_of_joined (started.mp hstart), fun d patience => ?_⟩
  · have housed : (opened c script now).listener.Housed := rfl
    rw [h.isFinished_iff (housed_play housed steps), started, and_iff_right_of_imp]
    rintro (ended | d)
    · exact started_of_ended ended
    · exact (h.lost d).2
  · rw [h.joined_of_deserted (quiet_play hfresh steps) d]
    exact ⟨rfl, rfl, rfl⟩

/-- The loop waits for its first deadline when a join gives up. -/
theorem finished_iff_ended_or_deserted_early :
    .drop ∉ [Step.start, .join 1] ∧
      let run := (opened {} [] 0).play [.start, .join 1]
      let s := run.1
      Deserted [.start, .join 1] run.2 ∧ s.listener.ended = false ∧
        s.listener.isFinished = true ∧ (s.step (.join 1)).2.1 = .joined ∧
        (s.step (.join 1)).1.listener.ended = false := by
  have kept : .drop ∉ [Step.start, .join 1] := by simp
  have hdeserted : Deserted [.start, .join 1] ((opened {} [] 0).play [.start, .join 1]).2 :=
    ⟨(.join 1, .pending), .tail _ (.head _), 1, rfl, rfl⟩
  have hended : ((opened {} [] 0).play [.start, .join 1]).1.listener.ended = false := by decide
  obtain ⟨hfinished, -, hjoins⟩ := finished_iff_ended_or_deserted {} [] 0 [.start, .join 1] kept
  obtain ⟨hjoined, -, hstill⟩ := hjoins hdeserted 1
  exact ⟨kept, hdeserted, hended, hfinished.mpr ⟨List.mem_cons_self, .inr hdeserted⟩, hjoined,
    hstill.trans hended⟩

end HopTrace.Listener.Session
