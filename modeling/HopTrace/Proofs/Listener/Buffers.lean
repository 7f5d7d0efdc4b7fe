import HopTrace.Proofs.Listener.Ending
import HopTrace.Proofs.Listener.Replies

/-!
# Each datagram has a buffer of its own

A read that ends takes the reply in flight and makes one datagram of it, which
nothing changes after that. So a datagram shows its own reply and zeros, and
nothing of another one, whatever is done with those before it. The log says of
each reply read whether its length was overstated, and says so of no other.
-/

namespace HopTrace.Listener

open Log (Entry)

namespace Session

variable {c : ListenerConfig} {script : List Attempt} {rs : List Reply} {past : List Entry}
  {received ms : List Message} {s s' : Session} {what : Step}

/-! ## Reads -/

def arriving (s : Session) : List Reply := (s.ending.bind fun e => e.2.reply?).toList

def unread (s : Session) : List Reply := s.arriving ++ replies s.script

def Clear (s : Session) : Prop :=
  (∀ deadline, s.listener.loop ≠ .reading deadline) → s.ending = none

theorem Clear.arriving (clear : s.Clear) (loop : ∀ deadline, s.listener.loop ≠ .reading deadline) :
    s.arriving = [] := by
  rw [Session.arriving, clear loop]
  rfl

theorem replies_meet (now deadline : Nat) (script : List Attempt) :
    let met := meet now deadline script
    met.1.2.reply?.toList ++ replies met.2 = replies script := by
  intro met
  unfold met
  match script with
  | [] => rfl
  | .refuse cause :: rest => rfl
  | .read after r :: rest =>
    rw [meet]
    split
    · rw [replies_read, replies_read]
      rfl
    · rw [replies_read]

/-- A section that ends a read takes the reply in flight, and no section takes another. -/
theorem Section.unread (move : s.Section s') (clear : s.Clear) :
    s'.Clear ∧ s'.unread = replies s.script := by
  cases move with
  | quit loop | fall loop | publish loop | lose loop =>
    have hending := clear (by simp [loop])
    exact ⟨fun _ => hending, by simp [Session.unread, arriving, hending]⟩
  | refuse loop goesOn fit refused =>
    have hending := clear (by simp [loop])
    refine ⟨fun _ => hending, ?_⟩
    simp only [Session.unread, arriving, hending, refused]
    rfl
  | @read deadline loop =>
    exact ⟨fun other => absurd rfl (other deadline), replies_meet s.now deadline s.script⟩
  | crash | hold => exact ⟨fun _ => rfl, rfl⟩

theorem overstatements_loopStep (clear : s.Clear) (hs : s.loopStep? = some s') :
    overstatements s'.listener.log =
      overstatements s.listener.log ++ s.arriving.flatMap (·.warnings s.listener.config) := by
  have silent (loop : ∀ deadline, s.listener.loop ≠ .reading deadline)
      (quiet : overstatements s'.listener.log = overstatements s.listener.log) :
      overstatements s'.listener.log =
        overstatements s.listener.log ++ s.arriving.flatMap (·.warnings s.listener.config) := by
    rw [clear.arriving loop, quiet, List.flatMap_nil, List.append_nil]
  cases loop : s.listener.loop with
  | ready =>
    refine silent (by simp [loop]) ?_
    simp only [loopStep?, loop] at hs
    split at hs
    · obtain ⟨l, hl, rfl⟩ := Option.map_eq_some_iff.mp hs
      exact overstatements_refuse hl
    · obtain ⟨l, hl, rfl⟩ := Option.map_eq_some_iff.mp hs
      split <;> exact overstatements_begin hl
  | reading deadline =>
    simp only [loopStep?, loop] at hs
    split at hs
    next time r hending =>
      split at hs
      · obtain ⟨l, hl, rfl⟩ := Option.map_eq_some_iff.mp hs
        rw [overstatements_finish hl, arriving, hending]
        rfl
      · contradiction
    next => contradiction
  | _ =>
    refine silent (by simp [loop]) ?_
    simp only [loopStep?, loop] at hs
    obtain ⟨l, hl, rfl⟩ := Option.map_eq_some_iff.mp hs
    exact overstatements_publish hl

/-! ## What the log says -/

/-- Of some replies those that are not unread have been read, and the log with what was said before
it holds a warning for each of them that deserves one. -/
structure Noted (c : ListenerConfig) (rs : List Reply) (past : List Entry) (s : Session) :
    Prop where
  config : s.listener.config = c
  clear : s.Clear
  told : ∃ read, rs = read ++ s.unread ∧
    overstatements (past ++ s.listener.log) = read.flatMap (·.warnings c)

theorem noted_opened (c : ListenerConfig) (script : List Attempt) (now : Nat) :
    (opened c script now).Noted c (replies script) [] :=
  ⟨rfl, fun _ => rfl, [], rfl, rfl⟩

/-- What is neither a reply nor a warning about one does not matter. -/
theorem Noted.congr {l : Listener} (h : s.Noted c rs past)
    (config : l.config = s.listener.config)
    (loop : ∀ deadline, s.listener.loop = .reading deadline → l.loop = .reading deadline)
    (log : overstatements l.log = overstatements s.listener.log) :
    Noted c rs past { s with listener := l } := by
  obtain ⟨read, hread, hlog⟩ := h.told
  refine ⟨config.trans h.config, fun other => ?_, read, hread, ?_⟩
  · exact h.clear fun deadline hl => other deadline (loop deadline hl)
  · rw [overstatements_append, log, ← overstatements_append]
    exact hlog

theorem Noted.loopStep (h : s.Noted c rs past) (hs : s.loopStep? = some s') :
    s'.Noted c rs past := by
  have hsection := section_of_loopStep hs
  obtain ⟨hclear, hunread⟩ := hsection.unread h.clear
  obtain ⟨read, hread, hlog⟩ := h.told
  refine ⟨hsection.kept.config.trans h.config, hclear, read ++ s.arriving, ?_, ?_⟩
  · rw [hread, hunread, unread, List.append_assoc]
  · rw [overstatements_append, overstatements_loopStep h.clear hs, ← List.append_assoc,
      ← overstatements_append, hlog, h.config, List.flatMap_append]

theorem Noted.pass (h : s.Noted c rs past) (time : Nat) : (s.pass time).Noted c rs past :=
  ⟨h.config, h.clear, h.told⟩

theorem Noted.settle (h : s.Noted c rs past) : s.settle.Noted c rs past :=
  settle_of_loopStep (fun _ _ h hs => h.loopStep hs) h

theorem Noted.await (h : s.Noted c rs past) (patience : Nat) (reached : Listener → Bool) :
    (s.await patience reached).1.Noted c rs past :=
  await_of_loopStep (fun _ _ h hs => h.loopStep hs) (fun _ time h => h.pass time) patience reached h

theorem Noted.take (h : s.Noted c rs past) (otherwise : Answer) :
    (s.take otherwise).1.Noted c rs past := by
  unfold Session.take receive?
  cases s.listener.stream with
  | nil => exact h
  | cons m rest => exact h.congr rfl (fun _ => id) rfl

theorem Noted.start (h : s.Noted c rs past) :
    Noted c rs past { s with listener := s.listener.start } := by
  unfold Listener.start
  split
  next fresh => exact h.congr rfl (by simp [fresh]) (overstatements_say (by simp))
  next => exact h.congr rfl (fun _ => id) (overstatements_say (by simp))

theorem Noted.drop (h : s.Noted c rs past) :
    Noted c rs past { s with listener := s.listener.drop } := by
  refine h.congr rfl (fun deadline loop => ?_) rfl
  simp only [Listener.drop, loop]

theorem Noted.reportEnd (h : s.Noted c rs past) :
    Noted c rs past { s with listener := s.listener.reportEnd } := by
  unfold Listener.reportEnd
  split
  next => exact h.congr rfl (fun _ => id) (overstatements_say (by simp))
  next => exact h

theorem Noted.join (h : s.Noted c rs past) (patience : Nat) :
    (s.act (.join patience)).1.Noted c rs past := by
  have htaken : Noted c rs past { s with listener := s.listener.takeHandle } :=
    h.congr rfl (fun _ => id) rfl
  have hawaited := htaken.await patience (·.ended)
  simp only [Session.act]
  split
  next => exact h
  next =>
    split
    next =>
      split
      next => exact hawaited.reportEnd
      next => exact hawaited
    next => exact h

theorem Noted.act (h : s.Noted c rs past) (what : Step) : (s.act what).1.Noted c rs past := by
  have hstop : Noted c rs past { s with listener := s.listener.stop } :=
    h.congr rfl (fun _ => id) rfl
  cases what with
  | advance time => exact h.await time _
  | handleStop => exact hstop
  | drop => exact h.drop
  | join patience => exact h.join patience
  | start =>
    simp only [Session.act]
    split
    · exact h
    · exact h.start
  | stop =>
    simp only [Session.act]
    split
    · exact h
    · exact hstop
  | recv patience =>
    simp only [Session.act]
    split
    · exact h
    · exact (h.await patience _).take _
  | tryRecv =>
    simp only [Session.act]
    split
    · exact h
    · exact h.take _

/-- What was logged by the last step counts as said before once another begins. -/
theorem Noted.step (h : s.Noted c rs past) (what : Step) :
    (s.step what).1.Noted c rs (past ++ s.listener.log) := by
  have hsilent : Noted c rs (past ++ s.listener.log)
      { s with listener := { s.listener with log := [] } } := by
    refine ⟨h.config, h.clear, ?_⟩
    rw [List.append_nil]
    exact h.told
  exact (hsilent.act what).settle

def logs (s : Session) : List Step → List Entry
  | [] => []
  | what :: rest => (s.step what).2.2 ++ (s.step what).1.logs rest

theorem Noted.play (h : s.Noted c rs past) (steps : List Step) :
    ∃ read, rs = read ++ (s.play steps).1.unread ∧
      overstatements (past ++ s.listener.log ++ s.logs steps) = read.flatMap (·.warnings c) := by
  induction steps generalizing s past with
  | nil =>
    rw [logs, List.append_nil]
    exact h.told
  | cons what rest ih =>
    have hrest := ih (h.step what)
    rw [List.append_assoc] at hrest
    exact hrest

/-! ## What the datagrams show -/

/-- A section turns the reply that it takes into the last datagram published or held. -/
theorem Section.datagrams (move : s.Section s') (clear : s.Clear)
    (heard : s.listener.consumed = true) :
    Listener.datagrams (s'.listener.stream ++ s'.listener.held) =
      Listener.datagrams (s.listener.stream ++ s.listener.held) ++
        s.arriving.map (·.datagram s.listener.config) := by
  cases move with
  | quit loop | fall loop | read loop => simp [clear.arriving, held, loop]
  | refuse loop =>
    have herror (e : TraceError) : Listener.datagrams [.error e] = [] := rfl
    simp [clear.arriving, held, loop, datagrams_append, herror]
  | crash loop ending => simp [arriving, ending, ReadEnd.reply?, held, loop]
  | hold loop ending due told =>
    simp [arriving, ending, held, loop, datagrams_append, datagrams_of_message told]
  | publish loop => simp [clear.arriving, held, loop]
  | lose loop lost => simp [heard] at lost

/-- Of some replies those that are not unread have become the datagrams received, then those on the
stream, then the one held. -/
structure Conveyed (c : ListenerConfig) (rs : List Reply) (received : List Message) (s : Session) :
    Prop where
  config : s.listener.config = c
  clear : s.Clear
  heard : s.listener.consumed = true
  told : ∃ read, rs = read ++ s.unread ∧
    datagrams (received ++ (s.listener.stream ++ s.listener.held)) = read.map (·.datagram c)

theorem Section.conveyed (move : s.Section s') (h : s.Conveyed c rs received) :
    s'.Conveyed c rs received := by
  obtain ⟨rfl, clear, heard, read, hread, htold⟩ := h
  obtain ⟨hclear, hunread⟩ := move.unread clear
  have hkept := move.kept
  refine ⟨hkept.config, hclear, hkept.consumed.trans heard, read ++ s.arriving, ?_, ?_⟩
  · rw [hread, hunread, Session.unread, List.append_assoc]
  · rw [datagrams_append, move.datagrams clear heard, ← List.append_assoc, ← datagrams_append,
      htold, List.map_append]

theorem Move.conveyed (move : s.Move ms s') (h : s.Conveyed c rs received) :
    s'.Conveyed c rs (received ++ ms) := by
  cases move with
  | loop move =>
    rw [List.append_nil]
    exact move.conveyed h
  | start fresh =>
    obtain ⟨config, clear, heard, read, hread, htold⟩ := h
    have hending := clear (by simp [fresh])
    rw [held, fresh] at htold
    rw [List.append_nil]
    exact ⟨config, fun _ => hending, heard, read, hread, htold⟩
  | receive stream =>
    obtain ⟨config, clear, heard, read, hread, htold⟩ := h
    refine ⟨config, clear, heard, read, hread, ?_⟩
    rw [stream] at htold
    rw [List.append_assoc]
    exact htold
  | stop | takeHandle | say | wait =>
    rw [List.append_nil]
    exact ⟨h.config, h.clear, h.heard, h.told⟩

theorem conveyed_play {steps : List Step} (kept : .drop ∉ steps) (c : ListenerConfig)
    (script : List Attempt) (now : Nat) :
    ((opened c script now).play steps).1.Conveyed c (replies script)
      (Session.received ((opened c script now).play steps).2) := by
  refine Moves.invariant (P := fun received s => s.Conveyed c (replies script) received) ?_
    (fun _ _ _ _ h move => move.conveyed h) (moves_play kept (opened c script now))
  exact ⟨rfl, fun _ => rfl, rfl, [], rfl, rfl⟩

/-! ## Dropped listeners -/

theorem Touch.clear (touch : s.Touch what s') (clear : s.Clear) : s'.Clear := by
  cases touch with
  | start heard fresh | discard fresh => exact fun _ => clear (by simp [fresh])
  | stop | say | drop => exact clear

theorem Touch.unread (touch : s.Touch what s') : s'.unread = s.unread := by
  cases touch <;> rfl

theorem Calm.unread (move : s.Calm ms s') (clear : s.Clear) :
    s'.Clear ∧ s'.unread <:+ s.unread := by
  cases move with
  | loop move =>
    obtain ⟨hclear, hunread⟩ := move.unread clear
    exact ⟨hclear, s.arriving, by rw [hunread, Session.unread]⟩
  | takeHandle | say | receive | wait => exact ⟨clear, List.suffix_rfl⟩

/-- What is read stays read, whatever the owner does. -/
theorem unread_play (clear : s.Clear) (steps : List Step) :
    (s.play steps).1.unread <:+ s.unread := by
  have hall : (s.play steps).1.Clear ∧ (s.play steps).1.unread <:+ s.unread := by
    refine play_invariant (P := fun s' => s'.Clear ∧ s'.unread <:+ s.unread) ?_ ?_
      ⟨clear, List.suffix_rfl⟩ steps
    · rintro s what s' ⟨hclear, hsuffix⟩ touch
      exact ⟨touch.clear hclear, touch.unread ▸ hsuffix⟩
    · rintro s ms s' ⟨hclear, hsuffix⟩ move
      obtain ⟨hclear', hless⟩ := move.unread hclear
      exact ⟨hclear', hless.trans hsuffix⟩
  exact hall.2

/-- Nothing is received from a listener that has been dropped. -/
theorem received_of_lost (lost : s.listener.consumed = false) (steps : List Step) :
    Session.received (s.play steps).2 = [] := by
  induction steps generalizing s with
  | nil => rfl
  | cons what rest ih =>
    have hsilent : (s.step what).2.1.messages = [] := by
      cases what <;> simp [Session.step, Session.act, lost, Answer.messages]
    have hlost : (s.step what).1.listener.consumed = false := by
      rw [← Bool.not_eq_true, consumed_step, lost]
      simp
    have hreceived : Session.received (s.play (what :: rest)).2 =
        (s.step what).2.1.messages ++ Session.received ((s.step what).1.play rest).2 := rfl
    rw [hreceived, hsilent, ih hlost, List.append_nil]

theorem received_append (s : Session) (steps more : List Step) :
    Session.received (s.play (steps ++ more)).2 =
      Session.received (s.play steps).2 ++ Session.received ((s.play steps).1.play more).2 := by
  induction steps generalizing s with
  | nil => rfl
  | cons what rest ih =>
    have hrest := ih (s.step what).1
    simp only [Session.received] at hrest
    simp only [List.cons_append, play, Session.received, List.flatMap_cons, hrest,
      List.append_assoc]

/-- All that is ever received is received before the listener is dropped. -/
theorem exists_before_drop (s : Session) (steps : List Step) :
    ∃ before after, steps = before ++ after ∧ .drop ∉ before ∧
      Session.received (s.play steps).2 = Session.received (s.play before).2 := by
  by_cases dropped : .drop ∈ steps
  · obtain ⟨before, after, rfl, hkept⟩ := List.eq_append_cons_of_mem dropped
    refine ⟨before, _, rfl, hkept, ?_⟩
    have hlost : ((s.play before).1.step .drop).1.listener.consumed = false := by
      rw [← Bool.not_eq_true, consumed_step]
      simp
    have hafter : Session.received ((s.play before).1.play (.drop :: after)).2 = [] :=
      received_of_lost hlost after
    rw [received_append, hafter, List.append_nil]
  · exact ⟨steps, [], (List.append_nil steps).symm, dropped, rfl⟩

/-- What is received is what the first attempts of the script come to. -/
theorem exists_prefix_outcomes (c : ListenerConfig) (script : List Attempt) (now : Nat)
    (steps : List Step) :
    ∃ n, Session.received ((opened c script now).play steps).2 <+: outcomes c script n := by
  obtain ⟨before, after, -, hkept, hreceived⟩ := exists_before_drop (opened c script now) steps
  obtain ⟨n, h⟩ := conserved_play hkept c script now
  refine ⟨n, ?_⟩
  rw [hreceived, ← h.told, List.append_assoc]
  exact List.prefix_append ..

/-- The datagrams received belong to the first replies that have been read, one by one. -/
theorem exists_first_fills {c : ListenerConfig} {script : List Attempt} {now : Nat}
    {steps : List Step} {read : List Reply}
    (hread : replies script = read ++ ((opened c script now).play steps).1.unread) :
    ∃ first, first <+: read ∧ List.Forall₂ (Reply.Fills c.bufferSize) first
      (Listener.datagrams (Session.received ((opened c script now).play steps).2)) := by
  obtain ⟨before, after, rfl, hkept, hreceived⟩ := exists_before_drop (opened c script now) steps
  obtain ⟨config, clear, heard, read', hread', htold⟩ := conveyed_play hkept c script now
  rw [datagrams_append] at htold
  obtain ⟨first, others, rfl, hfirst, -⟩ := List.map_eq_append_iff.mp htold.symm
  -- Later steps, a drop among them, only read more.
  have hless : ((opened c script now).play (before ++ after)).1.unread <:+
      ((opened c script now).play before).1.unread := by
    rw [play_append]
    exact unread_play clear after
  obtain ⟨more, hmore⟩ := hless
  refine ⟨first, ⟨others ++ more, ?_⟩, ?_⟩
  · have hall := hread.symm.trans hread'
    rw [← hmore, ← List.append_assoc] at hall
    rw [← List.append_assoc]
    exact (List.append_cancel_right hall).symm
  · rw [hreceived, ← hfirst]
    exact Reply.fills_datagrams c first

/-- Of the replies of a script those that are not unread have been read. The log holds a warning for
each of them that is overstated and no other, the first of them fill the buffers of the datagrams
received, and unless the listener is dropped all of them fill those received, on the stream or held.
Whatever is done with the listener, at each position the same message is received. -/
theorem buffers_fresh (c : ListenerConfig) (script : List Attempt) (now : Nat)
    (steps : List Step) :
    let run := (opened c script now).play steps
    let s := run.1
    ∃ read, replies script = read ++ s.unread ∧
      overstatements ((opened c script now).logs steps) = read.flatMap (·.warnings c) ∧
      (∃ first, first <+: read ∧ List.Forall₂ (Reply.Fills c.bufferSize) first
        (Listener.datagrams (Session.received run.2))) ∧
      (.drop ∉ steps → List.Forall₂ (Reply.Fills c.bufferSize) read
        (Listener.datagrams
          (Session.received run.2 ++ (s.listener.stream ++ s.listener.held)))) ∧
      ∀ now' steps',
        let received' := Session.received ((opened c script now').play steps').2
        Session.received run.2 <+: received' ∨ received' <+: Session.received run.2 := by
  intro run s
  obtain ⟨read, hread, hlog⟩ := (noted_opened c script now).play steps
  refine ⟨read, hread, hlog, exists_first_fills hread, fun kept => ?_, fun now' steps' => ?_⟩
  · obtain ⟨-, -, -, read', hread', htold⟩ := conveyed_play kept c script now
    obtain rfl : read = read' := List.append_cancel_right (hread.symm.trans hread')
    rw [htold]
    exact Reply.fills_datagrams c read
  · obtain ⟨n, hn⟩ := exists_prefix_outcomes c script now steps
    obtain ⟨n', hn'⟩ := exists_prefix_outcomes c script now' steps'
    have hleft := hn.trans (outcomes_grow c script (Nat.le_max_left n n'))
    have hright := hn'.trans (outcomes_grow c script (Nat.le_max_right n n'))
    exact List.prefix_or_prefix_of_prefix hleft hright

def lengths : List Attempt :=
  let peer : Endpoint := ⟨.v4 ⟨10, 0, 0, 2⟩, 7, 0⟩
  [.read 0 (.received [1, 2, 3, 4, 5] 5 peer), .refuse "busy", .read 0 (.received [6] 2 peer),
    .read 0 (.received [7, 8] 9 peer)]

def drawing : List Step := [.start, .tryRecv, .tryRecv, .tryRecv]

def drawn : Session × List Answer :=
  (opened { bufferSize := 4, queueCapacity := 2 } lengths 0).play drawing

def shown : List Datagram :=
  Listener.datagrams
    (Session.received drawn.2 ++ (drawn.1.listener.stream ++ drawn.1.listener.held))

theorem buffers_fresh_short :
    .drop ∉ drawing ∧ List.Forall₂ (Reply.Fills 4) (replies lengths) shown ∧
      shown.map (·.buf) = [[1, 2, 3, 4], [6, 0, 0, 0], [7, 8, 0, 0]] ∧
      shown.map (·.payload) = [[1, 2, 3, 4], [6, 0], [7, 8, 0, 0]] := by
  have kept : .drop ∉ drawing := by simp [drawing]
  have hspent : drawn.1.unread = [] := by decide
  obtain ⟨read, hread, -, -, hfills, -⟩ :=
    buffers_fresh { bufferSize := 4, queueCapacity := 2 } lengths 0 drawing
  have hall : replies lengths = read := by
    rw [hread]
    exact (congrArg (read ++ ·) hspent).trans (List.append_nil read)
  exact ⟨kept, hall ▸ hfills kept, by decide, by decide⟩

end Session

end HopTrace.Listener
