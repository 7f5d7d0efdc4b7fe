import HopTrace.Proofs.Trace.Attribution
import HopTrace.Proofs.Trace.Clockwork

/-!
# When a probe has its outcome

On a clock that stands still while anybody can take a turn, and does not run
past a deadline, a probe goes on in the very moment in which it can. So the time
at which it was called, the time at which it had been sent, and the time of the
first answer decide when it records which hop.
-/

namespace HopTrace

namespace Trace

variable {t t' t'' : Trace} {e : TraceEvent} {i : Nat} {p : Probe} {q : Probe.Phase}
  {events : List TraceEvent}

/-! ## What is seen of a probe, and when -/

def timed {α : Type} (see : Trace → TraceEvent → Option α) (t : Trace) (e : TraceEvent) :
    Option (Nat × α) := (see t e).map fun a => (t.now, a)

def calledBy (i : Nat) (t : Trace) : TraceEvent → Option Nat
  | .probe j => if j = i ∧ t.probes[i]?.map (·.phase) = some .spawned then some t.now else none
  | _ => none

def sentBy (i : Nat) (t : Trace) (e : TraceEvent) : Option Nat :=
  if e.sendEndOf i = some .sent then some t.now else none

/-- Whose reply to its key is handed over after a probe was called, whether it waits or not. -/
def answeredBy (i : Nat) (t : Trace) (e : TraceEvent) : Option Address :=
  (t.handedBy e).bind fun r => t.probes[i]?.bind fun p =>
    if p.key = r.1 ∧ p.phase ≠ .spawned then some r.2 else none

structure Diary where
  called : List Nat := []
  sent : List Nat := []
  answers : List (Nat × Address) := []
  heard : List Address := []
  records : List (Nat × Hop) := []

def diary (t : Trace) (i : Nat) (events : List TraceEvent) : Diary where
  called := t.observe (calledBy i) events
  sent := t.observe (sentBy i) events
  answers := t.observe (timed (answeredBy i)) events
  heard := t.heard i events
  records := t.observe (timed (recordedOf i)) events

def Diary.after (d : Diary) (i : Nat) (t : Trace) (e : TraceEvent) : Diary where
  called := d.called ++ (t.calledBy i e).toList
  sent := d.sent ++ (t.sentBy i e).toList
  answers := d.answers ++ (t.timed (answeredBy i) e).toList
  heard := d.heard ++ (t.heardBy i e).toList
  records := d.records ++ (t.timed (recordedOf i) e).toList

theorem diary_concat (hr : t.run events = some t') (hs : t'.step e = some t'') :
    t.diary i (events ++ [e]) = (t.diary i events).after i t' e := by
  simp only [diary, heard, Diary.after, observe_concat _ hr hs]

theorem timed_of_none {α : Type} {see : Trace → TraceEvent → Option α} (h : see t e = none) :
    t.timed see e = none := by
  simp [timed, h]

/-- A turn of a probe shows that it is called, or what it records. -/
theorem Diary.after_probe (d : Diary) (found : t.probes[i]? = some p) :
    d.after i t (.probe i) = { d with
      called := d.called ++ (if p.phase = .spawned then [t.now] else [])
      records := d.records ++ ((t.recordedBy (.probe i)).map fun h => (t.now, h)).toList } := by
  have hcalled : t.calledBy i (.probe i) = if p.phase = .spawned then some t.now else none := by
    simp [calledBy, found]
  have hrecorded : t.timed (recordedOf i) (.probe i) =
      (t.recordedBy (.probe i)).map fun h => (t.now, h) := by
    simp [timed, recordedOf, TraceEvent.probe?]
  have hsent : t.sentBy i (.probe i) = none := rfl
  have hanswered : t.timed (answeredBy i) (.probe i) = none := rfl
  have hheard : t.heardBy i (.probe i) = none := rfl
  rw [after, hcalled, hrecorded, hsent, hanswered, hheard]
  split_ifs <;> simp

/-- A turn of a probe that shows nothing. -/
theorem Diary.after_quiet (d : Diary) (found : t.probes[i]? = some p) (called : p.phase ≠ .spawned)
    (other : ∀ h, p.phase ≠ .recording h) : d.after i t (.probe i) = d := by
  rw [d.after_probe found, if_neg called, recordedBy_probe found other]
  simp

/-- The end of an attempt to send shows whether it was sent. -/
theorem Diary.after_sendEnds (d : Diary) (r : SendEnd) :
    d.after i t (.sendEnds i r) = { d with
      sent := d.sent ++ (if r = .sent then [t.now] else []) } := by
  have hsent : t.sentBy i (.sendEnds i r) = if r = .sent then some t.now else none := by
    simp [sentBy, TraceEvent.sendEndOf]
  have hcalled : t.calledBy i (.sendEnds i r) = none := rfl
  have hrecorded : t.timed (recordedOf i) (.sendEnds i r) = none := by
    simp [timed, recordedOf, recordedBy]
  have hanswered : t.timed (answeredBy i) (.sendEnds i r) = none := rfl
  have hheard : t.heardBy i (.sendEnds i r) = none := rfl
  rw [after, hcalled, hrecorded, hsent, hanswered, hheard]
  split_ifs <;> simp

/-- An event that is not about a probe shows no more of it than an answer. -/
theorem Diary.after_aside (d : Diary) (aside : e.probe? ≠ some i) :
    d.after i t e = { d with
      answers := d.answers ++ (t.timed (answeredBy i) e).toList
      heard := d.heard ++ (t.heardBy i e).toList } := by
  have hcalled : t.calledBy i e = none := by
    cases e with
    | probe j =>
      have hj : j ≠ i := by simpa [TraceEvent.probe?] using aside
      simp [calledBy, hj]
    | _ => rfl
  have hsent : t.sentBy i e = none := by
    cases e with
    | sendEnds j r =>
      have hj : j ≠ i := by simpa [TraceEvent.probe?] using aside
      simp [sentBy, TraceEvent.sendEndOf, hj]
    | _ => rfl
  have hrecorded : t.timed (recordedOf i) e = none := timed_of_none (if_neg aside)
  simp [after, hcalled, hsent, hrecorded]

/-- What is handed over counts as heard as long as the probe waits. -/
theorem heardBy_eq (found : t.probes[i]? = some p) :
    t.heardBy i e = if p.phase.isWaiting then t.answeredBy i e else none := by
  unfold heardBy answeredBy
  cases t.handedBy e with
  | none => simp
  | some r =>
    simp only [found, Option.bind_some]
    cases p.phase <;> simp [Probe.Phase.isWaiting]

/-! ## The pace of a probe -/

/-- The outcome of a probe and its time: the first answer, if it is in time, as soon as the probe
has been sent; or else the timeout at the deadline. -/
inductive Due (ttl : UInt16) (timeout called sent : Nat) (first : Option (Nat × Address)) :
    Nat × Hop → Prop
  | reply {time sender} (answered : first = some (time, sender)) (inTime : time ≤ sent + timeout) :
      Due ttl timeout called sent first
        (max time sent, .reply ttl sender ⟨max time sent - called⟩)
  | timeout (silent : ∀ r, first = some r → sent + timeout ≤ r.1) :
      Due ttl timeout called sent first (sent + timeout, .timeout ttl)

inductive Closed (timeout now : Nat) (ttl : UInt16) : Diary → Probe.Outcome → Prop
  | recorded {called sent answers heard time h} (past : time ≤ now)
      (due : Due ttl timeout called sent answers.head? (time, h)) :
      Closed timeout now ttl
        { called := [called], sent := [sent], answers, heard, records := [(time, h)] } (.recorded h)
  | failed {called answers heard e} : Closed timeout now ttl { called, answers, heard } (.failed e)
  | crashed {called answers heard} : Closed timeout now ttl { called, answers, heard } .crashed

inductive Pace (timeout now : Nat) (ttl : UInt16) : Diary → Probe.Phase → Prop
  | spawned : Pace timeout now ttl {} .spawned
  | sending {called answers heard} (told : heard = answers.map (·.2))
      (past : ∀ r, answers.head? = some r → r.1 ≤ now) :
      Pace timeout now ttl { called := [called], answers, heard } (.sending called)
  | awaiting {called sent answers heard} (told : heard = answers.map (·.2)) (after : sent ≤ now)
      (before : now ≤ sent + timeout) (prompt : ∀ r, answers.head? = some r → now = max r.1 sent) :
      Pace timeout now ttl { called := [called], sent := [sent], answers, heard }
        (.awaiting called (sent + timeout))
  | expired {called sent answers heard} (due : now = sent + timeout)
      (late : ∀ r, answers.head? = some r → sent + timeout ≤ r.1) :
      Pace timeout now ttl { called := [called], sent := [sent], answers, heard } .expired
  | recording {called sent answers heard h}
      (due : Due ttl timeout called sent answers.head? (now, h)) :
      Pace timeout now ttl { called := [called], sent := [sent], answers, heard } (.recording h)
  | withdrawing {called answers heard e} : Pace timeout now ttl { called, answers, heard }
      (.withdrawing e)
  | failing {called answers heard e} : Pace timeout now ttl { called, answers, heard } (.failing e)
  | settled {d o arrived news} (closed : Closed timeout now ttl d o) :
      Pace timeout now ttl d (.settled o arrived news)
  | released {d o} (closed : Closed timeout now ttl d o) : Pace timeout now ttl d (.released o)
  | ended {d o} (closed : Closed timeout now ttl d o) : Pace timeout now ttl d (.ended o)

section

variable {timeout now since deadline : Nat} {ttl : UInt16} {d : Diary} {sender : Address}

theorem forall_first_concat {α : Type} {P : α → Prop} {l : List α} {a : α}
    (h : ∀ r, l.head? = some r → P r) (ha : P a) : ∀ r, (l ++ [a]).head? = some r → P r := by
  intro r hr
  cases l with
  | nil =>
    obtain rfl : a = r := by simpa using hr
    exact ha
  | cons first rest => exact h r hr

/-- An answer that comes when the outcome is due changes nothing about it. -/
theorem Due.answer {called sent : Nat} {answers : List (Nat × Address)} {outcome : Nat × Hop}
    (h : Due ttl timeout called sent answers.head? outcome) (past : outcome.1 ≤ now) :
    Due ttl timeout called sent (answers ++ [(now, sender)]).head? outcome := by
  cases h with
  | reply answered inTime => exact .reply (by simp [answered]) inTime
  | timeout silent => exact .timeout (forall_first_concat silent past)

theorem Closed.answer {o : Probe.Outcome} (h : Closed timeout now ttl d o) (sender : Address)
    (heard : List Address) :
    Closed timeout now ttl { d with answers := d.answers ++ [(now, sender)], heard } o := by
  cases h with
  | recorded past due => exact .recorded past (due.answer past)
  | failed => exact .failed
  | crashed => exact .crashed

theorem Closed.wait {o : Probe.Outcome} {later : Nat} (h : Closed timeout now ttl d o)
    (hnow : now ≤ later) : Closed timeout later ttl d o := by
  cases h with
  | recorded past due => exact .recorded (past.trans hnow) due
  | failed => exact .failed
  | crashed => exact .crashed

/-- An answer comes to a probe that was called. -/
theorem Pace.answer (h : Pace timeout now ttl d q) (called : q ≠ .spawned) (sender : Address) :
    Pace timeout now ttl { d with
      answers := d.answers ++ [(now, sender)]
      heard := d.heard ++ if q.isWaiting then [sender] else [] } q := by
  cases h with
  | spawned => exact absurd rfl called
  | sending told past =>
    exact .sending (by simp [told, Probe.Phase.isWaiting])
      (forall_first_concat past (Nat.le_refl now))
  | awaiting told after before prompt =>
    exact .awaiting (by simp [told, Probe.Phase.isWaiting]) after before
      (forall_first_concat prompt (Nat.max_eq_left after).symm)
  | expired due late => exact .expired due (forall_first_concat late due.ge)
  | recording due => exact .recording (due.answer (Nat.le_refl now))
  | withdrawing => exact .withdrawing
  | failing => exact .failing
  | settled closed => exact .settled (closed.answer sender _)
  | released closed => exact .released (closed.answer sender _)
  | ended closed => exact .ended (closed.answer sender _)

/-- While others take their turns a probe may be answered. -/
theorem Pace.aside (found : t.probes[i]? = some p) (h : Pace timeout t.now ttl d p.phase)
    (aside : e.probe? ≠ some i) : Pace timeout t.now ttl (d.after i t e) p.phase := by
  rw [Diary.after_aside d aside, heardBy_eq found]
  cases ha : t.answeredBy i e with
  | none => simpa [timed, ha] using h
  | some sender =>
    have hcalled : p.phase ≠ .spawned := by
      intro hphase
      simp [answeredBy, found, hphase] at ha
    have hanswer := h.answer hcalled sender
    cases hw : p.phase.isWaiting <;> simpa [timed, ha, hw] using hanswer

/-- Time passes while a probe has nothing to go on with. -/
theorem Pace.wait (h : Pace timeout t.now ttl d p.phase) (later : t.now ≤ now)
    (found : t.probes[i]? = some p) (told : p.Told ((p.key, i) ∈ t.pending) d.heard)
    (idle : t.probeStep? i = none) (before : ∀ deadline ∈ t.deadlines, now ≤ deadline) :
    Pace timeout now ttl d p.phase := by
  unfold probeStep? at idle
  rw [found, Option.bind_eq_bind, Option.bind_some] at idle
  unfold Probe.Told at told
  have hmem {since deadline : Nat} (phase : p.phase = .awaiting since deadline) :
      deadline ∈ t.deadlines := mem_deadlines found phase
  generalize p.phase = q at h idle told hmem ⊢
  cases h with
  | spawned => exact .spawned
  | sending heard past =>
    exact .sending heard fun r hr => (past r hr).trans later
  | @awaiting _ _ answers _ heard after _ prompt =>
    -- An answer would lie in the slot, and the probe would take it.
    have hnil : answers = [] := by
      rcases told with ⟨-, -, hnil⟩ | ⟨-, a, hslot, -⟩
      · simpa [heard] using hnil
      · simp [hslot] at idle
    subst hnil
    exact .awaiting heard (after.trans later) (before _ (hmem rfl)) (by simp)
  | expired | recording | released => cases idle
  | withdrawing => exact .withdrawing
  | failing => exact .failing
  | settled closed => exact .settled (closed.wait later)
  | ended closed => exact .ended (closed.wait later)

/-- The first answer is taken as soon as the probe has been sent. -/
theorem Pace.accept (h : Pace timeout now ttl d (.awaiting since deadline))
    (answered : d.heard.head? = some sender) :
    Pace timeout now ttl d (.recording (.reply ttl sender ⟨now - since⟩)) := by
  cases h with
  | @awaiting _ sent answers _ heard after before prompt =>
    obtain ⟨time, hfirst⟩ : ∃ time, answers.head? = some (time, sender) := by
      simpa [heard] using answered
    have hnow : now = max time sent := prompt _ hfirst
    have hdue : Due ttl timeout since sent answers.head?
        (max time sent, .reply ttl sender ⟨max time sent - since⟩) := .reply hfirst (by omega)
    rw [← hnow] at hdue
    exact .recording hdue

theorem Pace.expire (h : Pace timeout now ttl d (.awaiting since deadline))
    (silent : d.heard = []) (due : deadline ≤ now) : Pace timeout now ttl d .expired := by
  cases h with
  | @awaiting _ sent answers _ heard after before prompt =>
    have hanswers : answers = [] := by simpa [heard] using silent
    exact .expired (Nat.le_antisymm before due) (by simp [hanswers])

theorem Pace.giveUp (h : Pace timeout now ttl d .expired) :
    Pace timeout now ttl d (.recording (.timeout ttl)) := by
  cases h with
  | @expired called sent answers heard due late =>
    have hdue : Due ttl timeout called sent answers.head? (sent + timeout, .timeout ttl) :=
      .timeout late
    rw [← due] at hdue
    exact .recording hdue

/-- A probe goes on. -/
theorem ProbeMove.pace (found : t.probes[i]? = some p) (move : ProbeMove t i p e q t')
    (told : p.Told ((p.key, i) ∈ t.pending) d.heard)
    (h : Pace t.setup.params.timeout.nanos t.now p.key.ttl d p.phase) :
    Pace t.setup.params.timeout.nanos t.now p.key.ttl (d.after i t e) q := by
  unfold Probe.Told at told
  have hquiet := d.after_quiet found
  cases move with
  | register phase =>
    rw [Diary.after_probe _ found, if_pos phase, recordedBy_probe found (by simp [phase])]
    rw [phase] at h
    cases h
    exact .sending rfl (by simp)
  | sent phase =>
    rw [Diary.after_sendEnds, if_pos rfl]
    rw [phase] at h
    cases h with
    | sending heard past =>
      exact .awaiting heard (Nat.le_refl _) (Nat.le_add_right _ _)
        fun r hr => (Nat.max_eq_right (past r hr)).symm
  | refused phase =>
    rw [Diary.after_sendEnds]
    rw [phase] at h
    cases h
    exact .withdrawing
  | crash phase =>
    rw [Diary.after_sendEnds]
    rw [phase] at h
    cases h
    exact .settled .crashed
  | withdraw phase =>
    rw [hquiet (by simp [phase]) (by simp [phase])]
    rw [phase] at h
    cases h
    exact .failing
  | fail phase =>
    rw [hquiet (by simp [phase]) (by simp [phase])]
    rw [phase] at h
    cases h
    exact .settled .failed
  | accept phase answered =>
    rw [hquiet (by simp [phase]) (by simp [phase])]
    rw [phase] at h told
    rcases told with ⟨-, hslot, -⟩ | ⟨-, a, hslot, hhead⟩
    · simp [answered] at hslot
    · obtain rfl : _ = a := by simpa using answered.symm.trans hslot
      exact h.accept hhead
  | expire phase due =>
    rw [hquiet (by simp [phase]) (by simp [phase])]
    rw [phase] at h told
    rcases told with ⟨-, hslot, hnil⟩ | ⟨-, a, hslot, -⟩
    · exact h.expire hnil (by simpa [hslot] using due)
    · simp [hslot] at due
  | giveUp phase =>
    rw [hquiet (by simp [phase]) (by simp [phase])]
    rw [phase] at h
    exact h.giveUp
  | record phase =>
    rw [Diary.after_probe _ found, if_neg (by simp [phase]), recordedBy_of_recording found phase]
    rw [phase] at h
    cases h with
    | recording due => exact .settled (.recorded (Nat.le_refl _) due)
  | signal phase | tell phase =>
    rw [hquiet (by simp [phase]) (by simp [phase])]
    rw [phase] at h
    cases h with
    | settled closed => exact .settled closed
  | giveBack phase =>
    rw [hquiet (by simp [phase]) (by simp [phase])]
    rw [phase] at h
    cases h with
    | settled closed => exact .released closed
  | leave phase =>
    rw [hquiet (by simp [phase]) (by simp [phase])]
    rw [phase] at h
    cases h with
    | released closed => exact .ended closed

end

/-! ## Runs -/

def Paced (t : Trace) (i : Nat) (d : Diary) : Prop :=
  match t.standings[i]? with
  | some (key, q) => Pace t.setup.params.timeout.nanos t.now key.ttl d q
  | none => d = {}

theorem paced_iff {d : Diary} {key : ProbeKey} (h : t.standings[i]? = some (key, q)) :
    t.Paced i d ↔ Pace t.setup.params.timeout.nanos t.now key.ttl d q := by
  rw [Paced, h]

theorem Move.paced {d : Diary} {used : List Address} (move : Move t e t') (onTime : t.OnTime e)
    (account : t.Accounted i d.heard used) (h : t.Paced i d) : t'.Paced i (d.after i t e) := by
  cases hp : t.probes[i]? with
  | none =>
    obtain ⟨hne, hnew⟩ := move.standing_of_none hp
    have hstand : t.standings[i]? = none := by simp [standings, hp]
    obtain rfl : d = {} := by simpa [Paced, hstand] using h
    have hanswered : t.timed (answeredBy i) e = none :=
      timed_of_none (by simp [answeredBy, hp])
    have hheard : t.heardBy i e = none := by simp [heardBy, hp]
    rw [Diary.after_aside _ hne, hanswered, hheard]
    rcases hnew with hnone | ⟨key, hkey⟩
    · rw [Paced, hnone]
      rfl
    · exact (paced_iff hkey).mpr .spawned
  | some p =>
    rw [paced_iff (getElem?_standings hp)] at h
    rw [Accounted, hp] at account
    rcases move.standing hp with ⟨hne, hsame⟩ | ⟨q, hmove, hnew⟩
    · rw [paced_iff hsame, move.setup]
      rcases move.time_cases with ⟨now, rfl, later, rfl⟩ | hstill
      · obtain ⟨idle, before⟩ := onTime
        have hsilent : d.after i t (.passTime now) = d := by
          simp [Diary.after_aside d hne, timed, answeredBy, heardBy, handedBy]
        rw [hsilent]
        exact h.wait later hp account.told (idle.probeStep? hp) before
      · rw [hstill]
        exact h.aside hp hne
    · have hstill : t'.now = t.now := by
        rcases move.time_cases with ⟨now, rfl, -⟩ | hstill
        · cases hmove
        · exact hstill
      rw [paced_iff hnew, move.setup, hstill]
      exact hmove.pace hp account.told h

variable {setup : TraceSetup} {plugins : PluginSet}

theorem paced_of_run (hr : (start setup plugins).run events = some t)
    (timely : (start setup plugins).Timely events) (i : Nat) :
    t.Paced i ((start setup plugins).diary i events) := by
  refine along_induction (P := fun events s =>
    s.Paced i ((start setup plugins).diary i events)) ?_ ?_ hr timely
  · have hnone : (start setup plugins).standings[i]? = none := by
      simp [standings, (start_empty setup plugins).1]
    rw [Paced, hnone]
    rfl
  · intro events s e s' hr' onTime h hs
    rw [diary_concat hr' hs]
    exact (move_of_step hs).paced onTime (accounted_of_run hr' i) h

theorem Move.matched_timed (move : Move t e t') (onTime : t.OnTime e) :
    (t.dispatcher.inHand.map fun r => (t.now, r)) ++ (t.timed matchedBy e).toList =
      (t.timed handedBy e).toList ++ t'.dispatcher.inHand.map fun r => (t'.now, r) := by
  rcases move.time_cases with ⟨now, rfl, -, rfl⟩ | hstill
  · -- With a reply in hand the dispatcher could take its turn.
    have hnil : t.dispatcher.inHand = [] := by
      have hidle := onTime.1.2.2.1
      cases hd : t.dispatcher with
      | delivering => simp [dispatchStep?, hd] at hidle
      | _ => rfl
    simp [hnil, timed, matchedBy, handedBy]
  · have hmatched := congrArg (List.map fun r => (t.now, r)) move.matched
    rw [List.map_append, List.map_append] at hmatched
    rw [hstill]
    simpa only [timed, Option.toList_map] using hmatched

/-- By a timely run a reply is handed over at the time at which it is recognised. -/
theorem matched_when_handed (hr : (start setup plugins).run events = some t)
    (timely : (start setup plugins).Timely events) :
    (start setup plugins).observe (timed matchedBy) events =
      (start setup plugins).observe (timed handedBy) events ++
        t.dispatcher.inHand.map fun r => (t.now, r) := by
  refine along_induction (P := fun events s =>
    (start setup plugins).observe (timed matchedBy) events =
      (start setup plugins).observe (timed handedBy) events ++
        s.dispatcher.inHand.map fun r => (s.now, r)) ?_ ?_ hr timely
  · have hmatched := matched_of_run (run_nil (start setup plugins))
    have hnil : (start setup plugins).dispatcher.inHand = [] := by simpa using hmatched.symm
    simp [hnil]
  · intro events s e s' hr' onTime h hs
    rw [observe_concat _ hr' hs, observe_concat _ hr' hs, h, List.append_assoc,
      (move_of_step hs).matched_timed onTime, List.append_assoc]

/-! ## Outcomes -/

/-- The only record is an outcome at its time, and is there once that time is over or the main loop
has waited for the probes. -/
def Records (t : Trace) (records : List (Nat × Hop)) (outcome : Nat × Hop) : Prop :=
  records = [outcome] ∨ records = [] ∧ t.now ≤ outcome.1 ∧ ¬ t.stage.Drained

section

variable {timeout now called sent : Nat} {ttl : UInt16} {first : Option (Nat × Address)}
  {outcome : Nat × Hop} {d : Diary}

theorem Due.eq_reply {time : Nat} {sender : Address}
    (h : Due ttl timeout called sent first outcome) (answered : first = some (time, sender))
    (early : time < sent + timeout) :
    outcome = (max time sent, .reply ttl sender ⟨max time sent - called⟩) := by
  cases h with
  | reply answered' =>
    obtain ⟨rfl, rfl⟩ := Prod.mk.inj (Option.some.inj (answered'.symm.trans answered))
    rfl
  | timeout silent =>
    have hlate := silent _ answered
    omega

theorem Due.eq_timeout (h : Due ttl timeout called sent first outcome)
    (late : ∀ r, first = some r → sent + timeout < r.1) :
    outcome = (sent + timeout, .timeout ttl) := by
  cases h with
  | reply answered inTime =>
    have hlate := late _ answered
    omega
  | timeout => rfl

theorem Due.rtt_le (h : Due ttl timeout called sent first outcome) {rtt : Duration}
    (hrtt : outcome.2.rtt = some rtt) : rtt.nanos ≤ (sent - called) + timeout := by
  cases h with
  | reply answered inTime =>
    obtain rfl := Option.some.inj hrtt
    dsimp only
    omega
  | timeout => cases hrtt

theorem Closed.due {o : Probe.Outcome} (h : Closed timeout now ttl d o)
    (hcalled : called ∈ d.called) (hsent : sent ∈ d.sent) :
    ∃ r, d.records = [r] ∧ Due ttl timeout called sent d.answers.head? r := by
  cases h with
  | recorded past due =>
    obtain rfl := List.mem_singleton.mp hcalled
    obtain rfl := List.mem_singleton.mp hsent
    exact ⟨_, rfl, due⟩
  | failed | crashed => cases hsent

/-- A probe that was called and sent has recorded what is due, or what is due has not passed. -/
theorem Pace.due (h : Pace timeout now ttl d q) (hcalled : called ∈ d.called)
    (hsent : sent ∈ d.sent) :
    (∃ o, d.records = [o] ∧ Due ttl timeout called sent d.answers.head? o) ∨
      d.records = [] ∧ q.isLive = true ∧
        ∃ o, now ≤ o.1 ∧ Due ttl timeout called sent d.answers.head? o := by
  cases h with
  | awaiting told after before prompt =>
    obtain rfl := List.mem_singleton.mp hcalled
    obtain rfl := List.mem_singleton.mp hsent
    refine .inr ⟨rfl, rfl, ?_⟩
    dsimp only
    cases hfirst : List.head? _ with
    | none => exact ⟨_, before, .timeout (by simp)⟩
    | some r =>
      have hnow := prompt r hfirst
      exact ⟨_, hnow.le, .reply rfl (by omega)⟩
  | expired due late =>
    obtain rfl := List.mem_singleton.mp hcalled
    obtain rfl := List.mem_singleton.mp hsent
    exact .inr ⟨rfl, rfl, _, due.le, .timeout late⟩
  | recording due =>
    obtain rfl := List.mem_singleton.mp hcalled
    obtain rfl := List.mem_singleton.mp hsent
    exact .inr ⟨rfl, rfl, _, Nat.le_refl _, due⟩
  | settled closed | released closed | ended closed => exact .inl (closed.due hcalled hsent)
  | spawned | sending | withdrawing | failing => cases hsent

end

/-- If only one outcome can be due, a probe that was called and sent records it. -/
theorem records_of_due {called sent : Nat} {outcome : Nat × Hop}
    (hr : (start setup plugins).run events = some t)
    (timely : (start setup plugins).Timely events) (found : t.probes[i]? = some p)
    (hcalled : called ∈ ((start setup plugins).diary i events).called)
    (hsent : sent ∈ ((start setup plugins).diary i events).sent)
    (only : ∀ o, Due p.key.ttl setup.params.timeout.nanos called sent
      ((start setup plugins).diary i events).answers.head? o → o = outcome) :
    t.Records ((start setup plugins).diary i events).records outcome := by
  have hpace := (paced_iff (getElem?_standings found)).mp (paced_of_run hr timely i)
  rw [setup_of_start hr] at hpace
  rcases hpace.due hcalled hsent with ⟨o, hrec, hdue⟩ | ⟨hnil, live, o, hnow, hdue⟩
  · exact .inl (only o hdue ▸ hrec)
  · refine .inr ⟨hnil, only o hdue ▸ hnow, fun drained => ?_⟩
    have hended := not_live_of_drained hr drained found
    rw [Probe.isLive_eq, live] at hended
    cases hended

/-- By a timely run, and every simulated one is timely, a probe that was called and sent records the
first answer after its call once it has been sent, with the time since the call, or its timeout at
the deadline if there is no answer or the first one comes later. No round trip takes longer than the
attempt to send and the timeout, and what arrives during that attempt counts. An answer is handed
over when it is recognised. -/
theorem outcome_on_time (hr : (start setup plugins).run events = some t)
    (timely : (start setup plugins).Timely events) {called sent : Nat}
    (found : t.probes[i]? = some p)
    (hcalled : called ∈ ((start setup plugins).diary i events).called)
    (hsent : sent ∈ ((start setup plugins).diary i events).sent) :
    let d := (start setup plugins).diary i events
    let deadline := sent + setup.params.timeout.nanos
    (∀ time sender, d.answers.head? = some (time, sender) → time < deadline →
      t.Records d.records
        (max time sent, .reply p.key.ttl sender ⟨max time sent - called⟩)) ∧
    ((∀ r, d.answers.head? = some r → deadline < r.1) →
      t.Records d.records (deadline, .timeout p.key.ttl)) ∧
    (∀ r ∈ d.records, ∀ rtt, r.2.rtt = some rtt →
      rtt.nanos ≤ (sent - called) + setup.params.timeout.nanos) ∧
    (∀ time sender, d.answers.head? = some (time, sender) → time ≤ sent →
      t.Records d.records (sent, .reply p.key.ttl sender ⟨sent - called⟩)) ∧
    (start setup plugins).observe (timed matchedBy) events =
      (start setup plugins).observe (timed handedBy) events ++
        (t.dispatcher.inHand.map fun r => (t.now, r)) ∧
    ∀ (network : Network) (n : Nat), (start setup plugins).GoesTo
      ((Simulation.start network (start setup plugins)).runFor n).trace := by
  intro d deadline
  have hreply : ∀ time sender, d.answers.head? = some (time, sender) → time < deadline →
      t.Records d.records
        (max time sent, .reply p.key.ttl sender ⟨max time sent - called⟩) := by
    intro time sender answered early
    exact records_of_due hr timely found hcalled hsent fun o hdue => hdue.eq_reply answered early
  refine ⟨hreply, ?_, ?_, ?_, matched_when_handed hr timely, fun network n =>
    goesTo_of_simulated network setup plugins n⟩
  · intro late
    exact records_of_due hr timely found hcalled hsent fun o hdue => hdue.eq_timeout late
  · intro r hrec rtt hrtt
    have hpace := (paced_iff (getElem?_standings found)).mp (paced_of_run hr timely i)
    rw [setup_of_run hr, setup_start] at hpace
    rcases hpace.due hcalled hsent with ⟨o, ho, hdue⟩ | ⟨hnil, -⟩
    · rw [ho, List.mem_singleton] at hrec
      exact hdue.rtt_le (hrec ▸ hrtt)
    · rw [hnil] at hrec
      cases hrec
  · intro time sender answered during
    have valid : setup.params.Valid := by
      by_contra faulty
      simp [probes_of_faulty faulty hr] at found
    have hpos := valid.timeout_pos
    have hrec := hreply time sender answered (Nat.lt_of_le_of_lt during (by omega))
    rwa [Nat.max_eq_right during] at hrec

def oneAtATime : TraceSetup :=
  { oneHop with
    params := { maxHops := 1, numMeasurements := 2, parallelRequests := 1, timeout := .ofSecs 1 } }

/-- The first probe is answered after five milliseconds, while it is being sent, which takes ten.
A datagram with the key of the second one is handled before that is called, in the same instant. -/
def hastyRun : List TraceEvent :=
  List.replicate 6 .main ++ [.loop, .probe 0, .passTime 5000000] ++
    (replyTo 0 (.v4 ⟨10, 0, 0, 1⟩)).tail ++ [.loop, .passTime 10000000, .sendEnds 0 .sent] ++
    (replyTo 1 (.v4 ⟨10, 0, 0, 9⟩)).tail ++ [.loop] ++ List.replicate 5 (.probe 0) ++
    List.replicate 4 .main ++ [.probe 1, .sendEnds 1 .sent, .passTime 1010000000] ++
    List.replicate 6 (.probe 1) ++ [.main]

theorem outcome_on_time_hasty : ∃ t, (start oneAtATime {}).run hastyRun = some t ∧
    (start oneAtATime {}).Timely hastyRun ∧ t.stage.Drained ∧
    ((start oneAtATime {}).diary 0 hastyRun).answers = [(5000000, .v4 ⟨10, 0, 0, 1⟩)] ∧
    ((start oneAtATime {}).diary 0 hastyRun).records =
      [(10000000, .reply 1 (.v4 ⟨10, 0, 0, 1⟩) ⟨10000000⟩)] ∧
    ((start oneAtATime {}).diary 1 hastyRun).answers = [] ∧
    ((start oneAtATime {}).diary 1 hastyRun).records = [(1010000000, .timeout 1)] := by
  obtain ⟨t, p₀, p₁, hr, drained, hp₀, hp₁, hk₀, hk₁⟩ :
      ∃ t p₀ p₁, (start oneAtATime {}).run hastyRun = some t ∧ t.stage.Drained ∧
        t.probes[0]? = some p₀ ∧ t.probes[1]? = some p₁ ∧ p₀.key.ttl = 1 ∧ p₁.key.ttl = 1 :=
    ⟨_, _, _, rfl, trivial, rfl, rfl, rfl, rfl⟩
  have timely : (start oneAtATime {}).Timely hastyRun := by decide
  have hanswers₀ : ((start oneAtATime {}).diary 0 hastyRun).answers =
      [(5000000, .v4 ⟨10, 0, 0, 1⟩)] := rfl
  have hanswers₁ : ((start oneAtATime {}).diary 1 hastyRun).answers = [] := rfl
  have hcalled₀ : 0 ∈ ((start oneAtATime {}).diary 0 hastyRun).called := List.mem_singleton.mpr rfl
  have hsent₀ : 10000000 ∈ ((start oneAtATime {}).diary 0 hastyRun).sent :=
    List.mem_singleton.mpr rfl
  have hcalled₁ : 10000000 ∈ ((start oneAtATime {}).diary 1 hastyRun).called :=
    List.mem_singleton.mpr rfl
  have hsent₁ : 10000000 ∈ ((start oneAtATime {}).diary 1 hastyRun).sent :=
    List.mem_singleton.mpr rfl
  have settled {records : List (Nat × Hop)} {outcome : Nat × Hop}
      (h : t.Records records outcome) : records = [outcome] :=
    h.resolve_right fun hopen => hopen.2.2 drained
  obtain ⟨hreply, -⟩ := outcome_on_time hr timely hp₀ hcalled₀ hsent₀
  obtain ⟨-, htimeout, -⟩ := outcome_on_time hr timely hp₁ hcalled₁ hsent₁
  have hrecords₀ := settled (hreply 5000000 _ (by rw [hanswers₀]; rfl) (by decide))
  have hrecords₁ := settled (htimeout (by simp [hanswers₁]))
  rw [hk₀] at hrecords₀
  rw [hk₁] at hrecords₁
  exact ⟨t, hr, timely, drained, hanswers₀, hrecords₀, hanswers₁, hrecords₁⟩

def hastyNetwork : Network where
  hops := [(1, [{ replies := [⟨.v4 ⟨10, 0, 0, 1⟩, 5000000, none, none, false⟩]
                  sendTime := 10000000 }, {}])]
  noise := [⟨10000000, ProbeKey.bytes ⟨1, 1⟩, ⟨.v4 ⟨10, 0, 0, 9⟩, 0, 0⟩⟩]

/-- What is recognised in the instant of a call, but before it, is no answer: the second probe
records its timeout, in that run and in the simulation. -/
theorem early_answer_lost :
    (∃ t p, (start oneAtATime {}).run hastyRun = some t ∧ (start oneAtATime {}).Timely hastyRun ∧
      t.stage.Drained ∧ t.probes[1]? = some p ∧
      ((start oneAtATime {}).diary 1 hastyRun).called = [10000000] ∧
      ((start oneAtATime {}).diary 1 hastyRun).sent = [10000000] ∧
      ((start oneAtATime {}).observe (timed matchedBy) hastyRun).find?
        (fun r => r.2.1 = p.key ∧ 10000000 ≤ r.1) = some (10000000, p.key, .v4 ⟨10, 0, 0, 9⟩) ∧
      ((start oneAtATime {}).diary 1 hastyRun).records = [(1010000000, .timeout 1)]) ∧
    (hastyNetwork.trace oneAtATime {}).sent = [(10000000, ⟨1, 1⟩), (0, ⟨1, 0⟩)] ∧
    (hastyNetwork.trace oneAtATime {}).table.hops 1 =
      [.reply 1 (.v4 ⟨10, 0, 0, 1⟩) ⟨10000000⟩, .timeout 1] :=
  ⟨⟨_, _, rfl, by decide, trivial, rfl, rfl, rfl, by decide, rfl⟩, by decide +kernel,
    by decide +kernel⟩

end Trace
end HopTrace
