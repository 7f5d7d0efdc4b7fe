import HopTrace.Proofs.Trace.Account
import HopTrace.Proofs.Trace.Outcome

/-!
# Which reply a probe records

A probe that was sent records the first reply that the dispatcher hands over
while it waits, and its timeout if there is none. The dispatcher hands over
what it recognises, and does nothing else to a trace.
-/

namespace HopTrace

def Probe.Phase.recorded (q : Probe.Phase) : List Hop :=
  (q.outcome?.bind Probe.Outcome.hop?).toList

def Probe.Outcome.sendEnd : Probe.Outcome → SendEnd
  | .recorded _ => .sent
  | .failed e => .failed e
  | .crashed => .crashed

def Probe.Phase.sendEnd? : Probe.Phase → Option SendEnd
  | .spawned => none
  | .sending _ => none
  | .withdrawing e => some (.failed e)
  | .failing e => some (.failed e)
  | .settled o _ _ => some o.sendEnd
  | .released o => some o.sendEnd
  | .ended o => some o.sendEnd
  | _ => some .sent

theorem Probe.Phase.sendEnd_of_outcome {q : Phase} {o : Outcome} (h : q.outcome? = some o) :
    q.sendEnd? = some o.sendEnd := by
  cases q with
  | settled | released | ended => exact congrArg (Option.map Outcome.sendEnd) h
  | _ => cases h

/-- A probe that has recorded a hop reports by it what it has heard first. -/
theorem Probe.Told.reports {p : Probe} {listed : Prop} {heard : List Address} {h : Hop}
    (told : p.Told listed heard) (settled : p.phase.outcome? = some (.recorded h)) :
    h.Reports p.key.ttl heard.head? := by
  unfold Probe.Told at told
  cases hphase : p.phase with
  | settled | released | ended =>
    rw [hphase] at told settled
    obtain rfl := Option.some.inj settled
    exact told h rfl
  | _ => simp [hphase, Phase.outcome?] at settled

def TraceEvent.sendEndOf (i : Nat) : TraceEvent → Option SendEnd
  | .sendEnds j r => if j = i then some r else none
  | _ => none

namespace Trace

variable {t t' : Trace} {e : TraceEvent} {i : Nat} {p : Probe} {q : Probe.Phase}

/-! ## What a probe that was sent records -/

def recordedOf (i : Nat) (t : Trace) (e : TraceEvent) : Option Hop :=
  if e.probe? = some i then t.recordedBy e else none

theorem ProbeMove.recordedOf (found : t.probes[i]? = some p) (move : ProbeMove t i p e q t') :
    q.recorded = p.phase.recorded ++ (t.recordedOf i e).toList := by
  rw [Trace.recordedOf, if_pos move.probe?]
  cases move with
  | record phase =>
    rw [recordedBy_of_recording found phase, phase]
    rfl
  | register phase | withdraw phase | fail phase | accept phase | expire phase | giveUp phase =>
    rw [recordedBy_probe found (by simp [phase]), phase]
    rfl
  | signal phase | tell phase | giveBack phase | leave phase =>
    rw [recordedBy_probe found (by simp [phase]), phase]
    exact (List.append_nil _).symm
  | sent phase | refused phase | crash phase =>
    rw [phase]
    rfl

variable {setup : TraceSetup} {plugins : PluginSet} {events : List TraceEvent}

theorem recorded_of_run (hr : (start setup plugins).run events = some t) (i : Nat) :
    (start setup plugins).observe (recordedOf i) events = t.shown Probe.Phase.recorded i :=
  observe_eq_shown (start_empty ..).1 rfl (fun _ _ hne => if_neg hne)
    (fun _ _ _ _ _ found move => move.recordedOf found) hr

theorem ProbeMove.sendEnd? (move : ProbeMove t i p e q t') :
    q.sendEnd?.toList = p.phase.sendEnd?.toList ++ (e.sendEndOf i).toList := by
  cases move with
  | sent phase | refused phase | crash phase =>
    rw [phase, TraceEvent.sendEndOf, if_pos rfl]
    rfl
  | register phase | withdraw phase | fail phase | accept phase | expire phase | giveUp phase
  | record phase | signal phase | tell phase | giveBack phase | leave phase =>
    rw [phase]
    rfl

/-- How the attempt to send a probe has ended shows in its phase. -/
theorem sendEnds_iff (hr : (start setup plugins).run events = some t) (i : Nat) (r : SendEnd) :
    .sendEnds i r ∈ events ↔
      ∃ key phase, t.standings[i]? = some (key, phase) ∧ phase.sendEnd? = some r := by
  have aside (e : TraceEvent) (hne : e.probe? ≠ some i) : e.sendEndOf i = none := by
    cases e with
    | sendEnds j r' => simpa [TraceEvent.sendEndOf, TraceEvent.probe?] using hne
    | _ => rfl
  have hshown : (start setup plugins).observe (fun _ e => e.sendEndOf i) events =
      t.shown (fun q => q.sendEnd?.toList) i :=
    observe_eq_shown (start_empty ..).1 rfl (fun _ => aside)
      (fun _ _ _ _ _ _ move => move.sendEnd?) hr
  have hmem : .sendEnds i r ∈ events ↔ r ∈ t.shown (fun q => q.sendEnd?.toList) i := by
    rw [← hshown, observe_eq_filterMap hr, List.mem_filterMap]
    constructor
    · exact fun hm => ⟨_, hm, if_pos rfl⟩
    · rintro ⟨e, hm, he⟩
      cases e with
      | sendEnds j r' =>
        obtain ⟨rfl, rfl⟩ : j = i ∧ r' = r := by simpa [TraceEvent.sendEndOf] using he
        exact hm
      | _ => cases he
  rw [hmem]
  unfold shown
  cases t.standings[i]? with
  | none => simp
  | some s =>
    obtain ⟨key, phase⟩ := s
    simp

/-! ## The dispatcher -/

def matchedBy (t : Trace) : TraceEvent → Option (ProbeKey × Address)
  | .dispatch =>
    match t.dispatcher, t.listener.stream with
    | .receiving, .ok d :: _ =>
      match t.setup.recognise d with
      | .reply key sender => some (key, sender)
      | _ => none
    | _, _ => none
  | _ => none

def Dispatcher.inHand : Dispatcher → List (ProbeKey × Address)
  | .delivering key sender => [(key, sender)]
  | _ => []

theorem DispatchMove.matched (move : DispatchMove t t') :
    t.dispatcher.inHand ++ (t.matchedBy .dispatch).toList =
      (t.handedBy .dispatch).toList ++ t'.dispatcher.inHand := by
  cases move with
  | receive receiving stream recognised =>
    simp [matchedBy, handedBy, receiving, stream, recognised, Dispatcher.inHand]
  | @ignore m rest receiving stream unrelated =>
    cases m with
    | error cause => simp [matchedBy, handedBy, receiving, stream, Dispatcher.inHand]
    | ok d => simp [matchedBy, handedBy, receiving, stream, unrelated d rfl, Dispatcher.inHand]
  | crash receiving stream trap =>
    simp [matchedBy, handedBy, receiving, stream, trap, Dispatcher.inHand]
  | finish receiving closed =>
    have hempty := (t.listener.closed_iff.mp closed).1
    simp [matchedBy, handedBy, receiving, hempty, Dispatcher.inHand]
  | deliver delivering => simp [matchedBy, handedBy, delivering, Dispatcher.inHand]

theorem Move.matched (move : Move t e t') :
    t.dispatcher.inHand ++ (t.matchedBy e).toList =
      (t.handedBy e).toList ++ t'.dispatcher.inHand := by
  have aside (hne : e ≠ .dispatch) (hd : t'.dispatcher = t.dispatcher) :
      t.dispatcher.inHand ++ (t.matchedBy e).toList =
        (t.handedBy e).toList ++ t'.dispatcher.inHand := by
    have hm : t.matchedBy e = none := by cases e <;> first | rfl | exact absurd rfl hne
    rw [hm, handedBy_of_ne hne, hd]
    simp
  cases move with
  | main move => exact aside nofun (by cases move <;> rfl)
  | probe found move => exact aside (by cases move <;> exact nofun) (by cases move <;> rfl)
  | dispatch move => exact move.matched
  | loop move => exact aside (by cases move <;> exact nofun) rfl
  | clock => exact aside nofun rfl

/-- The replies handed over are those recognised, each once and in the same order. -/
theorem matched_of_run (hr : (start setup plugins).run events = some t) :
    (start setup plugins).observe matchedBy events =
      (start setup plugins).observe handedBy events ++ t.dispatcher.inHand := by
  refine run_induction (P := fun events s => (start setup plugins).observe matchedBy events =
    (start setup plugins).observe handedBy events ++ s.dispatcher.inHand) ?_ ?_ hr
  · have hd : (start setup plugins).dispatcher = .receiving := by
      unfold start
      simp only [fireAll_eq]
      split <;> rfl
    rw [hd]
    rfl
  · intro events s e s' hr' h hs
    rw [observe_concat _ hr' hs, observe_concat _ hr' hs, h, List.append_assoc,
      (move_of_step hs).matched, List.append_assoc]

/-- Whatever the dispatcher does leaves the outcomes, the gate and the group alone, and the list of
those that wait too if no probe is taken off it. -/
theorem DispatchMove.unaffected (move : DispatchMove t t') :
    t'.table = t.table ∧ t'.seen = t.seen ∧ t'.sendError = t.sendError ∧
      t'.arrival = t.arrival ∧ t'.gate = t.gate ∧ t'.group = t.group ∧
      ((∀ i, t.usedBy i .dispatch = none) → t'.pending = t.pending) := by
  cases move with
  | @deliver key sender delivering =>
    refine ⟨rfl, rfl, rfl, rfl, rfl, rfl, fun unused => ?_⟩
    have hnone : t.pending? key = none := by
      cases hl : t.pending? key with
      | none => rfl
      | some i =>
        have hi := unused i
        simp [usedBy, handedBy, delivering, hl] at hi
    change t.pending.filter (·.1 ≠ key) = t.pending
    rw [List.filter_eq_self]
    intro r hr
    have hne : key ≠ r.1 := by simpa using List.lookup_eq_none_iff.mp hnone r hr
    simpa using hne.symm
  | _ => exact ⟨rfl, rfl, rfl, rfl, rfl, rfl, fun _ => rfl⟩

theorem not_live_of_drained (hr : (start setup plugins).run events = some t)
    (drained : t.stage.Drained) (found : t.probes[i]? = some p) : p.isLive = false := by
  by_cases valid : setup.params.Valid
  · have hzero := (balanced_of_run valid hr).liveCount_eq_zero drained
    rw [Probe.isLive_eq, Bool.eq_false_iff]
    intro live
    have hpos := liveCount_pos found live
    omega
  · simp [probes_of_faulty valid hr] at found

theorem exists_outcome_of_drained {key : ProbeKey} (hr : (start setup plugins).run events = some t)
    (drained : t.stage.Drained) (hst : t.standings[i]? = some (key, q)) : ∃ o, q = .ended o := by
  obtain ⟨p, found, -, rfl⟩ := getElem?_standings_iff.mp hst
  exact Probe.exists_outcome (not_live_of_drained hr drained found)

/-- What a probe that was sent has recorded once its outcome is settled. -/
theorem exists_recorded (hr : (start setup plugins).run events = some t)
    (found : t.probes[i]? = some p) (sent : TraceEvent.sendEnds i .sent ∈ events)
    (settled : p.phase.outcome?.isSome = true) :
    ∃ h, (start setup plugins).observe (recordedOf i) events = [h] ∧
      h.Reports p.key.ttl ((start setup plugins).heard i events).head? := by
  obtain ⟨key, phase, hst, hsent⟩ := (sendEnds_iff hr i .sent).mp sent
  obtain ⟨p', found', -, rfl⟩ := getElem?_standings_iff.mp hst
  obtain rfl := Option.some.inj (found.symm.trans found')
  obtain ⟨h, ho⟩ : ∃ h, p.phase.outcome? = some (.recorded h) := by
    obtain ⟨o, ho⟩ := Option.isSome_iff_exists.mp settled
    rw [Probe.Phase.sendEnd_of_outcome ho] at hsent
    cases o with
    | recorded h => exact ⟨h, ho⟩
    | failed | crashed => cases hsent
  refine ⟨h, ?_, ?_⟩
  · rw [recorded_of_run hr, shown_of_getElem? (getElem?_standings found), Probe.Phase.recorded, ho]
    rfl
  · have haccount := accounted_of_run hr i
    rw [Accounted, found] at haccount
    exact haccount.told.reports ho

/-- Each probe that was sent records what it heard first, if anything, and its timeout otherwise,
and once the main loop has waited for them all have come to their end. At most one reply takes a
probe off the list of those that wait, and no other message that the dispatcher handles changes
anything. -/
theorem reply_attribution (hr : (start setup plugins).run events = some t) :
    (∀ (i : Nat) (p : Probe), t.probes[i]? = some p → TraceEvent.sendEnds i .sent ∈ events →
      p.phase.outcome?.isSome = true →
      ∃ h, (start setup plugins).observe (recordedOf i) events = [h] ∧
        h ∈ t.table.hops p.key.ttl ∧ h.ttl = p.key.ttl ∧
        (∀ a, h.success = true ∧ h.address = some a ↔
          ((start setup plugins).heard i events).head? = some a) ∧
        ((start setup plugins).heard i events = [] → h = .timeout p.key.ttl)) ∧
    (t.stage.Drained → ∀ (i : Nat) (p : Probe), t.probes[i]? = some p →
      ∃ o, p.phase = .ended o) ∧
    (∀ i, ((start setup plugins).used i events).length ≤ 1) ∧
    (start setup plugins).observe matchedBy events =
      (start setup plugins).observe handedBy events ++ t.dispatcher.inHand ∧
    ∀ s, t.step .dispatch = some s →
      s.table = t.table ∧ s.seen = t.seen ∧ s.sendError = t.sendError ∧
        s.arrival = t.arrival ∧ s.gate = t.gate ∧ s.group = t.group ∧
        ((∀ i, t.usedBy i .dispatch = none) → s.pending = t.pending) := by
  refine ⟨?_, ?_, ?_, matched_of_run hr, fun s hs => ?_⟩
  · intro i p found sent settled
    obtain ⟨h, hrec, hreports⟩ := exists_recorded hr found sent settled
    have hmem : h ∈ (start setup plugins).observe (recordedOf i) events := by simp [hrec]
    have hall : h ∈ (start setup plugins).recorded events := by
      refine mem_observe_of_imp (fun s e x hx => ?_) hmem
      exact (Option.ite_none_right_eq_some.mp hx).2
    refine ⟨h, hrec, ?_, hreports.ttl_eq, hreports.success_iff, fun hnil => ?_⟩
    · rw [table_of_start hr]
      exact HopTable.mem_hops_ofHops.mpr ⟨hall, hreports.ttl_eq⟩
    · rw [hnil] at hreports
      exact hreports
  · exact fun drained i p found => Probe.exists_outcome (not_live_of_drained hr drained found)
  · intro i
    have haccount := accounted_of_run hr i
    unfold Accounted at haccount
    cases hp : t.probes[i]? with
    | none =>
      rw [hp] at haccount
      simp [haccount.2]
    | some p =>
      rw [hp] at haccount
      exact haccount.once
  · cases move_of_step hs with
    | dispatch move => exact move.unaffected
    | probe found move => cases move
    | loop move => cases move

def replyTo (seq : UInt32) (sender : Address) : List TraceEvent :=
  [.loop, .readEnds (.received (ProbeKey.bytes ⟨1, seq⟩) 6 ⟨sender, 0, 0⟩), .loop,
    .dispatch, .dispatch]

/-- The first probe is answered twice and the last one while it is being sent; the reply to the
other one comes too late. -/
def contestedRun : List TraceEvent :=
  List.replicate 14 .main ++
    [.probe 0, .probe 1, .probe 2, .sendEnds 0 .sent, .sendEnds 1 .sent] ++
    replyTo 0 (.v4 ⟨10, 0, 0, 1⟩) ++ replyTo 0 (.v4 ⟨10, 0, 0, 2⟩) ++ List.replicate 5 (.probe 0) ++
    replyTo 2 (.v4 ⟨10, 0, 0, 2⟩) ++ [.sendEnds 2 .sent] ++ List.replicate 5 (.probe 2) ++
    [.passTime 2000000000, .probe 1] ++ replyTo 1 (.v4 ⟨10, 0, 0, 1⟩) ++
    List.replicate 5 (.probe 1) ++ [.main]

theorem reply_attribution_contested : ∃ t, (start oneHop {}).run contestedRun = some t ∧
    t.stage.Drained ∧
    (start oneHop {}).heard 0 contestedRun = [.v4 ⟨10, 0, 0, 1⟩, .v4 ⟨10, 0, 0, 2⟩] ∧
    (∃ h, (start oneHop {}).observe (recordedOf 0) contestedRun = [h] ∧
      h.success = true ∧ h.address = some (.v4 ⟨10, 0, 0, 1⟩)) ∧
    (start oneHop {}).heard 1 contestedRun = [] ∧
    (start oneHop {}).observe (recordedOf 1) contestedRun = [.timeout 1] := by
  obtain ⟨t, p₀, p₁, hr, drained, h0, h1, hp₀, hp₁, hk⟩ :
      ∃ t p₀ p₁, (start oneHop {}).run contestedRun = some t ∧ t.stage.Drained ∧
        (start oneHop {}).heard 0 contestedRun = [.v4 ⟨10, 0, 0, 1⟩, .v4 ⟨10, 0, 0, 2⟩] ∧
        (start oneHop {}).heard 1 contestedRun = [] ∧
        t.probes[0]? = some p₀ ∧ t.probes[1]? = some p₁ ∧ p₁.key.ttl = 1 :=
    ⟨_, _, _, rfl, trivial, rfl, rfl, rfl, rfl, rfl⟩
  obtain ⟨settled, ended, -⟩ := reply_attribution hr
  have hsettled (i : Nat) (p : Probe) (found : t.probes[i]? = some p) :
      p.phase.outcome?.isSome = true := by
    obtain ⟨o, ho⟩ := ended drained i p found
    rw [ho]
    rfl
  obtain ⟨h, hrec, -, -, hfirst, -⟩ := settled 0 p₀ hp₀ (by simp [contestedRun])
    (hsettled 0 p₀ hp₀)
  obtain ⟨h', hrec', -, -, -, htimeout⟩ := settled 1 p₁ hp₁ (by simp [contestedRun])
    (hsettled 1 p₁ hp₁)
  have hreply := (hfirst (.v4 ⟨10, 0, 0, 1⟩)).mpr (by rw [h0]; rfl)
  rw [htimeout h1, hk] at hrec'
  exact ⟨t, hr, drained, h0, ⟨h, hrec, hreply⟩, h1, hrec'⟩

end Trace

end HopTrace
