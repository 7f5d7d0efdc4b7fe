import HopTrace.Proofs.Trace.Readiness

/-!
# What becomes of the messages

What the receive loop publishes the dispatcher receives, in the same order.
Unless it crashes on a datagram the dispatcher goes on until the receive loop has
ended and no message is left, and the main loop waits for that.
-/

namespace HopTrace.Trace

variable {t t' : Trace} {e : TraceEvent} {published received : List Message}

def publishedBy (t : Trace) : TraceEvent → Option Message
  | .loop =>
    match t.listener.loop with
    | .holding m => if t.listener.consumed then some m else none
    | _ => none
  | _ => none

def receivedBy (t : Trace) : TraceEvent → Option Message
  | .dispatch =>
    match t.dispatcher with
    | .receiving => t.listener.stream.head?
    | _ => none
  | _ => none

def Stage.Reaped : Stage → Prop
  | .joining => True
  | .concluding => True
  | .done _ => True
  | _ => False

/-- The messages published in a run and those received, against what is in the stream. -/
structure Mailed (t : Trace) (published received : List Message) : Prop where
  kept : t.dispatcher ≠ .crashed → published = received ++ t.listener.stream
  empty : t.dispatcher = .finished → t.listener.stream = []
  reaped : t.stage.Reaped → t.dispatcher = .finished ∨ t.dispatcher = .crashed
  trapped : t.dispatcher = .crashed → ∃ d, .ok d ∈ received ∧ t.setup.recognise d = .crash

/-- No message moves, and the dispatcher stays as it is. -/
theorem Mailed.aside (h : t.Mailed published received) (setup : t'.setup = t.setup)
    (dispatcher : t'.dispatcher = t.dispatcher) (stream : t'.listener.stream = t.listener.stream)
    (reaped : t'.stage.Reaped → t.dispatcher = .finished ∨ t.dispatcher = .crashed) :
    t'.Mailed published received := by
  constructor
  case kept =>
    rw [dispatcher, stream]
    exact h.kept
  case empty =>
    rw [dispatcher, stream]
    exact h.empty
  case reaped =>
    rw [dispatcher]
    exact reaped
  case trapped =>
    rw [dispatcher, setup]
    exact h.trapped

theorem MainMove.mailed (h : t.Mailed published received) (move : MainMove t t') :
    t'.Mailed published received := by
  cases move with
  | reap stage finished => exact h.aside rfl rfl rfl fun _ => .inl finished
  | miss stage crashed => exact h.aside rfl rfl rfl fun _ => .inr crashed
  | fail stage | succeed stage =>
    exact h.aside rfl rfl rfl fun _ => h.reaped (by rw [stage]; trivial)
  | leave stage =>
    -- With the listener the stream is given up, in which nothing is left unless the dispatcher
    -- has crashed.
    have hover := h.reaped (by rw [stage]; trivial)
    refine ⟨fun hne => ?_, fun _ => rfl, fun _ => hover, h.trapped⟩
    have hkept := h.kept hne
    rwa [h.empty (hover.resolve_right hne)] at hkept
  | stop | beginHop | request | grant | join | spawn | pause | nextHop | lastHop | release =>
    exact h.aside rfl rfl rfl False.elim

theorem DispatchMove.busy (move : DispatchMove t t') :
    t.dispatcher ≠ .finished ∧ t.dispatcher ≠ .crashed := by
  cases move with
  | receive receiving | ignore receiving | crash receiving | finish receiving =>
    simp [receiving]
  | deliver delivering => simp [delivering]

theorem DispatchMove.mailed (h : t.Mailed published received) (move : DispatchMove t t') :
    t'.Mailed published (received ++ (t.receivedBy .dispatch).toList) := by
  obtain ⟨unfinished, uncrashed⟩ := move.busy
  have hkept := h.kept uncrashed
  have waiting : ¬ t.stage.Reaped := fun hs => (h.reaped hs).elim unfinished uncrashed
  cases move with
  | receive receiving stream =>
    refine ⟨fun _ => ?_, nofun, fun hs => absurd hs waiting, nofun⟩
    simpa [receivedBy, receiving, stream] using hkept
  | ignore receiving stream =>
    refine ⟨fun _ => ?_, fun hf => absurd hf unfinished, fun hs => absurd hs waiting,
      fun hc => absurd hc uncrashed⟩
    simpa [receivedBy, receiving, stream] using hkept
  | @crash d rest receiving stream trap =>
    refine ⟨fun hne => absurd rfl hne, nofun, fun _ => .inr rfl, fun _ => ⟨d, ?_, trap⟩⟩
    simp [receivedBy, receiving, stream]
  | finish receiving closed =>
    have hempty := (t.listener.closed_iff.mp closed).1
    refine ⟨fun _ => ?_, fun _ => hempty, fun _ => .inl rfl, nofun⟩
    simpa [receivedBy, receiving, hempty] using hkept
  | deliver delivering =>
    refine ⟨fun _ => ?_, nofun, fun hs => absurd hs waiting, nofun⟩
    simpa [receivedBy, delivering] using hkept

theorem loop_mailed {l : Listener} (attended : t.Attended) (h : t.Mailed published received)
    (move : t.listener.LoopMove t.now e l) :
    Mailed { t with listener := l } (published ++ (t.publishedBy e).toList) received := by
  have unfinished : t.dispatcher ≠ .finished := fun hf => by
    have hended := move.ended_eq_false
    simp [attended.finished hf] at hended
  refine ⟨fun hne => ?_, fun hf => absurd hf unfinished, h.reaped, h.trapped⟩
  have hkept := h.kept hne
  cases move with
  | publish loop heard => simp [publishedBy, loop, heard, hkept]
  | quit loop | fall loop | attempt loop | refuse loop | crash loop | hold loop =>
    simpa [publishedBy, loop] using hkept
  | lose loop lost => simpa [publishedBy, loop, lost] using hkept

theorem Move.mailed (attended : t.Attended) (move : Move t e t')
    (h : t.Mailed published received) :
    t'.Mailed (published ++ (t.publishedBy e).toList) (received ++ (t.receivedBy e).toList) := by
  have silent (hp : t.publishedBy e = none) (hr : t.receivedBy e = none)
      (hs : t'.Mailed published received) :
      t'.Mailed (published ++ (t.publishedBy e).toList) (received ++ (t.receivedBy e).toList) := by
    simpa [hp, hr] using hs
  cases move with
  | main move => exact silent rfl rfl (move.mailed h)
  | probe found move =>
    obtain ⟨hl, hd⟩ := move.aside
    refine silent (by cases move <;> rfl) (by cases move <;> rfl) ?_
    exact h.aside (Move.probe found move).setup hd (by rw [hl]) (by rw [move.stage]; exact h.reaped)
  | dispatch move =>
    have hs := move.mailed h
    simpa [publishedBy] using hs
  | loop move =>
    have hs := loop_mailed attended h move
    have hr : t.receivedBy e = none := by cases move <;> rfl
    simpa [hr] using hs
  | clock => exact silent rfl rfl (h.aside rfl rfl rfl h.reaped)

variable {setup : TraceSetup} {plugins : PluginSet} {events : List TraceEvent}

theorem mailed_of_run (valid : setup.params.Valid)
    (hr : (start setup plugins).run events = some t) :
    t.Mailed ((start setup plugins).observe publishedBy events)
      ((start setup plugins).observe receivedBy events) := by
  refine run_induction (P := fun events s => s.Mailed
    ((start setup plugins).observe publishedBy events)
    ((start setup plugins).observe receivedBy events)) ?_ ?_ hr
  · obtain ⟨plugins', fired, log, listening, -, hs⟩ := start_of_valid valid plugins
    rw [hs]
    exact ⟨fun _ => rfl, fun _ => rfl, False.elim, nofun⟩
  · intro events s e s' hr' ih hs
    rw [observe_concat _ hr' hs, observe_concat _ hr' hs]
    exact (move_of_step hs).mailed (attended_of_run valid hr') ih

/-- If the dispatcher has not crashed on a datagram, then in the end the receive loop is over and
everything that it has published has been received. -/
theorem mail_of_reaped (valid : setup.params.Valid)
    (hr : (start setup plugins).run events = some t) (reaped : t.stage.Reaped)
    (calm : ∀ d, .ok d ∈ (start setup plugins).observe receivedBy events →
      setup.recognise d ≠ .crash) :
    t.listener.ended = true ∧ t.listener.stream = [] ∧
      (start setup plugins).observe publishedBy events =
        (start setup plugins).observe receivedBy events := by
  have mailed := mailed_of_run valid hr
  have hne : t.dispatcher ≠ .crashed := fun hc => by
    obtain ⟨d, hd, trap⟩ := mailed.trapped hc
    rw [setup_of_start hr] at trap
    exact calm d hd trap
  have hfinished := (mailed.reaped reaped).resolve_right hne
  have hempty := mailed.empty hfinished
  have hkept := mailed.kept hne
  rw [hempty, List.append_nil] at hkept
  exact ⟨(attended_of_run valid hr).finished hfinished, hempty, hkept⟩

end HopTrace.Trace
