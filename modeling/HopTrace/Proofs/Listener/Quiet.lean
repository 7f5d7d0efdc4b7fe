import HopTrace.Proofs.Listener.Move

/-!
# When the receive loop comes to rest

The loop cannot run on for ever while time stands still: each third section
fills the stream further, and a full stream stops it. So a step leaves it at
rest, where it waits for its read to end or for room in the stream, or is not
running.
-/

namespace HopTrace.Listener

def sectionsLeft (l : Listener) : Nat :=
  match l.loop with
  | .ready => 3 * (l.config.bound - l.stream.length) + 3
  | .reading _ => 3 * (l.config.bound - l.stream.length) + 2
  | .holding _ => 3 * (l.config.bound - l.stream.length) + 1
  | _ => 0

theorem sectionsLeft_le (l : Listener) : l.sectionsLeft ≤ 3 * l.config.bound + 6 := by
  unfold sectionsLeft
  split <;> omega

namespace Session

variable {s s' : Session}

/-- Whether the receive loop waits for time to pass, for room, or for nothing. -/
def Quiet (s : Session) : Prop :=
  match s.listener.loop with
  | .ready => False
  | .reading _ => ∀ time r, s.ending = some (time, r) → s.now < time
  | .holding _ => s.listener.consumed = true ∧ s.listener.config.bound ≤ s.listener.stream.length
  | _ => True

theorem isSome_finish? {l : Listener} {deadline : Nat} (loop : l.loop = .reading deadline)
    (r : ReadEnd) : (l.finish? r).isSome := by
  simp only [finish?, loop]
  cases r with
  | received bytes reported peer => dsimp only; split <;> rfl
  | _ => rfl

theorem isSome_begin? {l : Listener} (loop : l.loop = .ready) (now : Nat) :
    (l.begin? now).isSome := by
  simp only [begin?, loop]
  split
  · rfl
  · split <;> rfl

theorem quiet_iff : s.Quiet ↔ s.loopStep? = none := by
  cases hl : s.listener.loop with
  | ready =>
    simp only [Quiet, hl, loopStep?, false_iff]
    split
    next htries _ => simp [refuse?, hl, htries]
    next => simpa using Option.isSome_iff_ne_none.mp (isSome_begin? hl s.now)
  | reading deadline =>
    simp only [Quiet, hl, loopStep?]
    cases hending : s.ending with
    | none => simp
    | some e =>
      obtain ⟨time, r⟩ := e
      have hends := Option.isSome_iff_ne_none.mp (isSome_finish? hl r)
      by_cases hdue : time ≤ s.now
      · simp [hdue, hends]
      · simp [hdue, Nat.lt_of_not_le hdue]
  | holding m =>
    simp only [Quiet, hl, loopStep?, publish?]
    cases hc : s.listener.consumed <;> simp
  | _ => simp [Quiet, loopStep?, publish?, hl]

theorem Section.sectionsLeft_lt (move : s.Section s') :
    s'.listener.sectionsLeft < s.listener.sectionsLeft := by
  cases move with
  | publish loop heard room =>
    simp only [sectionsLeft, loop, List.length_append, List.length_singleton]
    omega
  | quit loop | fall loop | refuse loop | read loop | crash loop | hold loop | lose loop =>
    simp [sectionsLeft, loop]

theorem runLoop_of_quiet (quiet : s.Quiet) (n : Nat) : runLoop n s = s := by
  cases n with
  | zero => rfl
  | succ n => rw [runLoop, quiet_iff.mp quiet]

theorem settle_of_quiet (quiet : s.Quiet) : s.settle = s := runLoop_of_quiet quiet _

theorem quiet_runLoop {n : Nat} (enough : s.listener.sectionsLeft ≤ n) : (runLoop n s).Quiet := by
  -- The fuel stays at least as large as the measure, so it is not what ends the run.
  induction n generalizing s with
  | zero =>
    cases hs : s.loopStep? with
    | none => exact quiet_iff.mpr hs
    | some s' =>
      have hless := (section_of_loopStep hs).sectionsLeft_lt
      omega
  | succ n ih =>
    cases hs : s.loopStep? with
    | none =>
      have hquiet := quiet_iff.mpr hs
      rwa [runLoop_of_quiet hquiet]
    | some s' =>
      have hless := (section_of_loopStep hs).sectionsLeft_lt
      simp only [runLoop, hs]
      exact ih (by omega)

theorem quiet_settle (s : Session) : s.settle.Quiet := quiet_runLoop s.listener.sectionsLeft_le

theorem quiet_play (quiet : s.Quiet) (steps : List Step) : (s.play steps).1.Quiet := by
  induction steps generalizing s with
  | nil => exact quiet
  | cons what rest ih => exact ih (quiet_settle _)

end Session

end HopTrace.Listener
