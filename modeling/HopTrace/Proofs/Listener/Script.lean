import HopTrace.Listener.Clock

/-!
# What the attempts of a script come to

A read that outlasts its deadline times out and is met again by the next
attempt, with the rest of its delay. What the attempts come to depends on the
script and the length of a deadline only, not on when they begin.
-/

namespace HopTrace

def ListenerConfig.message? (c : ListenerConfig) : ReadEnd → Option Message
  | .received bytes reported peer => some (.ok (c.datagram bytes reported peer))
  | .failed e => some (.error e)
  | .crashed => none

namespace Listener

/-- What the next attempt comes to, unless it crashes, and the script after it. -/
def attempt (c : ListenerConfig) : List Attempt → Option Message × List Attempt
  | [] => (some (.error .readTimeout), [])
  | .refuse cause :: rest => (some (.error (.setDeadline cause)), rest)
  | .read after r :: rest =>
    if c.readTimeout.nanos < after then
      (some (.error .readTimeout), .read (after - c.readTimeout.nanos) r :: rest)
    else (c.message? r, rest)

section

variable (c : ListenerConfig) (script : List Attempt)

def leftover : Nat → List Attempt
  | 0 => script
  | n + 1 => (attempt c (leftover n)).2

def outcomes : Nat → List Message
  | 0 => []
  | n + 1 => outcomes n ++ (attempt c (leftover c script n)).1.toList

theorem outcomes_grow {m n : Nat} (h : m ≤ n) : outcomes c script m <+: outcomes c script n := by
  induction h with
  | refl => exact List.prefix_rfl
  | step _ ih => exact ih.trans (List.prefix_append ..)

variable {c script}

theorem outcomes_succ_of_some {n : Nat} {m : Message}
    (told : (attempt c (leftover c script n)).1 = some m) :
    outcomes c script (n + 1) = outcomes c script n ++ [m] := by
  rw [outcomes, told]
  rfl

end

/-- A read begun now ends as its attempt says, once the deadline has been accepted. -/
theorem attempt_eq_of_accepted {c : ListenerConfig} {script : List Attempt}
    (accepted : ∀ cause rest, script ≠ .refuse cause :: rest) (now : Nat) :
    let met := Session.meet now (now + c.readTimeout.nanos) script
    attempt c script = (c.message? met.1.2, met.2) := by
  intro met
  unfold met
  match script with
  | [] => rfl
  | .refuse cause :: rest => exact absurd rfl (accepted cause rest)
  | .read after r :: rest =>
    have hdeadline : now + c.readTimeout.nanos < now + after ↔ c.readTimeout.nanos < after := by
      omega
    simp only [attempt, Session.meet, hdeadline, Nat.add_sub_cancel_left]
    split <;> rfl

end Listener

end HopTrace
