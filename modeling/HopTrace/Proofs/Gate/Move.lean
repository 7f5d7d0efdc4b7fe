import HopTrace.Proofs.Gate.Calls

/-!
# What a call can do

A unit given back goes to the first request in line that still waits, past
those that do not; if none waits, the gate has one unit less in use, or
complains. The relations below list all that a call can do to a gate, each with
its condition.
-/

namespace HopTrace.Gate

def Waits (g : Gate) (r : Nat) : Prop := ∃ parked, g.requests[r]? = some (.queued parked)

/-- What becomes of a gate with a line when one unit is given back. -/
inductive Release (g : Gate) : List Nat → Gate → List GateEvent → Prop
  | handOver {gone r parked rest} (passed : ∀ d ∈ gone, ¬ g.Waits d)
      (waits : g.requests[r]? = some (.queued parked)) :
      Release g (gone ++ r :: rest) { g.put r .granted with line := rest }
        (gone.map .skipped ++ .granted r :: if parked then [.woken r] else [])
  | free {gone} (passed : ∀ d ∈ gone, ¬ g.Waits d) (held : 0 < g.admitted) :
      Release g gone { g with admitted := g.admitted - 1, line := [] } (gone.map .skipped)
  | complain {gone} (passed : ∀ d ∈ gone, ¬ g.Waits d) (idle : g.admitted = 0) :
      Release g gone { g with line := [] } (gone.map .skipped ++ [.unbalanced])

inductive Move (g : Gate) : GateCall → Gate → Bool → List GateEvent → Prop
  | enter (room : g.admitted < g.capacity) :
      Move g .start
        { g with admitted := g.admitted + 1, requests := g.requests.push .granted } false
        [.granted g.requests.size]
  | queue (full : g.capacity ≤ g.admitted) :
      Move g .start
        { g with line := g.line ++ [g.requests.size], requests := g.requests.push (.queued false) }
        false []
  | observe {r} (standing : g.requests[r]? = some .granted) :
      Move g (.poll r) (g.put r .observed) true []
  | again {r} (standing : g.requests[r]? = some .observed) : Move g (.poll r) g true []
  | park {r parked} (standing : g.requests[r]? = some (.queued parked)) :
      Move g (.poll r) (g.put r (.queued true)) false []
  | ignore {r} (standing : g.requests[r]? = none ∨ g.requests[r]? = some .withdrawn) :
      Move g (.poll r) g false []
  | leave {r parked} (standing : g.requests[r]? = some (.queued parked)) :
      Move g (.drop r) (g.put r .withdrawn) false []
  | giveBack {r g' events} (standing : g.requests[r]? = some .granted)
      (release : (g.put r .withdrawn).Release g.line g' events) :
      Move g (.drop r) g' false (.returned r :: events)
  | keep {r} (settled : g.requests[r]? ≠ some .granted) (calm : ¬ g.Waits r) :
      Move g (.drop r) g false []
  | finish {g' events} (release : g.Release g.line g' events) :
      Move g .finished g' false events

variable {g g' : Gate} {events : List GateEvent} {r : Nat}

/-- One more request at the head of the line that does not wait is passed over. -/
theorem Release.skip {line : List Nat} (gone : ¬ g.Waits r) (h : g.Release line g' events) :
    g.Release (r :: line) g' (.skipped r :: events) := by
  have more {l : List Nat} (passed : ∀ d ∈ l, ¬ g.Waits d) : ∀ d ∈ r :: l, ¬ g.Waits d := by
    intro d hd
    rcases List.mem_cons.mp hd with rfl | hd
    · exact gone
    · exact passed d hd
  cases h with
  | handOver passed waits => exact .handOver (more passed) waits
  | free passed held => exact .free (more passed) held
  | complain passed idle => exact .complain (more passed) idle

theorem release_handOver (g : Gate) (line : List Nat) :
    g.Release line (g.handOver line).1 (g.handOver line).2 := by
  induction line with
  | nil =>
    unfold Gate.handOver
    by_cases hz : g.admitted = 0
    · rw [if_pos hz]
      exact .complain (by simp) hz
    · rw [if_neg hz]
      exact .free (by simp) (by omega)
  | cons r rest ih =>
    unfold Gate.handOver
    split
    next parked hr =>
      have hpassed : ∀ d ∈ ([] : List Nat), ¬ g.Waits d := by simp
      exact .handOver hpassed hr
    next hr =>
      have hgone : ¬ g.Waits r := fun ⟨parked, hw⟩ => hr parked hw
      exact ih.skip hgone

theorem start_of_room (room : g.admitted < g.capacity) : g.start =
    ({ g with admitted := g.admitted + 1, requests := g.requests.push .granted },
      [.granted g.requests.size]) :=
  if_pos room

theorem start_of_full (full : g.capacity ≤ g.admitted) : g.start =
    ({ g with line := g.line ++ [g.requests.size], requests := g.requests.push (.queued false) },
      []) :=
  if_neg (Nat.not_lt_of_le full)

theorem move_start (g : Gate) : g.Move .start g.start.1 false g.start.2 := by
  by_cases hroom : g.admitted < g.capacity
  · rw [start_of_room hroom]
    exact .enter hroom
  · have hfull := Nat.le_of_not_lt hroom
    rw [start_of_full hfull]
    exact .queue hfull

theorem move_poll (g : Gate) (r : Nat) : g.Move (.poll r) (g.poll r).1 (g.poll r).2 [] := by
  unfold Gate.poll
  split
  next hr => exact .observe hr
  next hr => exact .again hr
  next hr => exact .park hr
  next hg ho hq =>
    apply Move.ignore
    cases hr : g.requests[r]? with
    | none => exact .inl rfl
    | some s =>
      cases s with
      | queued parked => exact absurd hr (hq parked)
      | granted => exact absurd hr hg
      | observed => exact absurd hr ho
      | withdrawn => exact .inr rfl

theorem move_drop (g : Gate) (r : Nat) : g.Move (.drop r) (g.drop r).1 false (g.drop r).2 := by
  unfold Gate.drop
  split
  next hr => exact .giveBack hr (release_handOver _ g.line)
  next hr => exact .leave hr
  next hg hq => exact .keep hg fun ⟨parked, hw⟩ => hq parked hw

/-- Serving a call is one of the moves. -/
theorem move_serve (g : Gate) (c : GateCall) :
    g.Move c (serve g c).1 (serve g c).2.1 (serve g c).2.2 := by
  cases c with
  | start => exact move_start g
  | poll r => exact move_poll g r
  | drop r => exact move_drop g r
  | finished => exact .finish (release_handOver g g.line)

end HopTrace.Gate
