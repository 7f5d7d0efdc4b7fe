import HopTrace.Proofs.Trace.Standing

/-!
# Runs on one thread

Once its outcome is settled a probe waits for nothing any more. Where there is
only one thread nobody else has a turn before such a probe has come to its end,
so there is never more than one of them.
-/

namespace HopTrace

def Probe.Phase.isMidway : Probe.Phase → Bool
  | .settled _ _ _ => true
  | .released _ => true
  | _ => false

namespace Trace

variable {t t' : Trace} {e : TraceEvent} {events : List TraceEvent} {i : Nat} {p : Probe}

def midway (t : Trace) : List Nat :=
  (List.range t.probes.size).filter fun i => t.probes[i]?.any (·.phase.isMidway)

theorem mem_midway_iff :
    i ∈ t.midway ↔ ∃ p : Probe, t.probes[i]? = some p ∧ p.phase.isMidway = true := by
  rw [midway, List.mem_filter, List.mem_range, Option.any_eq_true]
  refine and_iff_right_of_imp ?_
  rintro ⟨p, found, -⟩
  exact (Array.getElem?_eq_some_iff.mp found).choose

theorem mem_midway_of_standing {s : ProbeKey × Probe.Phase} (h : t.standings[i]? = some s)
    (hmidway : s.2.isMidway = true) : i ∈ t.midway := by
  obtain ⟨p, found, -, hphase⟩ := getElem?_standings_iff.mp h
  exact mem_midway_iff.mpr ⟨p, found, hphase ▸ hmidway⟩

/-- A probe that is midway has the next turn. -/
def Yields (t : Trace) (e : TraceEvent) : Prop := ∀ i ∈ t.midway, e.probe? = some i

instance (t : Trace) (e : TraceEvent) : Decidable (t.Yields e) :=
  inferInstanceAs (Decidable (∀ i ∈ t.midway, e.probe? = some i))

/-- No probe is interrupted midway. -/
def OneThread (t : Trace) (events : List TraceEvent) : Prop := t.Along Yields events

instance (t : Trace) (events : List TraceEvent) : Decidable (t.OneThread events) :=
  inferInstanceAs (Decidable (t.Along Yields events))

/-- Only the probe whose turn it is can be midway after it. -/
theorem Move.midway (move : Move t e t') (yields : t.Yields e) :
    ∀ i ∈ t'.midway, e.probe? = some i := by
  intro i hi
  obtain ⟨p', found', hmidway⟩ := mem_midway_iff.mp hi
  rcases move.standing_cases (getElem?_standings found') with hbefore | hspawned | ⟨p, -, -, hmove⟩
  · exact yields i (mem_midway_of_standing hbefore hmidway)
  · simp [hspawned, Probe.Phase.isMidway] at hmidway
  · exact hmove.probe?

theorem midway_of_oneThread (none : t.probes = #[]) (hr : t.run events = some t')
    (single : t.OneThread events) : ∀ i ∈ t'.midway, ∀ j ∈ t'.midway, i = j := by
  refine along_induction (P := fun _ s => ∀ i ∈ s.midway, ∀ j ∈ s.midway, i = j) ?_ ?_ hr single
  · simp [midway, none]
  · intro events s e s' _ yields _ hs i hi j hj
    have hacts := (move_of_step hs).midway yields
    exact Option.some.inj ((hacts i hi).symm.trans (hacts j hj))

end Trace

end HopTrace
