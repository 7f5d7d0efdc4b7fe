import HopTrace.Proofs.Route.Entries
import HopTrace.Replay
import Mathlib.Data.List.Nodup

/-!
# What the replay of a table tells

Replaying a table fires no hook twice: each index is announced and completed
once, with its row, and each address that answered is announced once.
-/

namespace HopTrace

variable {seen : List Address} {hops : List Hop} {x : Hop} {a : Address} {hook : Hook}

/-! ## The addresses of a row -/

theorem newAddresses_of_known (h : ∀ a, x.answeredBy = some a → a ∈ seen) :
    newAddresses seen (x :: hops) = newAddresses seen hops := by
  rw [newAddresses]
  cases ha : x.answeredBy with
  | none => rfl
  | some a => exact if_pos (h a ha)

theorem newAddresses_of_new (ha : x.answeredBy = some a) (new : a ∉ seen) :
    newAddresses seen (x :: hops) =
      (.newIpFound a :: (newAddresses (a :: seen) hops).1, (newAddresses (a :: seen) hops).2) := by
  rw [newAddresses, ha]
  exact if_neg new

/-- A hop shows no address that is not known, or one. -/
theorem known_or_new (seen : List Address) (x : Hop) :
    (∀ a, x.answeredBy = some a → a ∈ seen) ∨ ∃ a, x.answeredBy = some a ∧ a ∉ seen := by
  cases ha : x.answeredBy with
  | none => exact .inl nofun
  | some a =>
    by_cases hm : a ∈ seen
    · exact .inl fun b hb => Option.some.inj hb ▸ hm
    · exact .inr ⟨a, rfl, hm⟩

theorem mem_known_newAddresses :
    a ∈ (newAddresses seen hops).2 ↔ a ∈ seen ∨ ∃ h ∈ hops, h.answeredBy = some a := by
  induction hops generalizing seen with
  | nil => simp [newAddresses]
  | cons x hops ih =>
    rcases known_or_new seen x with hknown | ⟨b, hb, new⟩
    · rw [newAddresses_of_known hknown, ih]
      simp only [List.mem_cons, or_and_right, exists_or, exists_eq_left]
      refine ⟨Or.imp_right .inr, ?_⟩
      rintro (hm | hx | hex)
      · exact .inl hm
      · exact .inl (hknown a hx)
      · exact .inr hex
    · rw [newAddresses_of_new hb new, ih]
      simp only [List.mem_cons, or_and_right, exists_or, exists_eq_left, hb, Option.some.injEq]
      rw [or_assoc, or_left_comm, eq_comm]

theorem mem_newAddresses : hook ∈ (newAddresses seen hops).1 ↔
    ∃ a, hook = .newIpFound a ∧ a ∉ seen ∧ ∃ h ∈ hops, h.answeredBy = some a := by
  induction hops generalizing seen with
  | nil => simp [newAddresses]
  | cons x hops ih =>
    rcases known_or_new seen x with hknown | ⟨b, hb, new⟩
    · rw [newAddresses_of_known hknown, ih]
      refine exists_congr fun a => and_congr_right fun _ => and_congr_right fun hno => ?_
      have hx : x.answeredBy ≠ some a := fun hx => hno (hknown a hx)
      simp [hx]
    · rw [newAddresses_of_new hb new, List.mem_cons, ih]
      constructor
      · rintro (rfl | ⟨a, rfl, hno, h, hm, ha⟩)
        · exact ⟨b, rfl, new, x, List.mem_cons_self, hb⟩
        · exact ⟨a, rfl, fun hs => hno (List.mem_cons_of_mem _ hs), h, List.mem_cons_of_mem _ hm,
            ha⟩
      · rintro ⟨a, rfl, hno, h, hm, ha⟩
        by_cases hab : a = b
        · exact .inl (hab ▸ rfl)
        · refine .inr ⟨a, rfl, List.not_mem_cons_of_ne_of_not_mem hab hno, h, ?_, ha⟩
          rcases List.mem_cons.mp hm with rfl | hm
          · exact absurd (Option.some.inj (ha.symm.trans hb)) hab
          · exact hm

theorem nodup_newAddresses (seen : List Address) (hops : List Hop) :
    (newAddresses seen hops).1.Nodup := by
  induction hops generalizing seen with
  | nil => exact List.nodup_nil
  | cons x hops ih =>
    rcases known_or_new seen x with hknown | ⟨b, hb, new⟩
    · rw [newAddresses_of_known hknown]
      exact ih seen
    · rw [newAddresses_of_new hb new, List.nodup_cons, mem_newAddresses]
      refine ⟨?_, ih _⟩
      rintro ⟨a, he, hno, -⟩
      exact hno (Hook.newIpFound.inj he ▸ List.mem_cons_self)

/-! ## The hooks of all rows -/

/-- Which hooks the rows of a table stand for, beside the addresses known before them. -/
def Hook.Replayed (seen : List Address) (rows : List Row) : Hook → Prop
  | .dnsResolve _ => False
  | .ttlChange ttl => ∃ hops, (ttl, hops) ∈ rows
  | .newIpFound a => a ∉ seen ∧ ∃ row ∈ rows, ∃ h ∈ row.2, h.answeredBy = some a
  | .ttlCompleted ttl hops => (ttl, hops) ∈ rows

theorem mem_replayRows {rows : List Row} :
    hook ∈ replayRows seen rows ↔ hook.Replayed seen rows := by
  induction rows generalizing seen with
  | nil => cases hook <;> simp [replayRows, Hook.Replayed]
  | cons row rows ih =>
    obtain ⟨ttl, hops⟩ := row
    simp only [replayRows, List.cons_append, List.mem_cons, List.mem_append, mem_newAddresses, ih]
    cases hook with
    | dnsResolve domain => simp [Hook.Replayed]
    | ttlChange k => simp [Hook.Replayed, exists_or, eq_comm]
    | ttlCompleted k hops' => simp [Hook.Replayed, eq_comm]
    | newIpFound a =>
      simp only [Hook.Replayed, reduceCtorEq, false_or, Hook.newIpFound.injEq, exists_eq_left',
        mem_known_newAddresses, List.mem_cons, or_and_right, exists_or, exists_eq_left]
      by_cases hm : a ∈ seen
      · simp [hm]
      · by_cases hrow : ∃ h ∈ hops, h.answeredBy = some a <;> simp [hm, hrow]

theorem nodup_replayRows {rows : List Row} (hs : rows.Pairwise (fun a b => a.1 < b.1))
    (seen : List Address) : (replayRows seen rows).Nodup := by
  induction rows generalizing seen with
  | nil => exact List.nodup_nil
  | cons row rows ih =>
    obtain ⟨ttl, hops⟩ := row
    obtain ⟨hq, hrest⟩ := List.pairwise_cons.mp hs
    have hnew (hops' : List Hop) : (ttl, hops') ∉ rows := fun hm =>
      UInt16.lt_irrefl ttl (hq (ttl, hops') hm)
    simp only [replayRows, List.cons_append, List.nodup_cons, List.mem_append, List.mem_cons,
      mem_newAddresses, mem_replayRows]
    refine ⟨by simp [Hook.Replayed, hnew], (nodup_newAddresses seen hops).append ?_ ?_⟩
    · exact List.nodup_cons.mpr ⟨by simp [mem_replayRows, Hook.Replayed, hnew], ih hrest _⟩
    · -- An address announced with this row is known from then on.
      intro hook hm hm'
      obtain ⟨a, rfl, -, hshown⟩ := mem_newAddresses.mp hm
      rcases List.mem_cons.mp hm' with he | hm'
      · cases he
      · exact (mem_replayRows.mp hm').1 (mem_known_newAddresses.mpr (.inr hshown))

namespace HopTable

theorem mem_replay {t : HopTable} : hook ∈ t.replay ↔ hook.Replayed [] t.rows := mem_replayRows

theorem nodup_replay (t : HopTable) : t.replay.Nodup := nodup_replayRows t.sorted []

end HopTable

end HopTrace
