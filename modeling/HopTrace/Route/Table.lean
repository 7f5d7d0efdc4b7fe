import HopTrace.Hop.Basic

/-!
# Hop tables

The outcomes of the probes of a trace, by hop index. The rows are kept in
increasing order of their index, each in the order in which its probes ended.
-/

namespace HopTrace

abbrev Row := UInt16 × List Hop

structure HopTable where
  rows : List Row
  sorted : rows.Pairwise (fun a b => a.1 < b.1) := by exact List.Pairwise.nil
  deriving DecidableEq, Repr

namespace HopTable

def empty : HopTable := ⟨[], .nil⟩

def size (t : HopTable) : Nat := t.rows.length

def keys (t : HopTable) : List UInt16 := t.rows.map (·.1)

def get? (t : HopTable) (ttl : UInt16) : Option (List Hop) :=
  (t.rows.find? (fun r => r.1 == ttl)).map (·.2)

/-- Puts a row in its place, instead of one with its index. -/
def place (r : Row) : List Row → List Row
  | [] => [r]
  | q :: rest =>
    if r.1 < q.1 then r :: q :: rest
    else if r.1 = q.1 then r :: rest
    else q :: place r rest

theorem mem_place {r x : Row} {rows : List Row} (h : x ∈ place r rows) : x = r ∨ x ∈ rows := by
  induction rows with
  | nil => simpa [place] using h
  | cons q rest ih =>
    by_cases hlt : r.1 < q.1
    · simpa [place, hlt] using h
    · by_cases heq : r.1 = q.1
      · have : x = r ∨ x ∈ rest := by simpa [place, hlt, heq] using h
        cases this with
        | inl h => exact .inl h
        | inr h => exact .inr (List.mem_cons_of_mem q h)
      · have : x = q ∨ x ∈ place r rest := by simpa [place, hlt, heq] using h
        cases this with
        | inl h => exact .inr (h ▸ List.mem_cons_self)
        | inr h =>
          cases ih h with
          | inl h => exact .inl h
          | inr h => exact .inr (List.mem_cons_of_mem q h)

theorem sorted_place (r : Row) {rows : List Row} (h : rows.Pairwise (fun a b => a.1 < b.1)) :
    (place r rows).Pairwise (fun a b => a.1 < b.1) := by
  induction rows with
  | nil => simp [place]
  | cons q rest ih =>
    obtain ⟨hq, hrest⟩ := List.pairwise_cons.mp h
    by_cases hlt : r.1 < q.1
    · simp only [place, hlt, if_true]
      refine List.pairwise_cons.mpr ⟨?_, h⟩
      intro x hx
      cases List.mem_cons.mp hx with
      | inl e => exact e ▸ hlt
      | inr hx => exact UInt16.lt_trans hlt (hq x hx)
    · by_cases heq : r.1 = q.1
      · rw [place, if_neg hlt, if_pos heq]
        exact List.pairwise_cons.mpr ⟨fun x hx => heq ▸ hq x hx, hrest⟩
      · rw [place, if_neg hlt, if_neg heq]
        refine List.pairwise_cons.mpr ⟨?_, ih hrest⟩
        intro x hx
        cases mem_place hx with
        | inl e =>
          subst e
          exact UInt16.lt_of_le_of_ne (UInt16.not_lt.mp hlt) (fun e => heq e.symm)
        | inr hx => exact hq x hx

/-- Replaces or adds the row with that index. -/
def set (t : HopTable) (ttl : UInt16) (hops : List Hop) : HopTable :=
  ⟨place (ttl, hops) t.rows, sorted_place _ t.sorted⟩

/-- The outcomes recorded for an index. -/
def hops (t : HopTable) (ttl : UInt16) : List Hop := (t.get? ttl).getD []

/-- Adds one outcome at the end of its row. -/
def record (t : HopTable) (h : Hop) : HopTable := t.set h.ttl (t.hops h.ttl ++ [h])

end HopTable

end HopTrace
