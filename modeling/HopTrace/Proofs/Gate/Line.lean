import HopTrace.Proofs.Gate.Move

/-!
# The line of a gate

Requests stand in line in the order in which they were made. All that wait are
in it, and beside them only requests that were withdrawn. Nobody stands in line
while a unit is free.
-/

namespace HopTrace.Gate

variable {g g' : Gate} {c : GateCall} {ready : Bool} {events : List GateEvent} {r k : Nat}
  {s s' : Standing}

@[simp] theorem size_put (g : Gate) (r : Nat) (s : Standing) :
    (g.put r s).requests.size = g.requests.size :=
  Array.size_setIfInBounds

theorem lt_size (found : g.requests[r]? = some s) : r < g.requests.size :=
  (Array.getElem?_eq_some_iff.mp found).choose

theorem getElem?_put_self (found : g.requests[r]? = some s') :
    (g.put r s).requests[r]? = some s :=
  Array.getElem?_setIfInBounds_self_of_lt (lt_size found)

theorem getElem?_put_of_none (h : g.requests[r]? = none) : (g.put r s).requests[r]? = none := by
  rw [Array.getElem?_eq_none_iff] at h ⊢
  rwa [size_put]

theorem getElem?_put_ne (h : r ≠ k) : (g.put r s).requests[k]? = g.requests[k]? :=
  Array.getElem?_setIfInBounds_ne h

/-- A request that is settled waits no more, and nothing else has changed. -/
theorem waits_put_iff (settled : ∀ parked, s ≠ .queued parked) :
    (g.put r s).Waits k ↔ k ≠ r ∧ g.Waits k := by
  by_cases hk : k = r
  · subst hk
    have hnot : ¬ (g.put k s).Waits k := by
      rintro ⟨parked, hw⟩
      have hlt : k < g.requests.size := by simpa using lt_size hw
      have hs : (g.put k s).requests[k]? = some s :=
        Array.getElem?_setIfInBounds_self_of_lt hlt
      exact settled parked (Option.some.inj (hs.symm.trans hw))
    simp [hnot]
  · unfold Waits
    rw [getElem?_put_ne (Ne.symm hk)]
    simp [hk]

/-- Who has been polled in vain waits as before. -/
theorem waits_park_iff {parked : Bool} (found : g.requests[r]? = some (.queued parked)) :
    (g.put r (.queued true)).Waits k ↔ g.Waits k := by
  by_cases hk : k = r
  · subst hk
    exact ⟨fun _ => ⟨parked, found⟩, fun _ => ⟨true, getElem?_put_self found⟩⟩
  · rw [Waits, getElem?_put_ne (Ne.symm hk)]
    exact Iff.rfl

theorem waits_push_iff : (∃ parked, (g.requests.push s)[k]? = some (.queued parked)) ↔
    g.Waits k ∨ k = g.requests.size ∧ ∃ parked, s = .queued parked := by
  unfold Waits
  rw [Array.getElem?_push]
  by_cases hk : k = g.requests.size
  · subst hk
    simp
  · simp [hk]

structure Orderly (g : Gate) : Prop where
  room : g.admitted ≤ g.capacity
  full : g.line ≠ [] → g.admitted = g.capacity
  sorted : g.line.Pairwise (· < ·)
  inLine : ∀ k, g.Waits k → k ∈ g.line
  known : ∀ k ∈ g.line, g.Waits k ∨ g.requests[k]? = some .withdrawn

theorem orderly_opened (capacity : Nat) : (opened capacity).Orderly where
  room := Nat.zero_le _
  full := nofun
  sorted := .nil
  inLine k := by
    rintro ⟨parked, hw⟩
    simp [opened] at hw
  known := nofun

theorem Orderly.lt_size (h : g.Orderly) (hk : k ∈ g.line) : k < g.requests.size := by
  rcases h.known k hk with ⟨parked, hw⟩ | hw
  · exact Gate.lt_size hw
  · exact Gate.lt_size hw

theorem Orderly.not_mem_line (h : g.Orderly) (found : g.requests[r]? = some s)
    (settled : s = .granted ∨ s = .observed) : r ∉ g.line := by
  intro hr
  rcases h.known r hr with ⟨parked, hw⟩ | hw <;> rcases settled with rfl | rfl <;>
    simp [found] at hw

theorem Orderly.line_eq_nil (h : g.Orderly) (room : g.admitted < g.capacity) : g.line = [] := by
  by_contra hne
  exact absurd (h.full hne) (Nat.ne_of_lt room)

/-- A request that leaves the line or was not in it may be settled. -/
theorem Orderly.settle (h : g.Orderly) (settled : ∀ parked, s ≠ .queued parked)
    (absent : r ∉ g.line ∨ s = .withdrawn ∧ r < g.requests.size) : (g.put r s).Orderly where
  room := h.room
  full := h.full
  sorted := h.sorted
  inLine k hk := h.inLine k ((waits_put_iff settled).mp hk).2
  known k hk := by
    by_cases hkr : k = r
    · subst hkr
      rcases absent with hnot | ⟨rfl, hlt⟩
      · exact absurd hk hnot
      · exact .inr (Array.getElem?_setIfInBounds_self_of_lt hlt)
    · rw [waits_put_iff settled, getElem?_put_ne (Ne.symm hkr)]
      exact (h.known k hk).imp_left fun hw => ⟨hkr, hw⟩

/-- Giving back a unit keeps the line in order. -/
theorem Release.orderly {line : List Nat} (h : g.Orderly) (hline : g.line = line)
    (release : g.Release line g' events) : g'.Orderly := by
  cases release with
  | @handOver gone r parked rest passed waits =>
    have hsorted := h.sorted
    rw [hline, List.pairwise_append, List.pairwise_cons] at hsorted
    obtain ⟨-, ⟨hfirst, hrest⟩, -⟩ := hsorted
    have hsub : ∀ k ∈ rest, k ∈ g.line := fun k hk => by simp [hline, hk]
    have hne : ∀ k ∈ rest, k ≠ r := fun k hk => (Nat.ne_of_gt (hfirst k hk))
    refine ⟨h.room, fun _ => h.full (by simp [hline]), hrest, fun k hk => ?_, fun k hk => ?_⟩
    · obtain ⟨hkr, hw⟩ := (waits_put_iff (by simp)).mp hk
      have hmem := h.inLine k hw
      rw [hline, List.mem_append, List.mem_cons] at hmem
      rcases hmem with hgone | rfl | hmem
      · exact absurd hw (passed k hgone)
      · exact absurd rfl hkr
      · exact hmem
    · have hw := (waits_put_iff (g := g) (r := r) (k := k) (s := .granted) (by simp)).mpr
      exact (h.known k (hsub k hk)).imp (fun hk' => hw ⟨hne k hk, hk'⟩) fun hk' =>
        (getElem?_put_ne (Ne.symm (hne k hk))).trans hk'
  | free passed held =>
    refine ⟨Nat.le_trans (Nat.sub_le ..) h.room, nofun, .nil, fun k hk => ?_, nofun⟩
    exact absurd hk (passed k (hline ▸ h.inLine k hk))
  | complain passed idle =>
    refine ⟨h.room, nofun, .nil, fun k hk => ?_, nofun⟩
    exact absurd hk (passed k (hline ▸ h.inLine k hk))

theorem Move.orderly (h : g.Orderly) (move : g.Move c g' ready events) : g'.Orderly := by
  cases move with
  | enter room =>
    have hline := h.line_eq_nil room
    refine ⟨room, fun hne => absurd hline hne, h.sorted, fun k hk => ?_, fun k hk => ?_⟩
    · have hw : g.Waits k := by simpa using waits_push_iff.mp hk
      exact h.inLine k hw
    · exact absurd hk (by simp [hline])
  | queue full =>
    have hfull : g.admitted = g.capacity := Nat.le_antisymm h.room full
    refine ⟨h.room, fun _ => hfull, ?_, fun k hk => ?_, fun k hk => ?_⟩
    · rw [List.pairwise_append]
      refine ⟨h.sorted, List.pairwise_singleton .., fun k hk j hj => ?_⟩
      rw [List.mem_singleton.mp hj]
      exact h.lt_size hk
    · rcases waits_push_iff.mp hk with hw | ⟨rfl, -⟩
      · exact List.mem_append_left _ (h.inLine k hw)
      · simp
    · rw [Waits, waits_push_iff]
      rcases List.mem_append.mp hk with hk | hk
      · rcases h.known k hk with hw | hw
        · exact .inl (.inl hw)
        · exact .inr ((Array.getElem?_push_lt (h.lt_size hk)).trans
            (Array.getElem?_eq_getElem (h.lt_size hk) ▸ hw))
      · exact .inl (.inr ⟨List.mem_singleton.mp hk, false, rfl⟩)
  | observe standing => exact h.settle (by simp) (.inl (h.not_mem_line standing (.inl rfl)))
  | @park r parked standing =>
    have hw (k : Nat) := waits_park_iff (k := k) standing
    refine ⟨h.room, h.full, h.sorted, fun k hk => h.inLine k ((hw k).mp hk), fun k hk => ?_⟩
    by_cases hkr : k = r
    · subst hkr
      exact .inl ⟨true, getElem?_put_self standing⟩
    · rw [hw, getElem?_put_ne (Ne.symm hkr)]
      exact h.known k hk
  | leave standing => exact h.settle (by simp) (.inr ⟨rfl, Gate.lt_size standing⟩)
  | giveBack standing release =>
    exact release.orderly (h.settle (by simp) (.inl (h.not_mem_line standing (.inl rfl)))) rfl
  | finish release => exact release.orderly h rfl
  | again | ignore | keep => exact h

theorem orderly_of_run (capacity : Nat) (calls : List GateCall) :
    (serve.after (opened capacity) calls).Orderly :=
  serve.run_induction (P := fun _ _ g => g.Orderly) (orderly_opened capacity)
    (fun _ _ g c h => (move_serve g c).orderly h) calls

end HopTrace.Gate
