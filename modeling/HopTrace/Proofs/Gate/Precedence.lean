import HopTrace.Proofs.Gate.Accounts
import HopTrace.Proofs.Gate.Line

/-!
# First come, first served

The life of a request is followed through the calls: it waits or is granted at
once, may be granted later, and is observed or withdrawn. Nobody is granted
while somebody who came earlier still waits, and nobody waits while a unit is
free. A poll finds exactly the requests that have been granted, and each that
had been polled in vain is woken once, when it is granted.
-/

namespace HopTrace.Gate

open GateCall

/-- How a call that causes some events may change the standing of a request. -/
inductive Life (r : Nat) (c : GateCall) (events : List GateEvent) :
    Option Standing → Option Standing → Prop
  | aside {s} (other : c.handle? ≠ some r) (grants : events.count (.granted r) = 0)
      (wakes : events.count (.woken r) = 0) : Life r c events s s
  | enter (call : c = .start) (grants : events.count (.granted r) = 1)
      (wakes : events.count (.woken r) = 0) : Life r c events none (some .granted)
  | queue (call : c = .start) (quiet : events = []) : Life r c events none (some (.queued false))
  | grant {parked} (other : c.handle? ≠ some r) (grants : events.count (.granted r) = 1)
      (wakes : events.count (.woken r) = parked.toNat) :
      Life r c events (some (.queued parked)) (some .granted)
  | observe (call : c = .poll r) (quiet : events = []) :
      Life r c events (some .granted) (some .observed)
  | park {parked} (call : c = .poll r) (quiet : events = []) :
      Life r c events (some (.queued parked)) (some (.queued true))
  | leave {parked} (call : c = .drop r) (quiet : events = []) :
      Life r c events (some (.queued parked)) (some .withdrawn)
  | giveBack (call : c = .drop r) (grants : events.count (.granted r) = 0)
      (wakes : events.count (.woken r) = 0) : Life r c events (some .granted) (some .withdrawn)
  | stay {s} (own : c.handle? = some r) (settled : s ≠ some .granted)
      (calm : ∀ parked, s ≠ some (.queued parked)) (quiet : events = []) : Life r c events s s

variable {g g' : Gate} {c : GateCall} {ready : Bool} {events : List GateEvent} {r : Nat}
  {calls : List GateCall}

/-- What a unit given back does to a request: it may be granted if it waits. -/
theorem Release.life {line : List Nat} (release : g.Release line g' events) (r : Nat) :
    (g'.requests[r]? = g.requests[r]? ∧ events.count (.granted r) = 0 ∧
      events.count (.woken r) = 0) ∨
    ∃ parked, g.requests[r]? = some (.queued parked) ∧ g'.requests[r]? = some .granted ∧
      events.count (.granted r) = 1 ∧ events.count (.woken r) = parked.toNat := by
  have hgranted (gone : List Nat) : (gone.map GateEvent.skipped).count (.granted r) = 0 := by
    simp [List.count_eq_zero]
  have hwoken (gone : List Nat) : (gone.map GateEvent.skipped).count (.woken r) = 0 := by
    simp [List.count_eq_zero]
  cases release with
  | @handOver gone k parked rest passed waits =>
    rw [List.count_append, List.count_append, hgranted, hwoken]
    by_cases hk : k = r
    · subst hk
      refine .inr ⟨parked, waits, getElem?_put_self waits, ?_, ?_⟩ <;> cases parked <;> simp
    · refine .inl ⟨getElem?_put_ne hk, ?_, ?_⟩ <;> cases parked <;> simp [hk]
  | free =>
    exact .inl ⟨rfl, hgranted _, hwoken _⟩
  | complain =>
    rw [List.count_append, List.count_append, hgranted, hwoken]
    exact .inl ⟨rfl, by simp, by simp⟩

theorem Move.life (move : g.Move c g' ready events) (r : Nat) :
    Life r c events g.requests[r]? g'.requests[r]? := by
  have elsewhere {k : Nat} {s : Standing} (hk : k ≠ r) (hc : c.handle? = some k) :
      Life r c [] g.requests[r]? (g.put k s).requests[r]? := by
    rw [getElem?_put_ne hk]
    exact .aside (by simpa [hc] using hk) rfl rfl
  have pushed (s : Standing) (hr : g.requests.size ≠ r) :
      (g.requests.push s)[r]? = g.requests[r]? := by
    rw [Array.getElem?_push, if_neg (Ne.symm hr)]
  cases move with
  | enter room =>
    by_cases hr : g.requests.size = r
    · subst hr
      rw [Array.getElem?_eq_none (Nat.le_refl _), Array.getElem?_push_size]
      exact .enter rfl (by simp) (by simp)
    · rw [pushed _ hr]
      exact .aside nofun (by simp [hr]) (by simp)
  | queue full =>
    by_cases hr : g.requests.size = r
    · subst hr
      rw [Array.getElem?_eq_none (Nat.le_refl _), Array.getElem?_push_size]
      exact .queue rfl rfl
    · rw [pushed _ hr]
      exact .aside nofun rfl rfl
  | @observe k standing =>
    by_cases hk : k = r
    · subst hk
      rw [standing, getElem?_put_self standing]
      exact .observe rfl rfl
    · exact elsewhere hk rfl
  | @again k standing =>
    by_cases hk : k = r
    · subst hk
      rw [standing]
      exact .stay rfl (by simp) (by simp) rfl
    · exact .aside (by simpa [handle?] using hk) rfl rfl
  | @park k parked standing =>
    by_cases hk : k = r
    · subst hk
      rw [standing, getElem?_put_self standing]
      exact .park rfl rfl
    · exact elsewhere hk rfl
  | @ignore k standing =>
    by_cases hk : k = r
    · subst hk
      rcases standing with hs | hs <;> rw [hs] <;> exact .stay rfl (by simp) (by simp) rfl
    · exact .aside (by simpa [handle?] using hk) rfl rfl
  | @leave k parked standing =>
    by_cases hk : k = r
    · subst hk
      rw [standing, getElem?_put_self standing]
      exact .leave rfl rfl
    · exact elsewhere hk rfl
  | @giveBack k g' events standing release =>
    have hlife := release.life r
    have hgranted : (GateEvent.returned k :: events).count (.granted r) =
        events.count (.granted r) := by simp
    have hwoken : (GateEvent.returned k :: events).count (.woken r) = events.count (.woken r) := by
      simp
    by_cases hk : k = r
    · subst hk
      rw [getElem?_put_self standing] at hlife
      obtain ⟨hsame, hg, hw⟩ := hlife.resolve_right (by simp)
      rw [standing, hsame]
      exact .giveBack rfl (hgranted.trans hg) (hwoken.trans hw)
    · rw [getElem?_put_ne hk] at hlife
      rcases hlife with ⟨hsame, hg, hw⟩ | ⟨parked, hbefore, hafter, hg, hw⟩
      · rw [hsame]
        exact .aside (by simpa [handle?] using hk) (hgranted.trans hg) (hwoken.trans hw)
      · rw [hbefore, hafter]
        exact .grant (by simpa [handle?] using hk) (hgranted.trans hg) (hwoken.trans hw)
  | @keep k settled calm =>
    by_cases hk : k = r
    · subst hk
      exact .stay rfl settled (fun parked hw => calm ⟨parked, hw⟩) rfl
    · exact .aside (by simpa [handle?] using hk) rfl rfl
  | finish release =>
    rcases release.life r with ⟨hsame, hg, hw⟩ | ⟨parked, hbefore, hafter, hg, hw⟩
    · rw [hsame]
      exact .aside nofun hg hw
    · rw [hbefore, hafter]
      exact .grant nofun hg hw

def Recorded (calls : List GateCall) (seen : List GateEvent) (r : Nat) : Option Standing → Prop
  | none => seen.count (.granted r) = 0 ∧ .poll r ∉ calls ∧ .drop r ∉ calls
  | some (.queued parked) =>
    seen.count (.granted r) = 0 ∧ .drop r ∉ calls ∧ (parked = true ↔ .poll r ∈ calls)
  | some .granted => seen.count (.granted r) = 1 ∧ .drop r ∉ calls
  | some .observed => seen.count (.granted r) = 1
  | some .withdrawn => seen.count (.granted r) ≤ 1 ∧ .drop r ∈ calls

theorem Recorded.grants_le_one {seen : List GateEvent} {o : Option Standing}
    (h : Recorded calls seen r o) : seen.count (.granted r) ≤ 1 := by
  cases o with
  | none => exact h.1 ▸ Nat.zero_le 1
  | some s =>
    cases s with
    | queued parked => exact h.1 ▸ Nat.zero_le 1
    | granted => exact Nat.le_of_eq h.1
    | observed => exact Nat.le_of_eq h
    | withdrawn => exact h.1

theorem Recorded.granted_of_ready {seen : List GateEvent}
    (h : Recorded calls seen r g.requests[r]?) (ready : (g.poll r).2 = true) :
    .granted r ∈ seen := by
  cases hs : g.requests[r]? with
  | none => simp [poll, hs] at ready
  | some s =>
    rw [hs] at h
    cases s with
    | queued parked => simp [poll, hs] at ready
    | granted => exact List.count_pos_iff.mp (h.1 ▸ Nat.one_pos)
    | observed => exact List.count_pos_iff.mp (Eq.symm h ▸ Nat.one_pos)
    | withdrawn => simp [poll, hs] at ready

theorem Life.recorded {seen : List GateEvent} {o o' : Option Standing}
    (held : c.handle? = some r → o ≠ none) (life : Life r c events o o')
    (h : Recorded calls seen r o) : Recorded (calls ++ [c]) (seen ++ events) r o' := by
  have hcount : (seen ++ events).count (.granted r) =
      seen.count (.granted r) + events.count (.granted r) := List.count_append
  cases life with
  | @aside s other grants wakes =>
    have hp : GateCall.poll r ∈ calls ++ [c] ↔ .poll r ∈ calls := by
      refine ⟨fun hmem => ?_, List.mem_append_left _⟩
      refine (List.mem_append.mp hmem).resolve_right fun hc => other ?_
      rw [← List.mem_singleton.mp hc]
      rfl
    have hd : GateCall.drop r ∈ calls ++ [c] ↔ .drop r ∈ calls := by
      refine ⟨fun hmem => ?_, List.mem_append_left _⟩
      refine (List.mem_append.mp hmem).resolve_right fun hc => other ?_
      rw [← List.mem_singleton.mp hc]
      rfl
    rw [grants, Nat.add_zero] at hcount
    unfold Recorded
    rw [hcount, hp, hd]
    exact h
  | enter call grants wakes =>
    obtain ⟨hg, -, hd⟩ := h
    exact ⟨by omega, by simp [call, hd]⟩
  | queue call quiet =>
    obtain ⟨hg, hp, hd⟩ := h
    exact ⟨by simp [quiet, hg], by simp [call, hd], by simp [call, hp]⟩
  | grant other grants wakes =>
    obtain ⟨hg, hd, -⟩ := h
    refine ⟨by omega, fun hmem => ?_⟩
    rcases List.mem_append.mp hmem with hmem | hmem
    · exact hd hmem
    · exact other (by rw [← List.mem_singleton.mp hmem]; rfl)
  | observe call quiet =>
    have hone : seen.count (.granted r) = 1 := h.1
    show _ = 1
    simp [quiet, hone]
  | park call quiet =>
    obtain ⟨hg, hd, -⟩ := h
    exact ⟨by simp [quiet, hg], by simp [call, hd], by simp [call]⟩
  | leave call quiet => exact ⟨by simp [quiet, h.1], by simp [call]⟩
  | giveBack call grants wakes =>
    obtain ⟨hg, hd⟩ := h
    exact ⟨by omega, by simp [call]⟩
  | @stay s own settled calm quiet =>
    cases o with
    | none => exact absurd rfl (held own)
    | some s =>
      cases s with
      | queued parked => exact absurd rfl (calm parked)
      | granted => exact absurd rfl settled
      | observed =>
        have hone : seen.count (.granted r) = 1 := h
        show _ = 1
        simp [quiet, hone]
      | withdrawn => exact ⟨by simpa [quiet] using h.1, List.mem_append_left _ h.2⟩

theorem Release.size {line : List Nat} (release : g.Release line g' events) :
    g'.requests.size = g.requests.size := by
  cases release with
  | handOver => exact size_put ..
  | free | complain => rfl

theorem Move.size (move : g.Move c g' ready events) :
    g'.requests.size = g.requests.size + [c].count .start := by
  cases move with
  | enter | queue => exact Array.size_push _
  | observe | park | leave => exact size_put ..
  | giveBack standing release => exact release.size.trans (size_put ..)
  | finish release => exact release.size
  | again | ignore | keep => rfl

theorem size_of_run (capacity : Nat) (calls : List GateCall) :
    (serve.after (opened capacity) calls).requests.size = calls.count .start := by
  refine serve.run_induction (P := fun calls _ g => g.requests.size = calls.count .start) rfl
    (fun calls h g c ih => ?_) calls
  rw [(move_serve g c).size, ih, List.count_append]

/-- In a proper run each request stands as the calls and what they have caused say. -/
theorem recorded_of_run (capacity : Nat) (proper : Proper calls) (r : Nat) :
    Recorded calls (happened (serve.history (opened capacity) calls)) r
      (serve.after (opened capacity) calls).requests[r]? := by
  induction calls using List.reverseRecOn with
  | nil =>
    rw [Service.after, List.foldl_nil, opened, Array.getElem?_eq_none (Nat.zero_le r)]
    exact ⟨rfl, by simp, by simp⟩
  | append_singleton calls c ih =>
    obtain ⟨hcalls, hheld⟩ := proper_concat_iff.mp proper
    have hlife := (move_serve (serve.after (opened capacity) calls) c).life r
    rw [Service.history_concat, Service.after_concat, happened_append, happened_singleton]
    refine hlife.recorded (fun hc hnone => ?_) (ih hcalls)
    have hsize := size_of_run capacity calls
    have hmade : r < calls.count .start := (hheld r hc).1
    rw [Array.getElem?_eq_none_iff, hsize] at hnone
    omega

/-- A request is granted only when nobody who came earlier waits. -/
theorem Release.first (h : g.Orderly) (release : g.Release g.line g' events)
    (granted : .granted r ∈ events) : r < g.requests.size ∧ ∀ k < r, ¬ g.Waits k := by
  generalize hline : g.line = line at release
  cases release with
  | @handOver gone k parked rest passed waits =>
    have hr : r = k := by cases parked <;> simpa using granted
    subst hr
    refine ⟨Gate.lt_size waits, fun j hj hw => ?_⟩
    have hsorted := h.sorted
    have hmem := h.inLine j hw
    rw [hline, List.pairwise_append, List.pairwise_cons] at hsorted
    rw [hline, List.mem_append, List.mem_cons] at hmem
    rcases hmem with hgone | rfl | hrest
    · exact passed j hgone hw
    · exact Nat.lt_irrefl _ hj
    · exact Nat.lt_asymm hj (hsorted.2.1.1 j hrest)
  | free => simp at granted
  | complain => simp at granted

theorem Move.first (h : g.Orderly) (move : g.Move c g' ready events)
    (granted : .granted r ∈ events) : r ≤ g.requests.size ∧ ∀ k < r, ¬ g.Waits k := by
  cases move with
  | enter room =>
    have hline := h.line_eq_nil room
    have hr : r = g.requests.size := by simpa using granted
    refine ⟨Nat.le_of_eq hr, fun k _ hw => ?_⟩
    simpa [hline] using h.inLine k hw
  | @giveBack d g' events standing release =>
    have hput : (g.put d .withdrawn).Orderly :=
      h.settle (by simp) (.inl (h.not_mem_line standing (.inl rfl)))
    obtain ⟨hr, hfirst⟩ := release.first hput (by simpa using granted)
    refine ⟨by simpa using Nat.le_of_lt hr, fun k hk hw => hfirst k hk ?_⟩
    refine (waits_put_iff (by simp)).mpr ⟨?_, hw⟩
    rintro rfl
    obtain ⟨parked, hw⟩ := hw
    simp [standing] at hw
  | finish release =>
    obtain ⟨hr, hfirst⟩ := release.first h granted
    exact ⟨Nat.le_of_lt hr, hfirst⟩
  | queue | observe | again | park | ignore | leave | keep => simp at granted

/-- A request whose handle is held waits and has not been granted, or has been granted and is
found so by a poll. -/
theorem standing_of_held (capacity : Nat) (proper : Proper calls) (held : Held calls r) :
    let g := serve.after (opened capacity) calls
    let seen := happened (serve.history (opened capacity) calls)
    (g.Waits r ∧ (g.poll r).2 = false ∧ .granted r ∉ seen) ∨
      (g.poll r).2 = true ∧ .granted r ∈ seen := by
  intro g seen
  have hr : Recorded calls seen r g.requests[r]? := recorded_of_run capacity proper r
  have hlt : r < g.requests.size := (size_of_run capacity calls).symm ▸ held.1
  obtain ⟨s, hs⟩ : ∃ s, g.requests[r]? = some s := ⟨_, Array.getElem?_eq_getElem hlt⟩
  rw [hs] at hr
  cases s with
  | queued parked =>
    refine .inl ⟨⟨parked, hs⟩, by simp [poll, hs], List.count_eq_zero.mp hr.1⟩
  | granted =>
    have hone : seen.count (.granted r) = 1 := hr.1
    exact .inr ⟨by simp [poll, hs], List.count_pos_iff.mp (by omega)⟩
  | observed =>
    have hone : seen.count (.granted r) = 1 := hr
    exact .inr ⟨by simp [poll, hs], List.count_pos_iff.mp (by omega)⟩
  | withdrawn => exact absurd hr.2 held.2

theorem Life.wakes {o o' : Option Standing} (life : Life r c events o o')
    {seen : List GateEvent} (h : Recorded calls seen r o) :
    events.count (.woken r) = if .granted r ∈ events ∧ .poll r ∈ calls then 1 else 0 := by
  have quietly (hg : events.count (.granted r) = 0) (hw : events.count (.woken r) = 0) :
      events.count (.woken r) = if .granted r ∈ events ∧ .poll r ∈ calls then 1 else 0 := by
    rw [if_neg fun hmem => List.count_eq_zero.mp hg hmem.1, hw]
  cases life with
  | enter call grants wakes => rw [if_neg fun hmem => h.2.1 hmem.2, wakes]
  | @grant parked other grants wakes =>
    have hmem : .granted r ∈ events := List.count_pos_iff.mp (by omega)
    have hpolled : parked = true ↔ .poll r ∈ calls := h.2.2
    rw [wakes]
    by_cases hp : GateCall.poll r ∈ calls
    · rw [if_pos ⟨hmem, hp⟩, hpolled.mpr hp]
      rfl
    · rw [if_neg fun hboth => hp hboth.2]
      cases parked with
      | false => rfl
      | true => exact absurd (hpolled.mp rfl) hp
  | aside other grants wakes => exact quietly grants wakes
  | giveBack call grants wakes => exact quietly grants wakes
  | queue _ quiet | observe _ quiet | park _ quiet | leave _ quiet | stay _ _ _ quiet =>
    exact quietly (by simp [quiet]) (by simp [quiet])

/-- Requests are granted in the order in which they were made, except for those dropped before,
and while somebody stands in line no unit is free. -/
theorem first_come_first_served (capacity : Nat) (proper : Proper (calls ++ [c])) :
    let g := serve.after (opened capacity) calls
    let seen := happened (serve.history (opened capacity) calls)
    let now := (serve.entry g c).events
    (∀ r, .granted r ∈ now → ∀ k < r, .granted k ∈ seen ∨ .drop k ∈ calls) ∧
    (g.line ≠ [] → g.admitted = capacity) ∧
    (∀ r, Held calls r → .granted r ∉ seen → r ∈ g.line) ∧
    grants now ≤ 1 ∧ (∀ r, (seen ++ now).count (.granted r) ≤ 1) ∧
    (∀ r, Held calls r → ((g.poll r).2 = true ↔ .granted r ∈ seen)) ∧
    (∀ r, Held (calls ++ [c]) r → (g.poll r).2 = true → ((serve g c).1.poll r).2 = true) ∧
    ∀ r, now.count (.woken r) = if .granted r ∈ now ∧ .poll r ∈ calls then 1 else 0 := by
  intro g seen now
  obtain ⟨hcalls, hheld⟩ := proper_concat_iff.mp proper
  have hsize : g.requests.size = calls.count .start := size_of_run capacity calls
  have hrec : ∀ r, Recorded calls seen r g.requests[r]? := recorded_of_run capacity hcalls
  have horder : g.Orderly := orderly_of_run capacity calls
  have hmove : g.Move c (serve g c).1 (serve g c).2.1 now := move_serve g c
  refine ⟨fun r hr k hk => ?_, fun hne => ?_, fun r hr hnew => ?_, hmove.grants_le_one, fun r => ?_,
    fun r hr => ?_, fun r hr hready => ?_, fun r => (hmove.life r).wakes (hrec r)⟩
  · obtain ⟨hle, hfirst⟩ := hmove.first horder hr
    have hk' := hrec k
    have hlt : k < g.requests.size := by omega
    obtain ⟨s, hs⟩ : ∃ s, g.requests[k]? = some s := ⟨_, Array.getElem?_eq_getElem hlt⟩
    rw [hs] at hk'
    cases s with
    | queued parked => exact absurd ⟨parked, hs⟩ (hfirst k hk)
    | granted =>
      have hone : seen.count (.granted k) = 1 := hk'.1
      exact .inl (List.count_pos_iff.mp (by omega))
    | observed =>
      have hone : seen.count (.granted k) = 1 := hk'
      exact .inl (List.count_pos_iff.mp (by omega))
    | withdrawn => exact .inr hk'.2
  · rw [horder.full hne]
    exact (room_of_run capacity calls).2
  · rcases standing_of_held capacity hcalls hr with ⟨hwaits, -⟩ | ⟨-, hgranted⟩
    · exact horder.inLine r hwaits
    · exact absurd hgranted hnew
  · have hone := (recorded_of_run capacity proper r).grants_le_one
    rwa [Service.history_concat, happened_append, happened_singleton] at hone
  · rcases standing_of_held capacity hcalls hr with ⟨-, hpending, hnew⟩ | ⟨hready, hgranted⟩
    · simp [g, seen, hpending, hnew]
    · simp [g, seen, hready, hgranted]
  · have hgranted : .granted r ∈ happened (serve.history (opened capacity) (calls ++ [c])) := by
      rw [Service.history_concat, happened_append]
      exact List.mem_append_left _ ((hrec r).granted_of_ready hready)
    rcases standing_of_held capacity proper hr with ⟨-, -, hnew⟩ | ⟨hready', -⟩
    · exact absurd hgranted hnew
    · rwa [Service.after_concat] at hready'

def waiting : List GateCall := [.start, .start, .start, .poll 2, .drop 1]

theorem first_come_first_served_waiting : Proper (waiting ++ [.drop 0]) ∧
    (serve.entry (serve.after (opened 1) waiting) (.drop 0)).events =
      [.returned 0, .skipped 1, .granted 2, .woken 2] ∧
    (∀ k < 2, .granted k ∈ happened (serve.history (opened 1) waiting) ∨ .drop k ∈ waiting) ∧
    (serve.entry (serve.after (opened 1) waiting) (.drop 0)).events.count (.woken 2) = 1 := by
  have proper : Proper (waiting ++ [.drop 0]) := by decide
  have hnow : (serve.entry (serve.after (opened 1) waiting) (.drop 0)).events =
      [.returned 0, .skipped 1, .granted 2, .woken 2] := rfl
  obtain ⟨horder, -, -, -, -, -, -, hwoken⟩ := first_come_first_served 1 proper
  refine ⟨proper, hnow, horder 2 (by simp [hnow]), (hwoken 2).trans ?_⟩
  rw [hnow]
  rfl

end HopTrace.Gate
