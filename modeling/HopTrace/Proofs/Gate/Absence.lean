import HopTrace.Proofs.Gate.Precedence
import HopTrace.Proofs.Gate.Prompt

/-!
# Requests that leave no trace

A request that is never granted may as well not have been made: take its calls
out of a run, number the later requests anew, and the rest of the history is
that of a run. To drop a grant that nobody has observed is the same for the
others as to observe it and to give the unit back.
-/

namespace HopTrace

def renumber (gone r : Nat) : Nat := if gone < r then r - 1 else r

theorem renumber_inj {gone j k : Nat} (hj : j ≠ gone) (hk : k ≠ gone) :
    renumber gone j = renumber gone k ↔ j = k := by
  unfold renumber
  split <;> split <;> omega

def GateCall.map (f : Nat → Nat) : GateCall → GateCall
  | .start => .start
  | .poll r => .poll (f r)
  | .drop r => .drop (f r)
  | .finished => .finished

def GateEvent.map (f : Nat → Nat) : GateEvent → GateEvent
  | .granted r => .granted (f r)
  | .woken r => .woken (f r)
  | .skipped r => .skipped (f r)
  | .returned r => .returned (f r)
  | .unbalanced => .unbalanced

def GateEntry.map (f : Nat → Nat) (e : GateEntry) : GateEntry :=
  { e with call := e.call.map f, about := e.about.map f, events := e.events.map (·.map f) }

def expunge (gone : Nat) (h : List GateEntry) : List GateEntry :=
  (h.filter (·.about ≠ some gone)).map (·.map (renumber gone))

theorem expunge_cons_self {gone : Nat} {e : GateEntry} {h : List GateEntry}
    (self : e.about = some gone) : expunge gone (e :: h) = expunge gone h := by
  simp [expunge, self]

theorem expunge_cons_other {gone : Nat} {e : GateEntry} {h : List GateEntry}
    (other : e.about ≠ some gone) :
    expunge gone (e :: h) = e.map (renumber gone) :: expunge gone h := by
  simp [expunge, other]

theorem isSkip_map (f : Nat → Nat) (e : GateEvent) : (e.map f).isSkip = e.isSkip := by
  cases e <;> rfl

theorem visible_map (f : Nat → Nat) (e : GateEntry) : (e.map f).visible = e.visible.map f := by
  unfold GateEntry.visible GateEntry.map
  simp only [List.filter_map, Function.comp_def, isSkip_map]

theorem visible_expunge (gone : Nat) (h : List GateEntry) :
    (expunge gone h).map (·.visible) = expunge gone (h.map (·.visible)) := by
  induction h with
  | nil => rfl
  | cons e h ih =>
    rw [List.map_cons]
    by_cases hself : e.about = some gone
    · rw [expunge_cons_self hself, expunge_cons_self (e := e.visible) hself, ih]
    · rw [expunge_cons_other hself, expunge_cons_other (e := e.visible) hself, List.map_cons,
        visible_map, ih]

theorem mem_happened_of_visible {h : List GateEntry} {e : GateEvent}
    (he : e ∈ happened (h.map (·.visible))) : e ∈ happened h := by
  obtain ⟨x, hx, hex⟩ := List.mem_flatMap.mp he
  obtain ⟨y, hy, rfl⟩ := List.mem_map.mp hx
  exact List.mem_flatMap.mpr ⟨y, hy, (List.mem_filter.mp hex).1⟩

namespace Gate

/-- Two gates with prompt lines, the second of which has never seen a request that the first one
has not granted. -/
structure Lacks (gone : Nat) (g g' : Gate) : Prop where
  capacity : g'.capacity = g.capacity
  admitted : g'.admitted = g.admitted
  size : g'.requests.size = renumber gone g.requests.size
  others : ∀ k ≠ gone, g'.requests[renumber gone k]? = g.requests[k]?
  line : g'.line = (g.line.filter (· ≠ gone)).map (renumber gone)
  ungranted : g.requests[gone]? ≠ some .granted

variable {g g' : Gate} {c : GateCall} {gone r : Nat} {s : Standing}

theorem Lacks.put (h : g.Lacks gone g') (hr : r ≠ gone) :
    (g.put r s).Lacks gone (g'.put (renumber gone r) s) where
  capacity := h.capacity
  admitted := h.admitted
  size := by rw [size_put, size_put, h.size]
  others k hk := by
    by_cases hkr : k = r
    · subst hkr
      have hothers := h.others k hk
      cases hs : g.requests[k]? with
      | some s' =>
        rw [hs] at hothers
        rw [getElem?_put_self hs, getElem?_put_self hothers]
      | none =>
        rw [hs] at hothers
        rw [getElem?_put_of_none hs, getElem?_put_of_none hothers]
    · have hne : renumber gone r ≠ renumber gone k := fun he =>
        hkr ((renumber_inj hr hk).mp he).symm
      rw [getElem?_put_ne (Ne.symm hkr), getElem?_put_ne hne]
      exact h.others k hk
  line := h.line
  ungranted := by
    rw [getElem?_put_ne hr]
    exact h.ungranted

/-- What the request itself does in line is not seen. -/
theorem Lacks.own (h : g.Lacks gone g') (ungranted : s ≠ .granted) :
    (g.put gone s).Lacks gone g' where
  capacity := h.capacity
  admitted := h.admitted
  size := by rw [size_put, h.size]
  others k hk := by
    rw [getElem?_put_ne (Ne.symm hk)]
    exact h.others k hk
  line := h.line
  ungranted := by
    cases hs : g.requests[gone]? with
    | some s' =>
      rw [getElem?_put_self hs]
      simpa using ungranted
    | none => simp [getElem?_put_of_none hs]

theorem Lacks.withLine (h : g.Lacks gone g') {line line' : List Nat}
    (hline : line' = (line.filter (· ≠ gone)).map (renumber gone)) :
    ({ g with line } : Gate).Lacks gone { g' with line := line' } :=
  ⟨h.capacity, h.admitted, h.size, h.others, hline, h.ungranted⟩

theorem Lacks.withAdmitted (h : g.Lacks gone g') (n : Nat) :
    ({ g with admitted := n } : Gate).Lacks gone { g' with admitted := n } :=
  ⟨h.capacity, rfl, h.size, h.others, h.line, h.ungranted⟩

theorem Lacks.push (h : g.Lacks gone g') (hsize : g.requests.size ≠ gone) :
    ({ g with requests := g.requests.push s } : Gate).Lacks gone
      { g' with requests := g'.requests.push s } where
  capacity := h.capacity
  admitted := h.admitted
  size := by
    rw [Array.size_push, Array.size_push, h.size]
    unfold renumber
    split <;> split <;> omega
  others k hk := by
    rw [Array.getElem?_push, Array.getElem?_push, h.size]
    by_cases hks : k = g.requests.size
    · rw [if_pos hks, if_pos (by rw [hks])]
    · rw [if_neg hks, if_neg (mt (renumber_inj hk hsize).mp hks)]
      exact h.others k hk
  line := h.line
  ungranted := by
    rw [Array.getElem?_push, if_neg (Ne.symm hsize)]
    exact h.ungranted

theorem Lacks.pushOwn (h : g.Lacks gone g') (hsize : g.requests.size = gone)
    (ungranted : s ≠ .granted) :
    ({ g with requests := g.requests.push s } : Gate).Lacks gone g' where
  capacity := h.capacity
  admitted := h.admitted
  size := by
    rw [Array.size_push, h.size]
    unfold renumber
    split <;> split <;> omega
  others k hk := by
    rw [Array.getElem?_push, if_neg (hsize ▸ hk)]
    exact h.others k hk
  line := h.line
  ungranted := by
    rw [Array.getElem?_push, if_pos hsize.symm]
    simpa using ungranted

theorem Lacks.start (h : g.Lacks gone g') (hsize : g.requests.size ≠ gone) :
    g.start.1.Lacks gone g'.start.1 ∧ g'.start.2 = g.start.2.map (·.map (renumber gone)) := by
  by_cases hroom : g.admitted < g.capacity
  · have hroom' : g'.admitted < g'.capacity := by rwa [h.admitted, h.capacity]
    rw [start_of_room hroom, start_of_room hroom', h.admitted, h.size]
    exact ⟨(h.push hsize).withAdmitted (g.admitted + 1), rfl⟩
  · have hfull := Nat.le_of_not_lt hroom
    have hfull' : g'.capacity ≤ g'.admitted := by rwa [h.admitted, h.capacity]
    rw [start_of_full hfull, start_of_full hfull']
    refine ⟨(h.push hsize).withLine ?_, rfl⟩
    rw [List.filter_append, List.map_append, h.line, h.size]
    simp [hsize]

theorem Lacks.startOwn (h : g.Lacks gone g') (hsize : g.requests.size = gone)
    (ungranted : .granted gone ∉ g.start.2) : g.start.1.Lacks gone g' := by
  by_cases hroom : g.admitted < g.capacity
  · rw [start_of_room hroom] at ungranted
    exact absurd (by simp [hsize]) ungranted
  · rw [start_of_full (Nat.le_of_not_lt hroom)]
    have hline : g'.line = ((g.line ++ [g.requests.size]).filter (· ≠ gone)).map
        (renumber gone) := by
      rw [h.line, List.filter_append]
      simp [hsize]
    exact (h.pushOwn hsize (by simp)).withLine hline

theorem Lacks.poll (h : g.Lacks gone g') (hr : r ≠ gone) :
    (g.poll r).1.Lacks gone (g'.poll (renumber gone r)).1 ∧
      (g'.poll (renumber gone r)).2 = (g.poll r).2 := by
  unfold Gate.poll
  rw [h.others r hr]
  split
  · exact ⟨h.put hr, rfl⟩
  · exact ⟨h, rfl⟩
  · exact ⟨h.put hr, rfl⟩
  · exact ⟨h, rfl⟩

theorem Lacks.pollOwn (h : g.Lacks gone g') : (g.poll gone).1.Lacks gone g' := by
  unfold Gate.poll
  split
  · exact h.own (by simp)
  · exact h
  · exact h.own (by simp)
  · exact h

theorem Lacks.releaseFirst (h : g.Lacks gone g') (ungranted : .granted gone ∉ g.releaseFirst.2) :
    g.releaseFirst.1.Lacks gone g'.releaseFirst.1 ∧
      g'.releaseFirst.2 = g.releaseFirst.2.map (·.map (renumber gone)) := by
  cases hline : g.line with
  | nil =>
    have hline' : g'.line = [] := by rw [h.line, hline]; rfl
    rw [releaseFirst_nil hline, releaseFirst_nil hline', h.admitted]
    split
    · exact ⟨h, rfl⟩
    · exact ⟨h.withAdmitted _, rfl⟩
  | cons r rest =>
    rw [releaseFirst_cons hline] at ungranted
    have hr : r ≠ gone := by
      rintro rfl
      simp at ungranted
    have hline' : g'.line = renumber gone r :: (rest.filter (· ≠ gone)).map (renumber gone) := by
      rw [h.line, hline, List.filter_cons_of_pos (by simpa using hr), List.map_cons]
    rw [releaseFirst_cons hline, releaseFirst_cons hline', h.others r hr]
    refine ⟨(h.put hr).withLine rfl, ?_⟩
    split <;> rfl

theorem Lacks.dropPromptly (h : g.Lacks gone g') (hr : r ≠ gone)
    (ungranted : .granted gone ∉ (g.dropPromptly r).2) :
    (g.dropPromptly r).1.Lacks gone (g'.dropPromptly (renumber gone r)).1 ∧
      (g'.dropPromptly (renumber gone r)).2 =
        (g.dropPromptly r).2.map (·.map (renumber gone)) := by
  unfold Gate.dropPromptly at ungranted ⊢
  rw [h.others r hr]
  split
  next hs =>
    simp only [hs] at ungranted
    obtain ⟨hlacks, hevents⟩ := (h.put (s := .withdrawn) hr).releaseFirst
      fun hmem => ungranted (List.mem_cons_of_mem _ hmem)
    exact ⟨hlacks, congrArg _ hevents⟩
  next hs =>
    refine ⟨(h.put hr).withLine ?_, rfl⟩
    rw [h.line, List.filter_map, List.filter_filter, List.filter_filter]
    congr 1
    refine List.filter_congr fun k _ => ?_
    by_cases hk : k = gone
    · simp [hk]
    · simp [hk, renumber_inj hk hr]
  next => exact ⟨h, rfl⟩

theorem Lacks.dropOwn (h : g.Lacks gone g') : (g.dropPromptly gone).1.Lacks gone g' := by
  unfold Gate.dropPromptly
  split
  next hs => exact absurd hs h.ungranted
  next =>
    refine (h.own (by simp)).withLine ?_
    rw [h.line, List.filter_filter]
    simp
  next => exact h

/-- A call about another request does the same to both gates, up to the numbers. -/
theorem Lacks.other (h : g.Lacks gone g') (other : g.about c ≠ some gone)
    (ungranted : .granted gone ∉ (servePromptly g c).2.2) :
    (servePromptly g c).1.Lacks gone (servePromptly g' (c.map (renumber gone))).1 ∧
      servePromptly.entry g' (c.map (renumber gone)) =
        (servePromptly.entry g c).map (renumber gone) := by
  cases c with
  | start =>
    obtain ⟨hlacks, hevents⟩ := h.start fun he => other (congrArg some he)
    refine ⟨hlacks, ?_⟩
    simp only [Service.entry, GateEntry.map, GateCall.map, servePromptly, about, hevents,
      hlacks.admitted, h.size, Option.map_some]
  | poll r =>
    obtain ⟨hlacks, hready⟩ := h.poll fun he => other (congrArg some he)
    refine ⟨hlacks, ?_⟩
    simp only [Service.entry, GateEntry.map, GateCall.map, servePromptly, about, hready,
      hlacks.admitted, Option.map_some, List.map_nil]
  | drop r =>
    obtain ⟨hlacks, hevents⟩ := h.dropPromptly (fun he => other (congrArg some he)) ungranted
    refine ⟨hlacks, ?_⟩
    simp only [Service.entry, GateEntry.map, GateCall.map, servePromptly, about, hevents,
      hlacks.admitted, Option.map_some]
  | finished =>
    obtain ⟨hlacks, hevents⟩ := h.releaseFirst ungranted
    refine ⟨hlacks, ?_⟩
    simp only [Service.entry, GateEntry.map, GateCall.map, servePromptly, about, hevents,
      hlacks.admitted, Option.map_none]

/-- A call about the request itself changes nothing that the second gate has. -/
theorem Lacks.self (h : g.Lacks gone g') (self : g.about c = some gone)
    (ungranted : .granted gone ∉ (servePromptly g c).2.2) :
    (servePromptly g c).1.Lacks gone g' := by
  cases c with
  | start => exact h.startOwn (Option.some.inj self) ungranted
  | poll r =>
    obtain rfl := Option.some.inj self
    exact h.pollOwn
  | drop r =>
    obtain rfl := Option.some.inj self
    exact h.dropOwn
  | finished => contradiction

theorem Lacks.history (h : g.Lacks gone g') {calls : List GateCall}
    (ungranted : .granted gone ∉ happened (servePromptly.history g calls)) :
    servePromptly.history g' ((expunge gone (servePromptly.history g calls)).map (·.call)) =
      expunge gone (servePromptly.history g calls) := by
  induction calls generalizing g g' with
  | nil => rfl
  | cons c rest ih =>
    have hsplit : happened (servePromptly.history g (c :: rest)) =
        (servePromptly g c).2.2 ++ happened (servePromptly.history (servePromptly g c).1 rest) :=
      List.flatMap_cons ..
    rw [hsplit, List.mem_append, not_or] at ungranted
    obtain ⟨hnow, hlater⟩ := ungranted
    rw [Service.history]
    by_cases hself : g.about c = some gone
    · rw [expunge_cons_self hself]
      exact ih (h.self hself hnow) hlater
    · obtain ⟨hlacks, hentry⟩ := h.other hself hnow
      rw [expunge_cons_other hself, ← hentry, List.map_cons]
      exact congrArg _ (ih hlacks hlater)

theorem lacks_opened (capacity gone : Nat) : (opened capacity).Lacks gone (opened capacity) where
  capacity := rfl
  admitted := rfl
  size := rfl
  others k _ := by simp [opened]
  line := rfl
  ungranted := by simp [opened]

/-! ## A grant dropped unobserved -/

theorem put_put_comm {k : Nat} {s' : Standing} (h : r ≠ k) :
    (g.put r s).put k s' = (g.put k s').put r s := by
  unfold Gate.put
  rw [Array.setIfInBounds_comm _ _ h]

def Settled (g : Gate) (r : Nat) : Prop := r < g.requests.size ∧ ¬ g.Waits r

theorem waits_put_ne_iff {k : Nat} (h : r ≠ k) : (g.put r s).Waits k ↔ g.Waits k := by
  unfold Waits
  rw [getElem?_put_ne h]

/-- How a settled request stands does not matter to the line. -/
theorem handOver_put (hr : g.Settled r) (settled : ∀ parked, s ≠ .queued parked)
    (line : List Nat) :
    (g.put r s).handOver line = ((g.handOver line).1.put r s, (g.handOver line).2) := by
  induction line with
  | nil =>
    unfold Gate.handOver
    by_cases hz : g.admitted = 0
    · rw [if_pos hz, if_pos (show (g.put r s).admitted = 0 from hz)]
      rfl
    · rw [if_neg hz, if_neg (show (g.put r s).admitted ≠ 0 from hz)]
      rfl
  | cons k rest ih =>
    have skips {f : Gate} (hf : ¬ f.Waits k) :
        f.handOver (k :: rest) = ((f.handOver rest).1, .skipped k :: (f.handOver rest).2) := by
      rw [Gate.handOver]
      split
      next parked hs => exact absurd ⟨parked, hs⟩ hf
      next => rfl
    by_cases hk : g.Waits k
    · have hne : r ≠ k := fun he => hr.2 (he ▸ hk)
      obtain ⟨parked, hs⟩ := hk
      have hs' := (getElem?_put_ne (s := s) hne).trans hs
      rw [Gate.handOver, Gate.handOver, hs, hs']
      exact congrArg (fun f : Gate => ({ f with line := rest }, _)) (put_put_comm hne)
    · have hk' : ¬ (g.put r s).Waits k := fun hw => hk ((waits_put_iff settled).mp hw).2
      rw [skips hk, skips hk', ih]

theorem start_put (made : r < g.requests.size) :
    (g.put r s).start = (g.start.1.put r s, g.start.2) := by
  have hpush (a : Standing) : (g.put r s).requests.push a =
      (g.requests.push a).setIfInBounds r s := by
    unfold put
    have hlt : r < (g.requests.push a).size := by
      rw [Array.size_push]
      exact Nat.lt_succ_of_lt made
    rw [Array.setIfInBounds_def, Array.setIfInBounds_def, dif_pos made, dif_pos hlt,
      Array.set_push, dif_pos made]
  by_cases hroom : g.admitted < g.capacity
  · rw [start_of_room hroom, start_of_room (g := g.put r s) hroom, hpush, size_put]
    rfl
  · have hfull := Nat.le_of_not_lt hroom
    rw [start_of_full hfull, start_of_full (g := g.put r s) hfull, hpush, size_put]
    rfl

theorem poll_put {k : Nat} (hk : r ≠ k) :
    (g.put r s).poll k = ((g.poll k).1.put r s, (g.poll k).2) := by
  unfold poll
  rw [getElem?_put_ne hk]
  split
  · rw [put_put_comm hk]
  · rfl
  · rw [put_put_comm hk]
  · rfl

theorem finished_put (hr : g.Settled r) (settled : ∀ parked, s ≠ .queued parked) :
    (g.put r s).finished = (g.finished.1.put r s, g.finished.2) :=
  handOver_put hr settled g.line

theorem drop_put {k : Nat} (hr : g.Settled r) (settled : ∀ parked, s ≠ .queued parked)
    (hk : r ≠ k) : (g.put r s).drop k = ((g.drop k).1.put r s, (g.drop k).2) := by
  unfold drop
  rw [getElem?_put_ne hk]
  split
  · have hr' : (g.put k .withdrawn).Settled r :=
      ⟨by rw [size_put]; exact hr.1, (waits_put_ne_iff (Ne.symm hk)).not.mpr hr.2⟩
    rw [put_put_comm hk, finished_put hr' settled]
  · rw [put_put_comm hk]
  · rfl

/-- How a settled request stands does not matter to any call that is not about it. -/
theorem serve_put (hr : g.Settled r) (settled : ∀ parked, s ≠ .queued parked)
    (other : c.handle? ≠ some r) :
    serve (g.put r s) c = ((serve g c).1.put r s, (serve g c).2) := by
  cases c with
  | start => simp only [serve, start_put hr.1]
  | poll k => simp only [serve, poll_put fun he => other (congrArg some he.symm)]
  | drop k => simp only [serve, drop_put hr settled fun he => other (congrArg some he.symm)]
  | finished => simp only [serve, finished_put hr settled]

/-- A settled request stays so. -/
theorem Settled.serve (hr : g.Settled r) (other : c.handle? ≠ some r) :
    (serve g c).1.Settled r := by
  have hmove := move_serve g c
  refine ⟨by rw [hmove.size]; exact Nat.lt_add_right _ hr.1, ?_⟩
  rintro ⟨parked, hw⟩
  have hlife := hmove.life r
  obtain ⟨standing, hbefore⟩ : ∃ standing, g.requests[r]? = some standing :=
    ⟨_, Array.getElem?_eq_getElem hr.1⟩
  rw [hw] at hlife
  generalize hs : g.requests[r]? = o at hlife hbefore
  cases hlife with
  | aside => exact hr.2 ⟨parked, hs⟩
  | queue => contradiction
  | park call => exact other (by rw [call]; rfl)
  | stay own => exact other own

theorem history_put (hr : g.Settled r) (settled : ∀ parked, s ≠ .queued parked)
    {calls : List GateCall} (others : ∀ c ∈ calls, c.handle? ≠ some r) :
    serve.history (g.put r s) calls = serve.history g calls := by
  induction calls generalizing g with
  | nil => rfl
  | cons c rest ih =>
    have hc := others c (List.mem_cons_self ..)
    have hserve := serve_put hr settled hc
    have habout : (g.put r s).about c = g.about c := by
      cases c with
      | start => exact congrArg some (size_put ..)
      | poll k | drop k | finished => rfl
    have hentry : serve.entry (g.put r s) c = serve.entry g c := by
      unfold Service.entry
      rw [hserve, habout]
      rfl
    rw [Service.history, Service.history, hentry, hserve]
    exact congrArg _ (ih (hr.serve hc) fun c' hc' => others c' (List.mem_cons_of_mem _ hc'))

theorem settled_of_granted (granted : g.requests[r]? = some .granted) : g.Settled r := by
  refine ⟨lt_size granted, ?_⟩
  rintro ⟨parked, hw⟩
  simp [granted] at hw

/-- To drop a grant that nobody has observed is to observe it and to give the unit back, but for
the standing of that request. -/
theorem drop_of_granted (granted : g.requests[r]? = some .granted) :
    serve g (.drop r) =
      (g.finished.1.put r .withdrawn, false, .returned r :: g.finished.2) ∧
    serve (serve g (.poll r)).1 .finished =
      (g.finished.1.put r .observed, false, g.finished.2) := by
  have hr := settled_of_granted granted
  constructor
  · simp only [serve, drop, granted, finished_put hr (s := .withdrawn) (by simp)]
  · simp only [serve, poll, granted, finished_put hr (s := .observed) (by simp)]

/-! ## Requests that have left the line -/

theorem mem_happened_of_standing (capacity : Nat) (calls : List GateCall) (r : Nat) :
    let standing := (serve.after (opened capacity) calls).requests[r]?
    standing = some .granted ∨ standing = some .observed →
      .granted r ∈ happened (serve.history (opened capacity) calls) := by
  refine serve.run_induction (P := fun _ h g =>
    g.requests[r]? = some .granted ∨ g.requests[r]? = some .observed → .granted r ∈ happened h)
    ?_ (fun calls h g c ih hafter => ?_) calls
  · rw [opened, Array.getElem?_eq_none (Nat.zero_le r)]
    simp
  have hlife := (move_serve g c).life r
  rw [happened_append, happened_singleton, List.mem_append]
  generalize g.requests[r]? = before at hlife ih
  generalize (serve g c).1.requests[r]? = after at hlife hafter
  cases hlife with
  | aside | stay => exact .inl (ih hafter)
  | observe => exact .inl (ih (.inl rfl))
  | enter call grants | grant other grants =>
    exact .inr (List.count_pos_iff.mp (grants ▸ Nat.one_pos))
  | queue | park | leave | giveBack => simp at hafter

theorem serve_of_withdrawn (gone : g.requests[r]? = some .withdrawn) (c : GateCall) :
    (serve g c).1.requests[r]? = some .withdrawn ∧ .granted r ∉ (serve.entry g c).events := by
  have hlife : Life r c (serve.entry g c).events g.requests[r]? (serve g c).1.requests[r]? :=
    (move_serve g c).life r
  rw [gone] at hlife
  generalize (serve g c).1.requests[r]? = after at hlife ⊢
  cases hlife with
  | aside other grants => exact ⟨rfl, List.count_eq_zero.mp grants⟩
  | stay own settled calm quiet =>
    rw [quiet]
    exact ⟨rfl, List.not_mem_nil⟩

theorem not_granted_of_withdrawn (gone : g.requests[r]? = some .withdrawn)
    (calls : List GateCall) : .granted r ∉ happened (serve.history g calls) := by
  induction calls generalizing g with
  | nil => exact List.not_mem_nil
  | cons c rest ih =>
    obtain ⟨hgone, hnow⟩ := serve_of_withdrawn gone c
    rw [Service.history, happened, List.flatMap_cons, List.mem_append]
    exact not_or.mpr ⟨hnow, ih hgone⟩

/-- A request that has left the line is not granted any more. -/
theorem not_granted_of_dropped (capacity : Nat) {before : List GateCall}
    (made : r < before.count .start)
    (ungranted : .granted r ∉ happened (serve.history (opened capacity) before))
    (after : List GateCall) :
    .granted r ∉ happened (serve.history (opened capacity) (before ++ .drop r :: after)) := by
  have hsize := size_of_run capacity before
  have hstanding := mem_happened_of_standing capacity before r
  rw [Service.history_append, happened_append, List.mem_append]
  generalize serve.after (opened capacity) before = g at hsize hstanding ⊢
  obtain ⟨s, hs⟩ : ∃ s, g.requests[r]? = some s :=
    ⟨_, Array.getElem?_eq_getElem (hsize ▸ made)⟩
  refine not_or.mpr ⟨ungranted, ?_⟩
  -- An ungranted request waits or is withdrawn; the drop makes it withdrawn, and it stays so.
  cases s with
  | queued parked =>
    have hserve : serve g (.drop r) = (g.put r .withdrawn, false, []) := by
      simp only [serve, drop, hs]
    have hgone : (g.put r .withdrawn).requests[r]? = some .withdrawn := getElem?_put_self hs
    rw [Service.history, happened, List.flatMap_cons, Service.entry, hserve]
    exact not_granted_of_withdrawn hgone after
  | granted => exact absurd (hstanding (.inl hs)) ungranted
  | observed => exact absurd (hstanding (.inr hs)) ungranted
  | withdrawn => exact not_granted_of_withdrawn hs _

/-- A gate that skips withdrawn requests later shows what one does whose line they leave at once.
A request that is never granted, as one that is dropped in line, leaves no trace in the history
of the others, and a grant dropped unobserved leaves that of a unit observed and given back. -/
theorem history_of_abandoned (capacity : Nat) (calls : List GateCall) :
    let h := serve.history (opened capacity) calls
    let g := serve.after (opened capacity) calls
    h.map (·.visible) = servePromptly.history (opened capacity) calls ∧
    (∀ r, .granted r ∉ happened h →
      (serve.history (opened capacity) ((expunge r h).map (·.call))).map (·.visible) =
        (expunge r h).map (·.visible)) ∧
    (∀ before after r, calls = before ++ .drop r :: after → r < before.count .start →
      .granted r ∉ happened (serve.history (opened capacity) before) → .granted r ∉ happened h) ∧
    ∀ r, g.requests[r]? = some .granted →
      (serve.entry g (.drop r)).events =
        .returned r :: (serve.entry (serve g (.poll r)).1 .finished).events ∧
      (serve.entry g (.drop r)).admitted =
        (serve.entry (serve g (.poll r)).1 .finished).admitted ∧
      ∀ more, (∀ c ∈ more, c.handle? ≠ some r) →
        serve.history (serve g (.drop r)).1 more =
          serve.history (serve (serve g (.poll r)).1 .finished).1 more := by
  intro h g
  have hprompt (calls : List GateCall) :
      (serve.history (opened capacity) calls).map (·.visible) =
        servePromptly.history (opened capacity) calls :=
    history_prompt (orderly_opened capacity) calls
  refine ⟨hprompt calls, fun r hr => ?_, fun before after r hcalls made hr => ?_, fun r hr => ?_⟩
  · have hvisible := visible_expunge r h
    have hcalls : (expunge r h).map (·.call) = (expunge r (h.map (·.visible))).map (·.call) := by
      rw [← hvisible, List.map_map]
      rfl
    have hgone : .granted r ∉ happened (servePromptly.history (opened capacity) calls) :=
      fun hmem => hr (mem_happened_of_visible (hprompt calls ▸ hmem))
    rw [hprompt, hvisible, hcalls, hprompt calls]
    exact (lacks_opened capacity r).history hgone
  · have hgone := not_granted_of_dropped capacity made hr after
    rwa [← hcalls] at hgone
  · obtain ⟨hdrop, hfinish⟩ := drop_of_granted hr
    have hsettled : g.finished.1.Settled r := (settled_of_granted hr).serve (c := .finished) nofun
    refine ⟨?_, ?_, fun more others => ?_⟩
    · simp only [Service.entry, hdrop, hfinish]
    · simp only [Service.entry, hdrop, hfinish]
      rfl
    · rw [hdrop, hfinish, history_put hsettled (by simp) others,
        history_put hsettled (by simp) others]

/-- The second of three requests has left the line, and the third is granted in the end, whether
the first is dropped or observed and given back. -/
theorem history_of_abandoned_waiting :
    .granted 1 ∉ happened (serve.history (opened 1) waiting) ∧
    (serve.history (opened 1) [.start, .start, .poll 1]).map (·.visible) =
      (expunge 1 (serve.history (opened 1) waiting)).map (·.visible) ∧
    (serve.after (opened 1) waiting).requests[0]? = some .granted ∧
    serve.history (serve (serve.after (opened 1) waiting) (.drop 0)).1 [.poll 2] =
      serve.history (serve (serve (serve.after (opened 1) waiting) (.poll 0)).1 .finished).1
        [.poll 2] := by
  have hgranted : (serve.after (opened 1) waiting).requests[0]? = some .granted := rfl
  obtain ⟨-, habsent, hleft, hdropped⟩ := history_of_abandoned 1 waiting
  have hgone : .granted 1 ∉ happened (serve.history (opened 1) waiting) :=
    hleft [.start, .start, .start, .poll 2] [] 1 rfl (by decide) (by decide)
  exact ⟨hgone, habsent 1 hgone, hgranted, (hdropped 0 hgranted).2.2 [.poll 2] (by decide)⟩

end Gate

end HopTrace
