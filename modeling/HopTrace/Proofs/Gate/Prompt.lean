import HopTrace.Proofs.Gate.Line

/-!
# A gate with a prompt line

Here a request that is dropped in line leaves the line at once, so that a unit
given back goes to whoever stands first. A gate that skips withdrawn requests
later cannot be told from it: its line, without those that do not wait, is the
prompt one, and every call is answered alike.
-/

namespace HopTrace

def GateEvent.isSkip : GateEvent → Bool
  | .skipped _ => true
  | _ => false

def GateEntry.visible (e : GateEntry) : GateEntry :=
  { e with events := e.events.filter (!·.isSkip) }

namespace Gate

variable {g g' : Gate} {c : GateCall} {ready : Bool} {events : List GateEvent} {r : Nat}
  {s : Standing}

def releaseFirst (g : Gate) : Gate × List GateEvent :=
  match g.line with
  | [] =>
    if g.admitted = 0 then (g, [.unbalanced]) else ({ g with admitted := g.admitted - 1 }, [])
  | r :: rest =>
    ({ g.put r .granted with line := rest },
      .granted r :: if g.requests[r]? = some (.queued true) then [.woken r] else [])

/-- Gives a request up. One in line leaves it, and a grant nobody observed goes back. -/
def dropPromptly (g : Gate) (r : Nat) : Gate × List GateEvent :=
  match g.requests[r]? with
  | some .granted =>
    let (g, events) := (g.put r .withdrawn).releaseFirst
    (g, .returned r :: events)
  | some (.queued _) => ({ g.put r .withdrawn with line := g.line.filter (· ≠ r) }, [])
  | _ => (g, [])

def servePromptly : Service
  | g, .start => (g.start.1, false, g.start.2)
  | g, .poll r => ((g.poll r).1, (g.poll r).2, [])
  | g, .drop r => ((g.dropPromptly r).1, false, (g.dropPromptly r).2)
  | g, .finished => (g.releaseFirst.1, false, g.releaseFirst.2)

theorem releaseFirst_nil (h : g.line = []) : g.releaseFirst =
    if g.admitted = 0 then (g, [.unbalanced])
    else ({ g with admitted := g.admitted - 1 }, []) := by
  unfold releaseFirst
  rw [h]

theorem releaseFirst_cons {rest : List Nat} (h : g.line = r :: rest) : g.releaseFirst =
    ({ g.put r .granted with line := rest },
      .granted r :: if g.requests[r]? = some (.queued true) then [.woken r] else []) := by
  unfold releaseFirst
  rw [h]

instance (g : Gate) (r : Nat) : Decidable (g.Waits r) :=
  match h : g.requests[r]? with
  | some (.queued parked) => .isTrue ⟨parked, h⟩
  | some .granted => .isFalse fun ⟨_, hw⟩ => by simp [h] at hw
  | some .observed => .isFalse fun ⟨_, hw⟩ => by simp [h] at hw
  | some .withdrawn => .isFalse fun ⟨_, hw⟩ => by simp [h] at hw
  | none => .isFalse fun ⟨_, hw⟩ => by simp [h] at hw

def tidy (g : Gate) : Gate := { g with line := g.line.filter (g.Waits ·) }

theorem filter_waits_congr {line : List Nat} (h : ∀ k ∈ line, (g'.Waits k ↔ g.Waits k)) :
    line.filter (g'.Waits ·) = line.filter (g.Waits ·) :=
  List.filter_congr fun k hk => decide_eq_decide.mpr (h k hk)

theorem filter_waits_gone {gone : List Nat} (passed : ∀ d ∈ gone, ¬ g.Waits d) :
    gone.filter (g.Waits ·) = [] := by
  rw [List.filter_eq_nil_iff]
  exact fun d hd => by simpa using passed d hd

/-- To settle a request that is not in line does not disturb the line. -/
theorem tidy_put (absent : r ∉ g.line) (settled : ∀ parked, s ≠ .queued parked) :
    (g.put r s).tidy = g.tidy.put r s := by
  have hline : g.line.filter ((g.put r s).Waits ·) = g.line.filter (g.Waits ·) :=
    filter_waits_congr fun k hk =>
      (waits_put_iff settled).trans (and_iff_right fun hkr => absent (hkr ▸ hk))
  unfold tidy
  rw [show (g.put r s).line = g.line from rfl, hline]
  rfl

theorem filter_skipped (gone : List Nat) :
    (gone.map GateEvent.skipped).filter (!·.isSkip) = [] := by
  simp [GateEvent.isSkip]

theorem Release.prompt (h : g.Orderly) (release : g.Release g.line g' events) :
    g.tidy.releaseFirst = (g'.tidy, events.filter (!·.isSkip)) := by
  generalize hline : g.line = line at release
  cases release with
  | @handOver gone r parked rest passed waits =>
    have hsorted := h.sorted
    rw [hline, List.pairwise_append, List.pairwise_cons] at hsorted
    have hne : ∀ k ∈ rest, k ≠ r := fun k hk => Nat.ne_of_gt (hsorted.2.1.1 k hk)
    have hrest : rest.filter ((g.put r .granted).Waits ·) = rest.filter (g.Waits ·) :=
      filter_waits_congr fun k hk => (waits_put_iff (by simp)).trans (and_iff_right (hne k hk))
    have hr : g.Waits r := ⟨parked, waits⟩
    have htidy : g.tidy.line = r :: rest.filter (g.Waits ·) := by
      rw [tidy, hline, List.filter_append, filter_waits_gone passed, List.nil_append,
        List.filter_cons, if_pos (decide_eq_true hr)]
    have hgranted : ({ g.put r .granted with line := rest } : Gate).tidy =
        { g.tidy.put r .granted with line := rest.filter (g.Waits ·) } := by
      unfold tidy
      exact congrArg (fun line => { g.put r .granted with line }) hrest
    have hwoken : (if g.tidy.requests[r]? = some (.queued true) then [GateEvent.woken r] else []) =
        if parked then [.woken r] else [] := by
      rw [show g.tidy.requests[r]? = some (.queued parked) from waits]
      cases parked <;> simp
    rw [releaseFirst_cons htidy, hgranted, hwoken, List.filter_append, filter_skipped]
    cases parked <;> rfl
  | free passed held =>
    have htidy : g.tidy.line = [] := by rw [tidy, hline, filter_waits_gone passed]
    rw [releaseFirst_nil htidy, if_neg (show g.tidy.admitted ≠ 0 from Nat.ne_of_gt held),
      filter_skipped]
    exact congrArg (fun line => (({ g with admitted := g.admitted - 1, line } : Gate), _)) htidy
  | complain passed idle =>
    have htidy : g.tidy.line = [] := by rw [tidy, hline, filter_waits_gone passed]
    rw [releaseFirst_nil htidy, if_pos (show g.tidy.admitted = 0 from idle), List.filter_append,
      filter_skipped]
    exact congrArg (fun line => (({ g with line } : Gate), _)) htidy

/-- Each call does to the tidy gate what it does to the gate, and nobody sees a difference. -/
theorem Move.prompt (h : g.Orderly) (move : g.Move c g' ready events) :
    servePromptly g.tidy c = (g'.tidy, ready, events.filter (!·.isSkip)) := by
  cases move with
  | enter room =>
    have hline := h.line_eq_nil room
    simp only [servePromptly, start_of_room (g := g.tidy) room]
    simp [tidy, hline, GateEvent.isSkip]
  | queue full =>
    have hkept : g.line.filter ({ g with
          line := g.line ++ [g.requests.size]
          requests := g.requests.push (.queued false) : Gate }.Waits ·) =
        g.line.filter (g.Waits ·) := by
      refine filter_waits_congr fun k hk => waits_push_iff.trans (or_iff_left ?_)
      exact fun hnew => Nat.ne_of_lt (h.lt_size hk) hnew.1
    have hnew : ({ g with
          line := g.line ++ [g.requests.size]
          requests := g.requests.push (.queued false) } : Gate).Waits g.requests.size :=
      waits_push_iff.mpr (.inr ⟨rfl, false, rfl⟩)
    simp only [servePromptly, start_of_full (g := g.tidy) full]
    simp only [tidy, List.filter_append, hkept]
    simp [hnew]
  | @observe r standing =>
    have hs : g.tidy.requests[r]? = some .granted := standing
    simp only [servePromptly, poll, hs]
    rw [tidy_put (h.not_mem_line standing (.inl rfl)) (by simp)]
    rfl
  | @again r standing =>
    have hs : g.tidy.requests[r]? = some .observed := standing
    simp only [servePromptly, poll, hs]
    rfl
  | @park r parked standing =>
    have hs : g.tidy.requests[r]? = some (.queued parked) := standing
    have hline : g.line.filter ((g.put r (.queued true)).Waits ·) = g.line.filter (g.Waits ·) :=
      filter_waits_congr fun k _ => waits_park_iff standing
    simp only [servePromptly, poll, hs]
    exact congrArg (fun line => ({ g.put r (.queued true) with line }, false, _)) hline.symm
  | @ignore r standing =>
    have hs : g.tidy.requests[r]? = none ∨ g.tidy.requests[r]? = some .withdrawn := standing
    rcases hs with hs | hs <;> simp only [servePromptly, poll, hs] <;> rfl
  | @leave r parked standing =>
    have hs : g.tidy.requests[r]? = some (.queued parked) := standing
    have hline : g.line.filter ((g.put r .withdrawn).Waits ·) =
        (g.line.filter (g.Waits ·)).filter (· ≠ r) := by
      rw [List.filter_filter]
      refine List.filter_congr fun k _ => ?_
      simp [waits_put_iff]
    simp only [servePromptly, dropPromptly, hs]
    exact congrArg (fun line => ({ g.put r .withdrawn with line }, false, _)) hline.symm
  | @giveBack r g' events standing release =>
    have hs : g.tidy.requests[r]? = some .granted := standing
    have habsent := h.not_mem_line standing (.inl rfl)
    have hput : (g.put r .withdrawn).Orderly := h.settle (by simp) (.inl habsent)
    simp only [servePromptly, dropPromptly, hs]
    rw [← tidy_put habsent (by simp), release.prompt hput]
    rfl
  | @keep r settled calm =>
    have hs : g.tidy.dropPromptly r = (g.tidy, []) := by
      unfold dropPromptly
      split
      next hr => exact absurd hr settled
      next parked hr => exact absurd ⟨parked, hr⟩ calm
      next => rfl
    simp only [servePromptly, hs]
    rfl
  | finish release =>
    simp only [servePromptly]
    rw [release.prompt h]

/-- What a run shows is the same as if every request dropped in line had left it at once. -/
theorem history_prompt (h : g.Orderly) (calls : List GateCall) :
    (serve.history g calls).map (·.visible) = servePromptly.history g.tidy calls := by
  induction calls generalizing g with
  | nil => rfl
  | cons c rest ih =>
    have hmove := move_serve g c
    have hprompt := hmove.prompt h
    have hentry : servePromptly.entry g.tidy c = (serve.entry g c).visible := by
      unfold Service.entry
      rw [hprompt]
      cases c <;> rfl
    rw [Service.history, Service.history, List.map_cons, hentry, hprompt]
    exact congrArg _ (ih (hmove.orderly h))

end Gate

end HopTrace
