import HopTrace.Trace.Step
import Mathlib.Data.List.Induction

/-!
# Runs and what they show

A run is a sequence of events, each possible in its turn. `observe` collects
what the events show, in their order. A law about a run and its history holds
if every further event keeps it, or every one within a rule that the run keeps.
-/

namespace HopTrace.Trace

variable {α : Type} {t t' t'' : Trace} {e : TraceEvent} {events more : List TraceEvent}

@[simp] theorem run_nil (t : Trace) : t.run [] = some t := rfl

theorem run_cons (t : Trace) (e : TraceEvent) (events : List TraceEvent) :
    t.run (e :: events) = (t.step e).bind fun t' => t'.run events := rfl

theorem run_append (t : Trace) (events more : List TraceEvent) :
    t.run (events ++ more) = (t.run events).bind fun t' => t'.run more :=
  List.foldlM_append

theorem run_concat_iff :
    t.run (events ++ [e]) = some t'' ↔ ∃ t', t.run events = some t' ∧ t'.step e = some t'' := by
  rw [run_append, Option.bind_eq_some_iff]
  apply exists_congr
  intro t'
  rw [run_cons]
  cases t'.step e <;> simp

/-- Whatever holds at first and is kept by each event that is possible holds of every run and
its history. -/
theorem run_induction {P : List TraceEvent → Trace → Prop} (zero : P [] t)
    (succ : ∀ events t' e t'', t.run events = some t' → P events t' → t'.step e = some t'' →
      P (events ++ [e]) t'') (hr : t.run events = some t') : P events t' := by
  induction events using List.reverseRecOn generalizing t' with
  | nil =>
    have ht : t = t' := by simpa using hr
    exact ht ▸ zero
  | append_singleton events e ih =>
    obtain ⟨s, hs, he⟩ := run_concat_iff.mp hr
    exact succ events s e t' hs (ih hs) he

def Along (rule : Trace → TraceEvent → Prop) (t : Trace) : List TraceEvent → Prop
  | [] => True
  | e :: rest => rule t e ∧ ∀ t' ∈ t.step e, t'.Along rule rest

section

variable {rule : Trace → TraceEvent → Prop}

instance decidableAlong [∀ t e, Decidable (rule t e)] :
    (t : Trace) → (events : List TraceEvent) → Decidable (t.Along rule events)
  | _, [] => isTrue trivial
  | t, e :: rest =>
    have : ∀ t' : Trace, Decidable (t'.Along rule rest) := fun t' => decidableAlong t' rest
    inferInstanceAs (Decidable (rule t e ∧ ∀ t' ∈ t.step e, t'.Along rule rest))

theorem along_append_iff (hr : t.run events = some t') :
    t.Along rule (events ++ more) ↔ t.Along rule events ∧ t'.Along rule more := by
  induction events generalizing t with
  | nil =>
    obtain rfl : t = t' := by simpa using hr
    simp [Along]
  | cons e rest ih =>
    obtain ⟨s, hs, hr'⟩ := Option.bind_eq_some_iff.mp hr
    have hstep : t.step e = some s := hs
    simp [Along, hstep, ih hr', and_assoc]

theorem along_concat_iff (hr : t.run events = some t') :
    t.Along rule (events ++ [e]) ↔ t.Along rule events ∧ rule t' e := by
  simp [along_append_iff hr, Along]

/-- Whatever holds at first and is kept by each event within the rule holds of every run along
it. -/
theorem along_induction {P : List TraceEvent → Trace → Prop} (zero : P [] t)
    (succ : ∀ events t' e t'', t.run events = some t' → rule t' e → P events t' →
      t'.step e = some t'' → P (events ++ [e]) t'')
    (hr : t.run events = some t') (along : t.Along rule events) : P events t' := by
  refine run_induction (P := fun events s => t.Along rule events → P events s) (fun _ => zero) ?_ hr
    along
  intro events s e s' hr' ih hs halong
  obtain ⟨hbefore, hrule⟩ := (along_concat_iff hr').mp halong
  exact succ events s e s' hr' hrule (ih hbefore) hs

end

def observe (see : Trace → TraceEvent → Option α) (t : Trace) : List TraceEvent → List α
  | [] => []
  | e :: rest => (see t e).toList ++
    match t.step e with
    | some t' => t'.observe see rest
    | none => []

@[simp] theorem observe_nil (see : Trace → TraceEvent → Option α) (t : Trace) :
    t.observe see [] = [] := rfl

theorem observe_append (see : Trace → TraceEvent → Option α) (hr : t.run events = some t') :
    t.observe see (events ++ more) = t.observe see events ++ t'.observe see more := by
  induction events generalizing t with
  | nil =>
    have ht : t = t' := by simpa using hr
    simp [ht]
  | cons e rest ih =>
    rw [run_cons] at hr
    cases hs : t.step e with
    | none => simp [hs] at hr
    | some s =>
      have hr' : s.run rest = some t' := by simpa [hs] using hr
      simp only [List.cons_append, observe, hs, ih hr', List.append_assoc]

theorem observe_concat (see : Trace → TraceEvent → Option α) (hr : t.run events = some t')
    (hs : t'.step e = some t'') :
    t.observe see (events ++ [e]) = t.observe see events ++ (see t' e).toList := by
  rw [observe_append see hr]
  simp [observe, hs]

/-- Events that never show anything show nothing in a run. -/
theorem observe_eq_nil {see : Trace → TraceEvent → Option α}
    (blind : ∀ e ∈ events, ∀ t, see t e = none) : t.observe see events = [] := by
  induction events generalizing t with
  | nil => rfl
  | cons e rest ih =>
    rw [observe, blind e (by simp)]
    cases t.step e with
    | none => rfl
    | some t' => exact ih fun x hx => blind x (List.mem_cons_of_mem _ hx)

/-- What the events show by themselves they show in a run. -/
theorem observe_eq_filterMap {see : TraceEvent → Option α} (hr : t.run events = some t') :
    t.observe (fun _ e => see e) events = events.filterMap see := by
  refine run_induction (P := fun events _ =>
    t.observe (fun _ e => see e) events = events.filterMap see) rfl ?_ hr
  intro events s e s' hr' ih hs
  rw [observe_concat _ hr' hs, ih, List.filterMap_append, List.filterMap_cons]
  cases see e <;> rfl

theorem observe_filter (see : Trace → TraceEvent → Option α) (p : α → Bool) :
    t.observe (fun s e => (see s e).filter p) events = (t.observe see events).filter p := by
  induction events generalizing t with
  | nil => rfl
  | cons e rest ih =>
    rw [observe, observe, List.filter_append]
    congr 1
    · cases see t e with
      | none => rfl
      | some a => cases hp : p a <;> simp [hp]
    · cases t.step e with
      | none => rfl
      | some t' => exact ih

/-- One who sees whatever another sees misses nothing of it in a run. -/
theorem mem_observe_of_imp {see other : Trace → TraceEvent → Option α} {a : α}
    (imp : ∀ t e a, see t e = some a → other t e = some a) (h : a ∈ t.observe see events) :
    a ∈ t.observe other events := by
  induction events generalizing t with
  | nil => exact h
  | cons e rest ih =>
    rw [observe, List.mem_append, Option.mem_toList] at h ⊢
    refine h.imp (imp t e a) fun hrest => ?_
    cases hs : t.step e with
    | none => simp [hs] at hrest
    | some t' =>
      rw [hs] at hrest
      exact ih hrest

end HopTrace.Trace
