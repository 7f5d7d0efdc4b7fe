import HopTrace.Log
import Mathlib.Data.List.Induction
import Mathlib.Data.List.Infix

/-!
# Calls on something that is waited for

A machine answers one call after the other, and the history of a run has an
exchange for each of them. Waiters are numbered in the order in which they
begin to wait. One of them is live from then on until it is dropped or a poll
tells it that its wait is over.
-/

namespace HopTrace

abbrev Machine (σ γ ρ : Type) := σ → γ → σ × ρ

structure Exchange (γ ρ : Type) where
  call : γ
  reply : ρ
  deriving DecidableEq, Repr

namespace Machine

variable {σ γ ρ : Type} (m : Machine σ γ ρ)

def after (x : σ) (calls : List γ) : σ := calls.foldl (fun x c => (m x c).1) x

def history (x : σ) : List γ → List (Exchange γ ρ)
  | [] => []
  | c :: rest => ⟨c, (m x c).2⟩ :: history (m x c).1 rest

theorem after_append (x : σ) (calls more : List γ) :
    m.after x (calls ++ more) = m.after (m.after x calls) more :=
  List.foldl_append

theorem after_concat (x : σ) (calls : List γ) (c : γ) :
    m.after x (calls ++ [c]) = (m (m.after x calls) c).1 :=
  m.after_append x calls [c]

theorem history_append (x : σ) (calls more : List γ) :
    m.history x (calls ++ more) = m.history x calls ++ m.history (m.after x calls) more := by
  induction calls generalizing x with
  | nil => rfl
  | cons c rest ih => exact congrArg _ (ih _)

theorem history_concat (x : σ) (calls : List γ) (c : γ) :
    m.history x (calls ++ [c]) = m.history x calls ++ [⟨c, (m (m.after x calls) c).2⟩] :=
  m.history_append x calls [c]

theorem call_mem {x : σ} {calls : List γ} {e : Exchange γ ρ} (he : e ∈ m.history x calls) :
    e.call ∈ calls := by
  induction calls generalizing x with
  | nil => simp [history] at he
  | cons c rest ih =>
    rcases List.mem_cons.mp he with rfl | he
    · exact List.mem_cons_self
    · exact List.mem_cons_of_mem _ (ih he)

/-- Whatever holds at first and is kept by each call holds of every run and its history. -/
theorem run_induction {x : σ} {P : List γ → List (Exchange γ ρ) → σ → Prop} (zero : P [] [] x)
    (succ : ∀ calls h y c, P calls h y → P (calls ++ [c]) (h ++ [⟨c, (m y c).2⟩]) (m y c).1)
    (calls : List γ) : P calls (m.history x calls) (m.after x calls) := by
  induction calls using List.reverseRecOn with
  | nil => exact zero
  | append_singleton calls c ih =>
    rw [after_concat, history_concat]
    exact succ _ _ _ c ih

end Machine

inductive WaitCall (α : Type)
  | wait
  | poll (waiter : Nat)
  | drop (waiter : Nat)
  | act (a : α)
  deriving DecidableEq, Repr

/-- A waiter who was not there before a call has begun to wait by it. -/
theorem WaitCall.eq_wait_of_size {α : Type} [DecidableEq α] {c : WaitCall α} {n n' w : Nat}
    (grown : n' = n + [c].count .wait) (old : ¬ w < n) (new : w < n') : c = .wait ∧ w = n := by
  have hc : c = .wait := by
    by_contra hne
    rw [List.count_singleton, if_neg (by simpa using hne)] at grown
    omega
  subst hc
  rw [List.count_singleton_self] at grown
  exact ⟨rfl, by omega⟩

structure WaitReply (κ : Type) where
  /-- What there was when the call came. -/
  found : κ
  /-- What a poll, or whoever asks without waiting, is told. -/
  answer : Option Bool := none
  woken : List Nat := []
  log : List Log.Entry := []
  deriving DecidableEq, Repr

def Live {α κ : Type} (w : Nat) (h : List (Exchange (WaitCall α) (WaitReply κ))) : Prop :=
  ∀ e ∈ h, e.call ≠ .drop w ∧ (e.call = .poll w → e.reply.answer ≠ some true)

instance {α κ : Type} [DecidableEq α] (w : Nat) (h : List (Exchange (WaitCall α) (WaitReply κ))) :
    Decidable (Live w h) :=
  inferInstanceAs (Decidable (∀ e ∈ h, _))

section

variable {α κ : Type} {h : List (Exchange (WaitCall α) (WaitReply κ))} {w : Nat}
  {e : Exchange (WaitCall α) (WaitReply κ)}

theorem live_concat_iff : Live w (h ++ [e]) ↔
    Live w h ∧ e.call ≠ .drop w ∧ (e.call = .poll w → e.reply.answer ≠ some true) := by
  unfold Live
  rw [List.forall_mem_append, List.forall_mem_singleton]

end

section

variable {σ α κ : Type} {m : Machine σ (WaitCall α) (WaitReply κ)} {x : σ}
  {calls : List (WaitCall α)} {c : WaitCall α} {w : Nat}

/-- A call that is about no waiter or another one leaves this one live. -/
theorem Machine.live_of_other (live : Live w (m.history x calls)) (poll : c ≠ .poll w)
    (drop : c ≠ .drop w) : Live w (m.history x (calls ++ [c])) := by
  rw [m.history_concat]
  exact live_concat_iff.mpr ⟨live, drop, fun hpoll => absurd hpoll poll⟩

theorem Machine.live_of_pending (live : Live w (m.history x calls))
    (pending : (m (m.after x calls) (.poll w)).2.answer ≠ some true) :
    Live w (m.history x (calls ++ [.poll w])) := by
  rw [m.history_concat]
  exact live_concat_iff.mpr ⟨live, nofun, fun _ => pending⟩

theorem Machine.not_live_of_ready
    (ready : (m (m.after x calls) (.poll w)).2.answer = some true) :
    ¬ Live w (m.history x (calls ++ [.poll w])) := by
  rw [m.history_concat]
  exact fun live => (live_concat_iff.mp live).2.2 rfl ready

theorem Machine.not_live_of_drop : ¬ Live w (m.history x (calls ++ [.drop w])) := by
  rw [m.history_concat]
  exact fun live => (live_concat_iff.mp live).2.1 rfl

theorem Machine.not_live_concat (gone : ¬ Live w (m.history x calls)) :
    ¬ Live w (m.history x (calls ++ [c])) := by
  rw [m.history_concat]
  exact fun live => gone (live_concat_iff.mp live).1

end

/-- Among some calls a waiter began to wait, which left a state, and others came since. -/
def Machine.Began {σ α κ : Type} [DecidableEq α] (m : Machine σ (WaitCall α) (WaitReply κ)) (x : σ)
    (calls : List (WaitCall α)) (w : Nat) (y : σ) (since : List (WaitCall α)) : Prop :=
  ∃ before, calls = before ++ .wait :: since ∧ w = before.count .wait ∧
    y = m.after x (before ++ [.wait])

section

variable {σ α κ : Type} [DecidableEq α] {m : Machine σ (WaitCall α) (WaitReply κ)} {x y : σ}
  {calls since : List (WaitCall α)} {w : Nat}

theorem Machine.Began.after_eq (began : m.Began x calls w y since) :
    m.after x calls = m.after y since := by
  obtain ⟨before, rfl, -, rfl⟩ := began
  rw [List.append_cons, m.after_append]

/-- There are as many waiters as calls that began to wait. -/
theorem Machine.size_after {f : σ → Nat} (grows : ∀ x c, f (m x c).1 = f x + [c].count .wait)
    (x : σ) (calls : List (WaitCall α)) : f (m.after x calls) = f x + calls.count .wait := by
  refine m.run_induction (P := fun calls _ y => f y = f x + calls.count .wait) rfl
    (fun calls h y c ih => ?_) calls
  rw [grows, ih, List.count_append, Nat.add_assoc]

/-- Every waiter has begun to wait at some call. -/
theorem Machine.exists_began (made : w < calls.count .wait) :
    ∃ y since, m.Began x calls w y since := by
  induction calls using List.reverseRecOn with
  | nil => simp at made
  | append_singleton calls c ih =>
    by_cases hold : w < calls.count .wait
    · obtain ⟨y, since, before, rfl, hw, hy⟩ := ih hold
      exact ⟨y, since ++ [c], before, by simp, hw, hy⟩
    · obtain ⟨rfl, rfl⟩ := WaitCall.eq_wait_of_size List.count_append hold made
      exact ⟨_, [], calls, rfl, rfl, rfl⟩

end

end HopTrace
