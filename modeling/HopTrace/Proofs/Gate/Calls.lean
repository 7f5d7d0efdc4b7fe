import HopTrace.Gate.Basic
import Mathlib.Data.List.Induction

/-!
# Calls on a gate

Whoever uses a gate makes requests, polls and drops them, and gives units back,
one call after the other. The history of a run has an entry for each call. A
run is proper if it polls and drops only requests that are held: those made
and not dropped before.
-/

namespace HopTrace

inductive GateCall
  | start
  | poll (request : Nat)
  | drop (request : Nat)
  | finished
  deriving DecidableEq, Repr

structure GateEntry where
  call : GateCall
  /-- The request that was made, polled or dropped. -/
  about : Option Nat
  /-- Whether a poll found its request granted. -/
  ready : Bool
  events : List GateEvent
  /-- The units handed out afterwards. -/
  admitted : Nat
  deriving DecidableEq, Repr

def happened (h : List GateEntry) : List GateEvent := h.flatMap (·.events)

@[simp] theorem happened_append (h h' : List GateEntry) :
    happened (h ++ h') = happened h ++ happened h' := List.flatMap_append

@[simp] theorem happened_singleton (e : GateEntry) : happened [e] = e.events :=
  List.flatMap_singleton ..

namespace GateCall

def handle? : GateCall → Option Nat
  | .start => none
  | .poll r => some r
  | .drop r => some r
  | .finished => none

def Held (calls : List GateCall) (r : Nat) : Prop := r < calls.count .start ∧ .drop r ∉ calls

instance (calls : List GateCall) (r : Nat) : Decidable (Held calls r) :=
  inferInstanceAs (Decidable (_ ∧ _))

/-- Handles are polled and dropped only while they are held. -/
def Proper (calls : List GateCall) : Prop :=
  ∀ i < calls.length, ∀ r ∈ calls[i]?.bind handle?, Held (calls.take i) r

instance : DecidablePred Proper := fun calls =>
  inferInstanceAs (Decidable (∀ i < calls.length, ∀ r ∈ calls[i]?.bind handle?, _))

theorem proper_concat_iff {calls : List GateCall} {c : GateCall} :
    Proper (calls ++ [c]) ↔ Proper calls ∧ ∀ r ∈ c.handle?, Held calls r := by
  constructor
  · intro h
    constructor
    · intro i hi r hr
      have hheld := h i (by simp; omega) r (by rwa [List.getElem?_append_left hi])
      rwa [List.take_append_of_le_length (Nat.le_of_lt hi)] at hheld
    · intro r hr
      have hheld := h calls.length (by simp) r (by simpa using hr)
      rwa [List.take_left] at hheld
  · rintro ⟨h, hc⟩ i hi r hr
    by_cases hlt : i < calls.length
    · rw [List.getElem?_append_left hlt] at hr
      rw [List.take_append_of_le_length (Nat.le_of_lt hlt)]
      exact h i hlt r hr
    · have hlen : i = calls.length := by simp at hi; omega
      subst hlen
      rw [List.take_left]
      exact hc r (by simpa using hr)

end GateCall

namespace Gate

def opened (capacity : Nat) : Gate := { capacity }

def about (g : Gate) : GateCall → Option Nat
  | .start => some g.requests.size
  | .poll r => some r
  | .drop r => some r
  | .finished => none

/-- A way to serve calls: the gate afterwards, whether a poll found its request granted, and what
happened. -/
abbrev Service := Gate → GateCall → Gate × Bool × List GateEvent

def serve : Service
  | g, .start => (g.start.1, false, g.start.2)
  | g, .poll r => ((g.poll r).1, (g.poll r).2, [])
  | g, .drop r => ((g.drop r).1, false, (g.drop r).2)
  | g, .finished => (g.finished.1, false, g.finished.2)

namespace Service

variable (s : Service)

def entry (g : Gate) (c : GateCall) : GateEntry where
  call := c
  about := g.about c
  ready := (s g c).2.1
  events := (s g c).2.2
  admitted := (s g c).1.admitted

def after (g : Gate) (calls : List GateCall) : Gate := calls.foldl (fun g c => (s g c).1) g

def history (g : Gate) : List GateCall → List GateEntry
  | [] => []
  | c :: rest => s.entry g c :: history (s g c).1 rest

theorem after_concat (g : Gate) (calls : List GateCall) (c : GateCall) :
    s.after g (calls ++ [c]) = (s (s.after g calls) c).1 := by
  simp [after]

theorem history_append (g : Gate) (calls more : List GateCall) :
    s.history g (calls ++ more) = s.history g calls ++ s.history (s.after g calls) more := by
  induction calls generalizing g with
  | nil => rfl
  | cons c rest ih => exact congrArg _ (ih _)

theorem history_concat (g : Gate) (calls : List GateCall) (c : GateCall) :
    s.history g (calls ++ [c]) = s.history g calls ++ [s.entry (s.after g calls) c] :=
  history_append s g calls [c]

/-- Whatever holds at first and is kept by each call holds of every run. -/
theorem run_induction {g : Gate} {P : List GateCall → List GateEntry → Gate → Prop}
    (zero : P [] [] g)
    (succ : ∀ calls h g' c, P calls h g' → P (calls ++ [c]) (h ++ [s.entry g' c]) (s g' c).1)
    (calls : List GateCall) : P calls (s.history g calls) (s.after g calls) := by
  induction calls using List.reverseRecOn with
  | nil => exact zero
  | append_singleton calls c ih =>
    rw [after_concat, history_concat]
    exact succ _ _ _ c ih

end Service

end Gate

end HopTrace
