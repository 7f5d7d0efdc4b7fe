import HopTrace.Listening
import HopTrace.Proofs.Listener.Replies

/-!
# How much of a stream is heard

One who listens for some number of datagrams takes messages off a stream until
that many datagrams are among them, or the stream ends. Failures are taken as
they come, but do not count, and none of them ends the listening.
-/

namespace HopTrace

namespace Listening

open Listener (datagrams_append)

variable {l : Listening} {n : Nat} {ms taken : List Message}

def count (ms : List Message) : Nat := (Listener.datagrams ms).length

@[simp] theorem count_nil : count [] = 0 := rfl

theorem count_append (ms ms' : List Message) : count (ms ++ ms') = count ms + count ms' := by
  rw [count, datagrams_append, List.length_append]
  rfl

theorem count_cons (m : Message) (ms : List Message) : count (m :: ms) = count [m] + count ms :=
  count_append [m] ms

theorem count_le_of_initial (h : taken <+: ms) : count taken ≤ count ms := by
  obtain ⟨left, rfl⟩ := h
  rw [count_append]
  exact Nat.le_add_right _ _

/-! ## The shortest beginning with some number of datagrams -/

/-- Of all beginnings of a stream with that many datagrams, the one that begins all others. -/
structure Shortest (n : Nat) (ms taken : List Message) : Prop where
  initial : taken <+: ms
  enough : count taken = n
  least : ∀ other, other <+: ms → n ≤ count other → taken <+: other

theorem Shortest.count_lt (h : Shortest n ms taken) {other : List Message}
    (initial : other <+: taken) (proper : other ≠ taken) : count other < n := by
  apply Nat.lt_of_not_le
  intro hn
  have hback := h.least other (initial.trans h.initial) hn
  exact proper (initial.eq_of_length_le hback.length_le)

theorem shortest_zero (ms : List Message) : Shortest 0 ms [] where
  initial := List.nil_prefix
  enough := rfl
  least _ _ _ := List.nil_prefix

/-- As long as datagrams are missing, the next message belongs to it. -/
theorem Shortest.cons (h : Shortest n ms taken) (m : Message) (missing : 0 < count [m] + n) :
    Shortest (count [m] + n) (m :: ms) (m :: taken) where
  initial := List.cons_prefix_cons.mpr ⟨rfl, h.initial⟩
  enough := by rw [count_cons, h.enough]
  least other initial enough := by
    cases other with
    | nil =>
      rw [count_nil] at enough
      omega
    | cons x rest =>
      obtain ⟨rfl, hrest⟩ := List.cons_prefix_cons.mp initial
      rw [count_cons x rest, Nat.add_le_add_iff_left] at enough
      exact List.cons_prefix_cons.mpr ⟨rfl, h.least rest hrest enough⟩

theorem exists_shortest (h : n ≤ count ms) : ∃ taken, Shortest n ms taken := by
  induction ms generalizing n with
  | nil =>
    obtain rfl := Nat.le_zero.mp h
    exact ⟨[], shortest_zero []⟩
  | cons m rest ih =>
    rw [count_cons] at h
    by_cases hn : n = 0
    · exact ⟨[], hn ▸ shortest_zero _⟩
    · have hm : count [m] ≤ n := by
        cases m with
        | ok d => exact Nat.pos_of_ne_zero hn
        | error e => exact Nat.zero_le n
      obtain ⟨taken, shortest⟩ := ih (n := n - count [m]) (by omega)
      have hcons := shortest.cons m (by omega)
      rw [Nat.add_sub_cancel' hm] at hcons
      exact ⟨m :: taken, hcons⟩

/-! ## Messages heard -/

/-- A message adds its datagram, if it brings one, and is put on the log. -/
theorem hear_message (l : Listening) (m : Message) : ∃ log,
    l.hear (.message m) = { l with datagrams := l.datagrams ++ Listener.datagrams [m], log } := by
  cases m with
  | ok d => exact ⟨_, rfl⟩
  | error e =>
    have hnone : Listener.datagrams [.error e] = [] := rfl
    rw [hnone, List.append_nil]
    cases hr : e.isRetryable <;> simp only [hear, hr] <;> exact ⟨_, rfl⟩

def hearAll (l : Listening) (ms : List Message) : Listening :=
  ms.foldl (fun l m => l.hear (.message m)) l

/-- Failures leave no trace but on the log. -/
theorem hearAll_eq (l : Listening) (ms : List Message) : ∃ log,
    l.hearAll ms = { l with datagrams := l.datagrams ++ Listener.datagrams ms, log } := by
  induction ms generalizing l with
  | nil => exact ⟨l.log, by simp [hearAll, Listener.datagrams]⟩
  | cons m rest ih =>
    obtain ⟨log, hm⟩ := l.hear_message m
    obtain ⟨log', hrest⟩ := ih (l.hear (.message m))
    refine ⟨log', ?_⟩
    rw [hm] at hrest
    rw [hearAll, List.foldl_cons, hm]
    refine hrest.trans ?_
    rw [List.append_assoc, ← datagrams_append]
    rfl

@[simp] theorem limit_hearAll (l : Listening) (ms : List Message) :
    (l.hearAll ms).limit = l.limit := by
  obtain ⟨log, h⟩ := l.hearAll_eq ms
  rw [h]

@[simp] theorem ending_hearAll (l : Listening) (ms : List Message) :
    (l.hearAll ms).ending = l.ending := by
  obtain ⟨log, h⟩ := l.hearAll_eq ms
  rw [h]

theorem datagrams_hearAll (l : Listening) (ms : List Message) :
    (l.hearAll ms).datagrams = l.datagrams ++ Listener.datagrams ms := by
  obtain ⟨log, h⟩ := l.hearAll_eq ms
  rw [h]

theorem received_hearAll (l : Listening) (ms : List Message) :
    (l.hearAll ms).received = l.received + count ms := by
  rw [received, datagrams_hearAll, List.length_append]
  rfl

/-! ## Listening -/

/-- Whether one who listens for some number of datagrams goes on is a matter of their number. -/
theorem goesOn_iff (limit : l.limit = some n) (ending : l.ending = none) :
    l.goesOn = true ↔ l.received < n := by
  simp [goesOn, limit, ending]

theorem goesOn_hearAll_iff (limit : l.limit = some n) (ending : l.ending = none)
    (ms : List Message) : (l.hearAll ms).goesOn = true ↔ l.received + count ms < n := by
  rw [goesOn_iff ((l.limit_hearAll ms).trans limit) ((l.ending_hearAll ms).trans ending),
    received_hearAll]

theorem listen_of_finished (finished : l.goesOn = false) (xs : List Incoming) :
    l.listen xs = (l, xs) := by
  cases xs with
  | nil => rfl
  | cons x rest => simp [listen, finished]

/-- What comes later is heard as if it had come at once. -/
theorem listen_append (l : Listening) (xs more : List Incoming) :
    l.listen (xs ++ more) = (l.listen xs).1.listen ((l.listen xs).2 ++ more) := by
  induction xs generalizing l with
  | nil => rfl
  | cons x rest ih =>
    cases h : l.goesOn with
    | true => simpa [listen, h] using ih (l.hear x)
    | false => rw [listen_of_finished h (x :: rest)]

/-- All messages are taken as long as datagrams are missing before each of them. -/
theorem listen_of_missing (limit : l.limit = some n) (ending : l.ending = none)
    (missing : ∀ other, other <+: ms → other ≠ ms → l.received + count other < n) :
    l.listen (ms.map .message) = (l.hearAll ms, []) := by
  induction ms generalizing l with
  | nil => rfl
  | cons m rest ih =>
    have hgo : l.goesOn = true :=
      (goesOn_iff limit ending).mpr (missing [] List.nil_prefix (List.cons_ne_nil m rest).symm)
    have hone : l.hear (.message m) = l.hearAll [m] := rfl
    rw [List.map_cons, listen, if_pos hgo, hone]
    apply ih ((l.limit_hearAll [m]).trans limit) ((l.ending_hearAll [m]).trans ending)
    intro other initial proper
    rw [received_hearAll, Nat.add_assoc, ← count_cons]
    exact missing (m :: other) (List.cons_prefix_cons.mpr ⟨rfl, initial⟩) (by simpa using proper)

/-- With too few datagrams among them all messages are taken. -/
theorem listen_of_few (limit : l.limit = some n) (ending : l.ending = none)
    (few : l.received + count ms < n) : l.listen (ms.map .message) = (l.hearAll ms, []) := by
  apply listen_of_missing limit ending
  intro other initial _
  have hle := count_le_of_initial initial
  omega

/-- The datagrams that are missing are looked for no further than they are found. -/
theorem listen_of_shortest (limit : l.limit = some (l.received + n)) (ending : l.ending = none)
    (shortest : Shortest n ms taken) : l.listen (taken.map .message) = (l.hearAll taken, []) ∧
      (l.hearAll taken).goesOn = false := by
  constructor
  · apply listen_of_missing limit ending
    intro other initial proper
    have hlt := shortest.count_lt initial proper
    omega
  · rw [← Bool.not_eq_true, goesOn_hearAll_iff limit ending, shortest.enough]
    exact Nat.lt_irrefl _

/-- One who listens for `n` datagrams takes the shortest beginning of the stream that has them, and
leaves the rest. Without that many all messages are taken; then the listening goes on, or ends
with the stream. No failure is counted, nor ends it, and for no datagrams nothing is taken. -/
theorem listen_exact (n : Nat) (ms : List Message) (more : List Incoming) :
    let l : Listening := { limit := some n }
    (n ≤ count ms → ∃ taken left l', ms = taken ++ left ∧ Shortest n ms taken ∧
      l.listen (ms.map .message ++ more) = (l', left.map .message ++ more) ∧
      l'.datagrams = Listener.datagrams taken ∧ l'.received = n ∧ l'.goesOn = false) ∧
    (count ms < n →
      (∃ l', l.listen (ms.map .message) = (l', []) ∧
        l'.datagrams = Listener.datagrams ms ∧ l'.goesOn = true) ∧
      ∃ l', l.listen (ms.map .message ++ .closed :: more) = (l', more) ∧
        l'.datagrams = Listener.datagrams ms ∧ l'.received = count ms ∧ l'.goesOn = false) ∧
    ∀ xs, ({ limit := some 0 } : Listening).listen xs = ({ limit := some 0 }, xs) := by
  intro l
  refine ⟨fun enough => ?_, fun few => ?_, fun xs => listen_of_finished rfl xs⟩
  · obtain ⟨taken, shortest⟩ := exists_shortest enough
    obtain ⟨left, rfl⟩ := shortest.initial
    have hlimit : l.limit = some (l.received + n) := congrArg some (Nat.zero_add n).symm
    obtain ⟨htaken, hdone⟩ := listen_of_shortest hlimit rfl shortest
    refine ⟨taken, left, l.hearAll taken, rfl, shortest, ?_, l.datagrams_hearAll taken, ?_, hdone⟩
    · rw [List.map_append, List.append_assoc, listen_append, htaken, List.nil_append,
        listen_of_finished hdone]
    · rw [received_hearAll, shortest.enough]
      exact Nat.zero_add n
  · have hfew : l.received + count ms < n := by rwa [← Nat.zero_add (count ms)] at few
    have hall := listen_of_few rfl rfl hfew
    have hgo : (l.hearAll ms).goesOn = true := (goesOn_hearAll_iff rfl rfl ms).mpr hfew
    refine ⟨⟨l.hearAll ms, hall, l.datagrams_hearAll ms, hgo⟩, (l.hearAll ms).hear .closed, ?_,
      l.datagrams_hearAll ms, ?_, rfl⟩
    · rw [listen_append, hall, List.nil_append, listen, if_pos hgo]
      exact listen_of_finished rfl more
    · exact (l.received_hearAll ms).trans (Nat.zero_add _)

def mixedStream : List Message :=
  let d (byte : UInt8) : Datagram := ⟨1, ⟨.v4 ⟨192, 0, 2, 1⟩, 0, 0⟩, [byte]⟩
  [.error .readTimeout, .ok (d 1), .error (.setDeadline "closed"), .ok (d 2),
    .error (.readFailed "reset"), .ok (d 3)]

/-- Of three datagrams two are enough for the one and too few for the other. -/
theorem listen_exact_mixed :
    2 ≤ count mixedStream ∧ count mixedStream < 4 ∧
    (∃ taken left l', mixedStream = taken ++ left ∧ Shortest 2 mixedStream taken ∧
      ({ limit := some 2 } : Listening).listen (mixedStream.map .message ++ [.closed]) =
        (l', left.map .message ++ [.closed]) ∧
      left.length = 2 ∧ l'.received = 2 ∧ l'.goesOn = false) ∧
    ∃ l', ({ limit := some 4 } : Listening).listen (mixedStream.map .message ++ [.closed]) =
        (l', []) ∧ l'.received = 3 ∧ l'.goesOn = false := by
  have enough : 2 ≤ count mixedStream := by decide
  have few : count mixedStream < 4 := by decide
  obtain ⟨stops, -, -⟩ := listen_exact 2 mixedStream [.closed]
  obtain ⟨taken, left, l', hsplit, shortest, hl, -, hreceived, hdone⟩ := stops enough
  have hlength : (left.map Incoming.message ++ [Incoming.closed]).length = 3 :=
    (congrArg (·.2.length) hl).symm
  obtain ⟨-, ends, -⟩ := listen_exact 4 mixedStream []
  obtain ⟨-, l'', hl', -, hreceived', hdone'⟩ := ends few
  exact ⟨enough, few, ⟨taken, left, l', hsplit, shortest, hl, by simpa using hlength, hreceived,
    hdone⟩, l'', hl', hreceived', hdone'⟩

end Listening

end HopTrace
