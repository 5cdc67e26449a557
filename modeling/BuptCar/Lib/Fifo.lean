import Mathlib.Data.List.Basic

/-!
# Bounded queues

`Fifo α n` holds at most `n` elements in the order of their arrival; the bound is a field, so a
queue that overflows cannot be built. `send` fails on a full queue, `receive` on an empty one.
`sendAll` sends one element after the other up to the first that fails; `sendAll_toList` says
which ones arrive.
-/

universe u

structure Fifo (α : Type u) (n : Nat) where
  toList : List α
  bounded : toList.length ≤ n

namespace Fifo

variable {α : Type u} {n : Nat}

def empty : Fifo α n := ⟨[], Nat.zero_le n⟩

/-- `none` on a full queue. -/
def send (x : α) (q : Fifo α n) : Option (Fifo α n) :=
  if h : q.toList.length < n then some ⟨q.toList ++ [x], by simpa [Nat.succ_le_iff] using h⟩
  else none

/-- The oldest element and the queue without it, `none` on an empty queue. -/
def receive : Fifo α n → Option (α × Fifo α n)
  | ⟨[], _⟩ => none
  | ⟨x :: xs, h⟩ => some (x, ⟨xs, Nat.le_of_succ_le h⟩)

def sendAll : List α → Fifo α n → Fifo α n
  | [], q => q
  | x :: xs, q =>
    match q.send x with
    | some q => sendAll xs q
    | none => q

@[simp] theorem toList_empty : (empty : Fifo α n).toList = [] := rfl

theorem send_cases (x : α) (q : Fifo α n) :
    (q.toList.length = n ∧ q.send x = none) ∨
      ∃ q', q.send x = some q' ∧ q.toList.length < n ∧ q'.toList = q.toList ++ [x] := by
  by_cases h : q.toList.length < n
  · exact .inr ⟨_, dif_pos h, h, rfl⟩
  · exact .inl ⟨Nat.le_antisymm q.bounded (Nat.not_lt.1 h), dif_neg h⟩

theorem receive_cases (q : Fifo α n) :
    (q.toList = [] ∧ q.receive = none) ∨
      ∃ x q', q.receive = some (x, q') ∧ q.toList = x :: q'.toList := by
  obtain ⟨l, h⟩ := q
  cases l with
  | nil => exact .inl ⟨rfl, rfl⟩
  | cons x xs => exact .inr ⟨x, _, rfl, rfl⟩

/-- The elements that fit arrive, in their order. -/
theorem sendAll_toList (xs : List α) (q : Fifo α n) :
    (q.sendAll xs).toList = q.toList ++ xs.take (n - q.toList.length) := by
  induction xs generalizing q with
  | nil => simp [sendAll]
  | cons x xs ih =>
    rw [sendAll]
    rcases q.send_cases x with ⟨hfull, hs⟩ | ⟨q', hs, hlt, hq⟩
    · rw [hs, hfull, Nat.sub_self, List.take_zero, List.append_nil]
    · rw [hs]
      show (q'.sendAll xs).toList = _
      obtain ⟨k, hk⟩ : ∃ k, n - q.toList.length = k + 1 := ⟨n - q.toList.length - 1, by omega⟩
      rw [ih, hq, List.length_append, List.length_singleton,
        show n - (q.toList.length + 1) = k by omega, hk, List.take_succ_cons, List.append_assoc]
      rfl

end Fifo
