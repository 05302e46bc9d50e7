import Mathlib.Data.List.Basic

namespace SerialNet

/-!
# Bounded FIFO queues

`Fifo α cap` is a queue of at most `cap` elements, oldest first; the bound is a field, so
an overfull queue cannot be built.  Bulk operations take as much as fits
(`pushMany`) or as is there (`popMany`) and say how much that was; `push` and `pop` move one
element or fail.
-/

/-- A first-in first-out queue of at most `cap` elements, oldest first. -/
@[ext] structure Fifo (α : Type*) (cap : ℕ) where
  items : List α
  bound : items.length ≤ cap
deriving DecidableEq, Repr

namespace Fifo

variable {α : Type*} {cap : ℕ}

/-- The empty queue. -/
def empty : Fifo α cap := ⟨[], Nat.zero_le _⟩

/-- Number of stored elements. -/
def length (q : Fifo α cap) : ℕ := q.items.length

/-- Number of elements that still fit. -/
def space (q : Fifo α cap) : ℕ := cap - q.length

/-- Append the longest prefix of `xs` that fits. -/
def pushMany (q : Fifo α cap) (xs : List α) : Fifo α cap :=
  ⟨q.items ++ xs.take q.space, by
    have := q.bound
    simp only [List.length_append, List.length_take, space, length]; omega⟩

/-- Remove the oldest `n` elements, or all of them if there are fewer. -/
def popMany (q : Fifo α cap) (n : ℕ) : Fifo α cap :=
  ⟨q.items.drop n, by have := q.bound; simp only [List.length_drop]; omega⟩

/-- Append one element, if it fits. -/
def push (q : Fifo α cap) (x : α) : Option (Fifo α cap) :=
  if h : q.items.length < cap then
    some ⟨q.items ++ [x], by rw [List.length_append]; exact h⟩
  else none

/-- Remove the oldest element, if there is one. -/
def pop (q : Fifo α cap) : Option (α × Fifo α cap) :=
  match q with
  | ⟨[], _⟩ => none
  | ⟨x :: xs, h⟩ => some (x, ⟨xs, Nat.le_of_succ_le h⟩)

/-- A new queue has no items. -/
@[simp] theorem items_empty : (empty : Fifo α cap).items = [] := rfl

/-- As many items go in as there is room for, in their order. -/
@[simp] theorem items_pushMany (q : Fifo α cap) (xs : List α) :
    (q.pushMany xs).items = q.items ++ xs.take q.space := rfl

/-- The oldest items go out. -/
@[simp] theorem items_popMany (q : Fifo α cap) (n : ℕ) :
    (q.popMany n).items = q.items.drop n := rfl

/-- An accepted item is the last one. -/
theorem push_eq_some {q q' : Fifo α cap} {x : α} (h : q.push x = some q') :
    q'.items = q.items ++ [x] := by
  unfold push at h
  split at h
  · rw [← Option.some.inj h]
  · cases h

/-- The item that is taken was the first one. -/
theorem pop_eq_some {q q' : Fifo α cap} {x : α} (h : q.pop = some (x, q')) :
    q.items = x :: q'.items := by
  obtain ⟨_ | ⟨y, ys⟩, hb⟩ := q
  · cases h
  · simp only [pop, Option.some.injEq, Prod.mk.injEq] at h
    rw [← h.1, ← h.2]

/-- Stored elements and free places add up to the capacity. -/
theorem length_add_space (q : Fifo α cap) : q.length + q.space = cap := by
  have := q.bound
  unfold space length; omega

end Fifo

end SerialNet
