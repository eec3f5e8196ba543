import Mathlib.Data.List.TakeDrop
import Mathlib.Data.List.DropRight
import Mathlib.Algebra.Order.Ring.Nat

/-!
# Queues of bounded length

A queue that takes only the leading entries that fit and drops the rest. However its input is cut
into pieces, a queue that is only added to holds the first entries of it, so it holds the latest
ones exactly if the first and the latest are the same. Taking entries out from the front in pieces
gives the contents back in order.
-/

namespace NrfExamples

/-- The entries of a queue, the oldest one first. -/
structure BoundedQueue (α : Type) (capacity : ℕ) where
  entries : List α
  length_le : entries.length ≤ capacity

namespace BoundedQueue

variable {α : Type} {capacity : ℕ}

def empty (α : Type) (capacity : ℕ) : BoundedQueue α capacity := ⟨[], Nat.zero_le capacity⟩

/-- The entries that can still be added. -/
def space (queue : BoundedQueue α capacity) : ℕ := capacity - queue.entries.length

/-- Add the leading entries that fit, and return their number. -/
def put (queue : BoundedQueue α capacity) (data : List α) : BoundedQueue α capacity × ℕ :=
  (⟨queue.entries ++ data.take queue.space, by
    have hqueue := queue.length_le
    rw [List.length_append, List.length_take, space]
    omega⟩, min queue.space data.length)

/-- Remove and return the oldest entries. -/
def get (queue : BoundedQueue α capacity) (count : ℕ) : List α × BoundedQueue α capacity :=
  (queue.entries.take count, ⟨queue.entries.drop count, by
    have hqueue := queue.length_le
    rw [List.length_drop]
    omega⟩)

/-- A queue that its callers only add to. -/
def puts (queue : BoundedQueue α capacity) (pieces : List (List α)) : BoundedQueue α capacity :=
  pieces.foldl (fun queue data ↦ (queue.put data).1) queue

@[simp]
theorem puts_nil (queue : BoundedQueue α capacity) : queue.puts [] = queue := rfl

@[simp]
theorem puts_cons (queue : BoundedQueue α capacity) (data : List α) (pieces : List (List α)) :
    queue.puts (data :: pieces) = (queue.put data).1.puts pieces := rfl

theorem puts_append (queue : BoundedQueue α capacity) (first second : List (List α)) :
    queue.puts (first ++ second) = (queue.puts first).puts second := List.foldl_append

theorem entries_put (queue : BoundedQueue α capacity) (data : List α) :
    (queue.put data).1.entries = (queue.entries ++ data).take capacity := by
  rw [List.take_append, List.take_of_length_le queue.length_le]
  rfl

/-- What a first piece leaves out is left out of the longer input as well. -/
theorem take_take_append (first second : List α) :
    (first.take capacity ++ second).take capacity = (first ++ second).take capacity := by
  obtain hfits | hfull := Nat.le_total first.length capacity
  · rw [List.take_of_length_le hfits]
  · have hlength : (first.take capacity).length = capacity := List.length_take_of_le hfull
    rw [List.take_append_of_le_length hlength.ge, List.take_append_of_le_length hfull,
      List.take_take, Nat.min_self]

theorem entries_puts (queue : BoundedQueue α capacity) (pieces : List (List α)) :
    (queue.puts pieces).entries = (queue.entries ++ pieces.flatten).take capacity := by
  induction pieces generalizing queue with
  | nil => rw [puts_nil, List.flatten_nil, List.append_nil, List.take_of_length_le queue.length_le]
  | cons data pieces ih =>
    rw [puts_cons, ih, entries_put, take_take_append, List.flatten_cons, List.append_assoc]

/-- A queue that started empty holds the first entries of its input. -/
theorem entries_puts_empty (pieces : List (List α)) :
    ((empty α capacity).puts pieces).entries = pieces.flatten.take capacity :=
  entries_puts (empty α capacity) pieces

/-- It holds the latest entries exactly if these are the first ones as well. -/
theorem holds_latest_iff (pieces : List (List α)) :
    ((empty α capacity).puts pieces).entries = pieces.flatten.rtake capacity ↔
      pieces.flatten.take capacity = pieces.flatten.rtake capacity := by
  rw [entries_puts_empty]

end BoundedQueue

end NrfExamples
