import Mathlib.Algebra.BigOperators.Group.List.Basic
import Mathlib.Data.List.DropRight
import Mathlib.Data.List.Rotate

/-!
# Sliding windows and wrapping buffers

`last size fill history` is what a window of `size` entries shows after `history` was pushed
through it, when it started filled with `fill`. A wrapping buffer keeps the same entries in a
fixed array and overwrites them in place at a moving head. The array is then a rotation of the
window, and one write at the head is one push. The head may be reported as `size` where the
next write goes to index zero; rotation does not distinguish the two. A sum over the entries does
not see the rotation, so over a fill that adds nothing it is the sum over the newest entries.
-/

namespace NrfExamples.Window

variable {α : Type}

/-- The newest `size` entries of `size` copies of `fill` followed by `history`. -/
def last (size : ℕ) (fill : α) (history : List α) : List α :=
  (List.replicate size fill ++ history).rtake size

@[simp]
theorem last_length (size : ℕ) (fill : α) (history : List α) :
    (last size fill history).length = size := by
  simp [last, List.rtake]

@[simp]
theorem last_nil (size : ℕ) (fill : α) : last size fill [] = List.replicate size fill := by
  simp [last, List.rtake]

/-- The window shows its fill in front of the newest entries of a short history. -/
theorem last_eq_append (size : ℕ) (fill : α) (history : List α) :
    last size fill history =
      List.replicate (size - history.length) fill ++ history.rtake size := by
  unfold last List.rtake
  rw [List.length_append, List.length_replicate, List.drop_append, List.drop_replicate,
    List.length_replicate]
  congr 2
  · omega
  · omega

/-- The newest entries of a history, as many as there are. -/
theorem rtake_min_length (size : ℕ) (history : List α) :
    history.rtake (min history.length size) = history.rtake size := by
  unfold List.rtake
  congr 1
  omega

theorem mem_last {size : ℕ} {fill entry : α} {history : List α}
    (h : entry ∈ last size fill history) : entry = fill ∨ entry ∈ history := by
  rw [last_eq_append] at h
  apply (List.mem_append.mp h).imp List.eq_of_mem_replicate
  exact List.mem_of_mem_drop

/-- A fill that adds nothing leaves the sum over the newest entries. -/
theorem sum_map_last {M : Type} [AddMonoid M] {f : α → M} {fill : α} (hfill : f fill = 0)
    (size : ℕ) (history : List α) :
    ((last size fill history).map f).sum = ((history.rtake size).map f).sum := by
  rw [last_eq_append, List.map_append, List.sum_append, List.map_replicate, hfill,
    List.sum_replicate, nsmul_zero, zero_add]

/-- Pushing one entry drops the oldest one. -/
theorem last_concat (size : ℕ) (fill : α) (history : List α) (entry : α) (hsize : 0 < size) :
    last size fill (history ++ [entry]) = (last size fill history).tail ++ [entry] := by
  obtain ⟨size, rfl⟩ := Nat.exists_eq_succ_of_ne_zero hsize.ne'
  unfold last
  rw [← List.append_assoc, List.rtake_concat_succ]
  congr 1
  simp only [List.rtake, List.tail_drop, List.length_append, List.length_replicate]
  congr 1
  omega

/-- Writing at the head and moving the head by one pushes onto the rotated array. -/
theorem rotate_set_head (buffer : List α) (head : ℕ) (entry : α) (hhead : head < buffer.length) :
    (buffer.set head entry).rotate (head + 1) = (buffer.rotate head).tail ++ [entry] := by
  have hset : buffer.set head entry =
      (buffer.take head ++ [entry]) ++ buffer.drop (head + 1) := by
    rw [List.set_eq_take_append_cons_drop, if_pos hhead, List.append_assoc, List.singleton_append]
  have hlength : (buffer.take head ++ [entry]).length = head + 1 := by
    rw [List.length_append, List.length_take_of_le hhead.le, List.length_singleton]
  calc
    (buffer.set head entry).rotate (head + 1) =
        buffer.drop (head + 1) ++ (buffer.take head ++ [entry]) := by
      rw [hset, ← hlength, List.rotate_append_length_eq]
    _ = (buffer.rotate head).tail ++ [entry] := by
      rw [List.rotate_eq_drop_append_take hhead.le, List.drop_eq_getElem_cons hhead]
      simp only [List.cons_append, List.tail_cons, List.append_assoc]

/-- `buffer` with its next write position `head` shows the last entries of `history`. -/
structure Holds (size : ℕ) (fill : α) (buffer : List α) (head : ℕ) (history : List α) : Prop where
  length_eq : buffer.length = size
  head_le : head ≤ size
  rotate_eq : buffer.rotate head = last size fill history

namespace Holds

variable {size head : ℕ} {fill : α} {buffer history : List α}

theorem init (size : ℕ) (fill : α) : Holds size fill (List.replicate size fill) 0 [] where
  length_eq := List.length_replicate
  head_le := Nat.zero_le size
  rotate_eq := by simp

/-- A head at the end of the array stands for a head at its start. -/
theorem wrap (h : Holds size fill buffer size history) : Holds size fill buffer 0 history where
  length_eq := h.length_eq
  head_le := Nat.zero_le size
  rotate_eq := by
    have hrotate := h.rotate_eq
    rw [← h.length_eq, List.rotate_length] at hrotate
    rw [List.rotate_zero, hrotate, h.length_eq]

/-- One write below the end of the array. -/
theorem push (h : Holds size fill buffer head history) (hhead : head < size) (entry : α) :
    Holds size fill (buffer.set head entry) (head + 1) (history ++ [entry]) where
  length_eq := by rw [List.length_set, h.length_eq]
  head_le := hhead
  rotate_eq := by
    rw [rotate_set_head buffer head entry (h.length_eq.symm ▸ hhead), h.rotate_eq,
      last_concat size fill history entry (by omega)]

/-- One write with a head that returns to zero at the end of the array. -/
theorem push_wrap (h : Holds size fill buffer head history) (hhead : head < size) (entry : α) :
    Holds size fill (buffer.set head entry) (if head + 1 = size then 0 else head + 1)
      (history ++ [entry]) := by
  have hpush := h.push hhead entry
  by_cases hend : head + 1 = size
  · rw [if_pos hend]
    rw [hend] at hpush
    exact hpush.wrap
  · rwa [if_neg hend]

/-- The array holds the entries of the window. -/
theorem perm (h : Holds size fill buffer head history) : buffer.Perm (last size fill history) := by
  rw [← h.rotate_eq]
  exact (buffer.rotate_perm head).symm

/-- Over a fill that adds nothing, the array sums to its newest entries. -/
theorem sum_map {M : Type} [AddCommMonoid M] {f : α → M}
    (h : Holds size fill buffer head history) (hfill : f fill = 0) :
    (buffer.map f).sum = ((history.rtake size).map f).sum :=
  calc
    (buffer.map f).sum = ((last size fill history).map f).sum := (h.perm.map f).sum_eq
    _ = ((history.rtake size).map f).sum := sum_map_last hfill size history

/-- Reading from the head to the end and then from the start lists the window in order. -/
theorem drop_append_take (h : Holds size fill buffer head history) :
    buffer.drop head ++ buffer.take head = last size fill history := by
  rw [← List.rotate_eq_drop_append_take (h.length_eq.symm ▸ h.head_le), h.rotate_eq]

end Holds

end NrfExamples.Window
