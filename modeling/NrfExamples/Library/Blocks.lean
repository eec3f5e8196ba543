import Mathlib.Data.List.Basic
import Mathlib.Algebra.Order.Ring.Nat

/-!
# Sequences cut into blocks of one size

The entry at position `size * i + j` of a concatenation of blocks of `size` entries is entry `j` of
block `i`. Blocks that agree with a sequence at every such position concatenate to the sequence,
followed by whatever is left of the last block.
-/

namespace NrfExamples.Blocks

variable {α : Type} {size : ℕ}

theorem getElem?_flatten {blocks : List (List α)} (hsize : ∀ block ∈ blocks, block.length = size)
    (i : ℕ) {j : ℕ} (hj : j < size) :
    blocks.flatten[size * i + j]? = blocks[i]?.bind fun block ↦ block[j]? := by
  induction blocks generalizing i with
  | nil => rfl
  | cons block blocks ih =>
    have hblock := hsize block List.mem_cons_self
    have hrest := ih fun other hother ↦ hsize other (List.mem_cons_of_mem block hother)
    cases i with
    | zero =>
      rw [List.flatten_cons, Nat.mul_zero, Nat.zero_add,
        List.getElem?_append_left (hblock.symm ▸ hj)]
      rfl
    | succ i =>
      have hposition : size * (i + 1) + j - block.length = size * i + j := by
        rw [hblock, Nat.mul_succ]
        omega
      have hbehind : block.length ≤ size * (i + 1) + j := by
        rw [hblock, Nat.mul_succ]
        omega
      rw [List.flatten_cons, List.getElem?_append_right hbehind, hposition, hrest]
      rfl

/-- Blocks that agree with a sequence position by position begin with it. -/
theorem take_flatten {blocks : List (List α)} (hpos : 0 < size)
    (hsize : ∀ block ∈ blocks, block.length = size) {entries : List α}
    (hentries : ∀ i j, j < size → size * i + j < entries.length →
      (blocks[i]?.bind fun block ↦ block[j]?) = entries[size * i + j]?) :
    blocks.flatten.take entries.length = entries := by
  apply List.ext_getElem?
  intro index
  by_cases hindex : index < entries.length
  · have hmod : index % size < size := Nat.mod_lt index hpos
    have hdiv : size * (index / size) + index % size = index := Nat.div_add_mod index size
    calc
      (blocks.flatten.take entries.length)[index]? = blocks.flatten[index]? :=
        List.getElem?_take_of_lt hindex
      _ = blocks.flatten[size * (index / size) + index % size]? := by rw [hdiv]
      _ = (blocks[index / size]?.bind fun block ↦ block[index % size]?) :=
        getElem?_flatten hsize _ hmod
      _ = entries[size * (index / size) + index % size]? :=
        hentries _ _ hmod (hdiv.symm ▸ hindex)
      _ = entries[index]? := by rw [hdiv]
  · have hend : entries.length ≤ index := not_lt.mp hindex
    rw [List.getElem?_eq_none hend, List.getElem?_eq_none]
    exact (List.length_take_le _ _).trans hend

end NrfExamples.Blocks
