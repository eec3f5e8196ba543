import Mathlib.Order.Bounds.Basic
import Mathlib.Algebra.Order.Group.Nat

/-!
# Length of a trailing run

`trailing holds n` counts how many of the positions just below `n` satisfy a predicate without a
gap. It is what a counter shows that is incremented at each position that satisfies the predicate
and reset at each other one.
-/

namespace NrfExamples.TrailingRun

variable (holds : ℕ → Prop) [DecidablePred holds]

/-- The number of consecutive positions satisfying the predicate that end just below `n`. -/
def trailing : ℕ → ℕ
  | 0 => 0
  | n + 1 => if holds n then trailing n + 1 else 0

theorem trailing_succ_le (n : ℕ) : trailing holds (n + 1) ≤ trailing holds n + 1 := by
  rw [trailing]
  split
  · exact le_rfl
  · exact Nat.zero_le _

/-- The run has reached a length exactly when that many last positions satisfy the predicate. -/
theorem le_trailing_iff (length n : ℕ) :
    length ≤ trailing holds n ↔ length ≤ n ∧ ∀ i, n - length ≤ i → i < n → holds i := by
  induction n generalizing length with
  | zero =>
    constructor
    · exact fun h ↦ ⟨h, fun i _ hi ↦ absurd hi (Nat.not_lt_zero i)⟩
    · exact fun h ↦ h.1
  | succ n ih =>
    cases length with
    | zero => exact ⟨fun _ ↦ ⟨Nat.zero_le _, fun i _ _ ↦ by omega⟩, fun _ ↦ Nat.zero_le _⟩
    | succ length =>
      rw [trailing]
      by_cases hn : holds n
      · rw [if_pos hn, Nat.succ_le_succ_iff, ih length, Nat.succ_le_succ_iff, Nat.succ_sub_succ]
        refine and_congr_right fun _ ↦ ⟨fun h i hlower hupper ↦ ?_, fun h i hlower hupper ↦ ?_⟩
        · obtain hlt | rfl : i < n ∨ i = n := by omega
          · exact h i hlower hlt
          · exact hn
        · exact h i hlower (by omega)
      · rw [if_neg hn]
        constructor
        · exact fun h ↦ absurd h (Nat.not_succ_le_zero length)
        · exact fun h ↦ absurd (h.2 n (by omega) (Nat.lt_succ_self n)) hn

end NrfExamples.TrailingRun
