import Mathlib.Algebra.Order.Ring.Abs
import Mathlib.Algebra.Order.Ring.Int
import Mathlib.Tactic.Linarith

/-!
# Bounds through fixed-width arithmetic

`Bounded bound word` says that the absolute value of a two's complement word is at most `bound`.
Sums, differences and products of bounded words do not wrap while the bound of the result is below
half the range of the width, and an arithmetic shift divides the bound. A computation is bounded by
applying these rules to its steps, whatever the values of its inputs.
-/

namespace NrfExamples.SignedBounds

variable {width : ℕ}

def Bounded (bound : ℤ) (word : BitVec width) : Prop := |word.toInt| ≤ bound

instance (bound : ℤ) (word : BitVec width) : Decidable (Bounded bound word) :=
  inferInstanceAs (Decidable (_ ≤ _))

/-- Values that the width can hold are not changed by the wrap-around. -/
theorem bmod_of_bounded {value bound : ℤ} (h : |value| ≤ bound) (hbound : 2 * bound < 2 ^ width) :
    value.bmod (2 ^ width) = value := by
  obtain ⟨hlower, hupper⟩ := abs_le.mp h
  apply Int.bmod_eq_of_le
  · push_cast
    omega
  · push_cast
    omega

variable {first second bound : ℤ} {x y : BitVec width}

namespace Bounded

theorem mono (h : Bounded first x) (hle : first ≤ second) : Bounded second x := h.trans hle

theorem add (hx : Bounded first x) (hy : Bounded second y)
    (hbound : 2 * (first + second) < 2 ^ width) : Bounded (first + second) (x + y) := by
  have hsum : |x.toInt + y.toInt| ≤ first + second :=
    (abs_add_le _ _).trans (add_le_add hx hy)
  rw [Bounded, BitVec.toInt_add, bmod_of_bounded hsum hbound]
  exact hsum

theorem sub (hx : Bounded first x) (hy : Bounded second y)
    (hbound : 2 * (first + second) < 2 ^ width) : Bounded (first + second) (x - y) := by
  have hdifference : |x.toInt - y.toInt| ≤ first + second :=
    (abs_sub _ _).trans (add_le_add hx hy)
  rw [Bounded, BitVec.toInt_sub, bmod_of_bounded hdifference hbound]
  exact hdifference

theorem mul (hx : Bounded first x) (hy : Bounded second y)
    (hbound : 2 * (first * second) < 2 ^ width) : Bounded (first * second) (x * y) := by
  have hproduct : |x.toInt * y.toInt| ≤ first * second := by
    rw [abs_mul]
    exact mul_le_mul hx hy (abs_nonneg _) ((abs_nonneg _).trans hx)
  rw [Bounded, BitVec.toInt_mul, bmod_of_bounded hproduct hbound]
  exact hproduct

/-- The shift rounds down, so a negative value can end one below the divided bound. -/
theorem sshiftRight (hx : Bounded bound x) (count : ℕ) :
    Bounded (bound / 2 ^ count + 1) (x.sshiftRight count) := by
  have hpower : (0 : ℤ) < 2 ^ count := by positivity
  obtain ⟨hlower, hupper⟩ := abs_le.mp hx
  rw [Bounded, BitVec.toInt_sshiftRight, Int.shiftRight_eq_div_pow, abs_le]
  push_cast
  constructor
  · rw [Int.le_ediv_iff_mul_le hpower]
    have hrest := Int.lt_ediv_add_one_mul_self bound hpower
    linarith
  · have hle := Int.ediv_le_ediv hpower hupper
    omega

end Bounded

/-- A bounded word that is not zero keeps a bit in every width that can hold the bound. -/
theorem setWidth_ne_zero {narrow : ℕ} (hx : Bounded bound x) (hbound : bound < 2 ^ narrow)
    (hnarrow : narrow ≤ width) (hne : x ≠ 0) : x.setWidth narrow ≠ 0 := by
  intro hzero
  have hdvd : (2 ^ narrow : ℤ) ∣ x.toNat := by
    have hmod : x.toNat % 2 ^ narrow = 0 := by
      rw [← BitVec.toNat_setWidth, hzero]
      rfl
    exact_mod_cast Nat.dvd_of_mod_eq_zero hmod
  have hint : (2 ^ narrow : ℤ) ∣ x.toInt := by
    rw [BitVec.toInt_eq_toNat_cond]
    split
    · exact hdvd
    · push_cast
      exact dvd_sub hdvd (pow_dvd_pow 2 hnarrow)
  have hvalue : x.toInt = 0 := Int.eq_zero_of_abs_lt_dvd hint (lt_of_le_of_lt hx hbound)
  exact hne (BitVec.eq_of_toInt_eq (hvalue.trans BitVec.toInt_zero.symm))

end NrfExamples.SignedBounds
