import Mathlib.Algebra.Order.Ring.Int

/-!
# Counting whole units from a reference

A clock is compared with a reference now and then and counts by itself in between. Both the value
at the comparison and the time since are rounded down to whole units, so the reading is never ahead
of the reference, and it is behind by less than two units and by what passed between reading the
reference and storing it. A new comparison never sets such a clock back.
-/

namespace NrfExamples.ReferenceClock

/-- The whole units of the last comparison and the whole units passed since. -/
def counted (unit compared passed : ℤ) : ℤ := compared / unit + passed / unit

/-- A reading in whole units is not ahead of the reference and not more than `slack` behind. -/
structure Follows (unit slack reference reading : ℤ) : Prop where
  not_ahead : unit * reading ≤ reference
  near : reference ≤ unit * reading + slack

variable {unit compared passed : ℤ}

theorem follows_counted (hunit : 0 < unit) {delay : ℤ} (hdelay : 0 ≤ delay) :
    Follows unit (2 * (unit - 1) + delay) (compared + delay + passed)
      (counted unit compared passed) := by
  have hcompared : unit * (compared / unit) + compared % unit = compared :=
    Int.mul_ediv_add_emod compared unit
  have hpassed : unit * (passed / unit) + passed % unit = passed :=
    Int.mul_ediv_add_emod passed unit
  have hcompared_pos : 0 ≤ compared % unit := Int.emod_nonneg compared hunit.ne'
  have hpassed_pos : 0 ≤ passed % unit := Int.emod_nonneg passed hunit.ne'
  have hcompared_lt : compared % unit < unit := Int.emod_lt_of_pos compared hunit
  have hpassed_lt : passed % unit < unit := Int.emod_lt_of_pos passed hunit
  constructor
  · rw [counted, Int.mul_add]
    omega
  · rw [counted, Int.mul_add]
    omega

theorem Follows.mono {slack more reference reading : ℤ} (h : Follows unit slack reference reading)
    (hle : slack ≤ more) : Follows unit more reference reading where
  not_ahead := h.not_ahead
  near := h.near.trans (Int.add_le_add_left hle _)

/-- Between two comparisons the clock does not go back. -/
theorem counted_mono (hunit : 0 < unit) {later : ℤ} (hle : passed ≤ later) :
    counted unit compared passed ≤ counted unit compared later :=
  Int.add_le_add_left (Int.ediv_le_ediv hunit hle) _

/-- A comparison does not set the clock back behind an earlier reading. -/
theorem Follows.le_counted {slack reference reading : ℤ}
    (h : Follows unit slack reference reading) (hunit : 0 < unit) (hle : reference ≤ compared)
    (hpassed : 0 ≤ passed) : reading ≤ counted unit compared passed := by
  have hreading : reading ≤ compared / unit := by
    rw [Int.le_ediv_iff_mul_le hunit, Int.mul_comm]
    exact h.not_ahead.trans hle
  exact hreading.trans (Int.le_add_of_nonneg_right (Int.ediv_nonneg hpassed hunit.le))

end NrfExamples.ReferenceClock
