import Mathlib.Algebra.Order.Ring.Int
import Mathlib.Data.Int.ConditionallyCompleteOrder
import Mathlib.Logic.Function.Iterate
import Mathlib.Order.Iterate
import Mathlib.Tactic.Linarith
import Mathlib.Tactic.Ring

/-!
# Integer smoothing filters

`smooth den target` moves a state towards a target by one part in `den`, rounding down. The
distance to the level that the filter settles at shrinks by `decay den` in every step, from both
sides. From above that level is the target itself; from below the rounding leaves a dead band of
`den - 1` counts in which the filter no longer moves.
-/

namespace NrfExamples.Smoothing

/-- One step of a filter with weight `1 / den` for the target, rounded down. -/
def smooth (den : ℕ) (target state : ℤ) : ℤ := (target + (den - 1) * state) / den

/-- What is left of a distance after one step. -/
def decay (den distance : ℕ) : ℕ := (den - 1) * distance / den

/-- The level at which the filter stops. -/
def settledLevel (den : ℕ) (target start : ℤ) : ℤ :=
  if target ≤ start then target else max start (target - (den - 1))

/-! ## Distances -/

theorem decay_le (den distance : ℕ) : decay den distance ≤ distance := by
  apply Nat.div_le_of_le_mul
  exact Nat.mul_le_mul_right distance (Nat.sub_le den 1)

theorem decay_mono (den : ℕ) : Monotone (decay den) := fun _ _ h ↦
  Nat.div_le_div_right (Nat.mul_le_mul_left _ h)

@[simp]
theorem decay_zero (den : ℕ) : decay den 0 = 0 := by simp [decay]

theorem antitone_iterate_decay (den distance : ℕ) :
    Antitone fun step ↦ (decay den)^[step] distance :=
  (decay_mono den).antitone_iterate_of_map_le (decay_le den distance)

/-- A bound whose iterates reach zero bounds the settling time of every smaller distance. -/
theorem iterate_decay_eq_zero {den bound distance steps step : ℕ} (hdistance : distance ≤ bound)
    (hbound : (decay den)^[steps] bound = 0) (hstep : steps ≤ step) :
    (decay den)^[step] distance = 0 := by
  apply Nat.eq_zero_of_le_zero
  calc
    (decay den)^[step] distance ≤ (decay den)^[steps] distance :=
      antitone_iterate_decay den distance hstep
    _ ≤ (decay den)^[steps] bound := (decay_mono den).iterate steps hdistance
    _ = 0 := hbound

/-! ## States -/

section Positive

variable {den : ℕ} (hden : 0 < den) (target : ℤ)

include hden

theorem cast_decay (distance : ℕ) :
    ((decay den distance : ℕ) : ℤ) = (den - 1) * distance / den := by
  rw [decay]
  push_cast [Nat.cast_sub hden]
  rfl

/-- One step from above the target. -/
theorem smooth_above (distance : ℕ) :
    smooth den target (target + distance) = target + decay den distance := by
  have hsplit : target + (den - 1) * (target + distance) =
      (den - 1) * distance + den * target := by ring
  rw [smooth, hsplit, Int.add_mul_ediv_left _ _ (by omega), cast_decay hden, add_comm]

/-- One step from below the dead band. -/
theorem smooth_below (distance : ℕ) :
    smooth den target (target - (den - 1) - distance) =
      target - (den - 1) - decay den distance := by
  have hpos : (0 : ℤ) < den := by exact_mod_cast hden
  have hquotient := Int.mul_ediv_self_le (x := (den - 1) * (distance : ℤ)) hpos.ne'
  have hremainder := Int.lt_mul_ediv_self_add (x := (den - 1) * (distance : ℤ)) hpos
  rw [smooth, cast_decay hden, Int.ediv_eq_iff_of_pos hpos]
  constructor
  · linarith
  · linarith

/-- Inside the dead band the filter does not move. -/
theorem smooth_eq_self {state : ℤ} (hlower : target - (den - 1) ≤ state) (hupper : state ≤ target) :
    smooth den target state = state := by
  rw [smooth, Int.ediv_eq_iff_of_pos (by exact_mod_cast hden)]
  constructor
  · linarith
  · linarith

theorem iterate_smooth_above (distance step : ℕ) :
    (smooth den target)^[step] (target + distance) = target + ((decay den)^[step] distance : ℕ) :=
  have hsemiconj : Function.Semiconj (fun distance : ℕ ↦ target + (distance : ℤ))
      (decay den) (smooth den target) := fun distance ↦ (smooth_above hden target distance).symm
  (hsemiconj.iterate_right step distance).symm

theorem iterate_smooth_below (distance step : ℕ) :
    (smooth den target)^[step] (target - (den - 1) - distance) =
      target - (den - 1) - ((decay den)^[step] distance : ℕ) :=
  have hsemiconj : Function.Semiconj (fun distance : ℕ ↦ target - (den - 1) - (distance : ℤ))
      (decay den) (smooth den target) := fun distance ↦ (smooth_below hden target distance).symm
  (hsemiconj.iterate_right step distance).symm

/-! ## Runs -/

variable {target} {start : ℤ}

theorem iterate_of_target_le (h : target ≤ start) (step : ℕ) :
    (smooth den target)^[step] start =
      target + ((decay den)^[step] (start - target).toNat : ℕ) := by
  have hstart : start = target + ((start - target).toNat : ℤ) := by omega
  conv_lhs => rw [hstart]
  exact iterate_smooth_above hden target _ step

theorem iterate_of_dead_band (hlower : target - (den - 1) ≤ start) (hupper : start ≤ target)
    (step : ℕ) : (smooth den target)^[step] start = start :=
  Function.iterate_fixed (smooth_eq_self hden target hlower hupper) step

theorem iterate_of_le_dead_band (h : start ≤ target - (den - 1)) (step : ℕ) :
    (smooth den target)^[step] start =
      target - (den - 1) - ((decay den)^[step] (target - (den - 1) - start).toNat : ℕ) := by
  have hstart : start = target - (den - 1) - ((target - (den - 1) - start).toNat : ℤ) := by omega
  conv_lhs => rw [hstart]
  exact iterate_smooth_below hden target _ step

/-- From above, the states fall and stay above the target. -/
theorem antitone_of_target_le (h : target ≤ start) :
    Antitone (fun step ↦ (smooth den target)^[step] start) ∧
      ∀ step, target ≤ (smooth den target)^[step] start := by
  simp only [iterate_of_target_le hden h]
  constructor
  · intro step later hle
    have hdecay := antitone_iterate_decay den (start - target).toNat hle
    dsimp only at hdecay ⊢
    omega
  · intro step
    omega

/-- From below, the states rise and stay below the target. -/
theorem monotone_of_le_target (h : start ≤ target) :
    Monotone (fun step ↦ (smooth den target)^[step] start) ∧
      ∀ step, (smooth den target)^[step] start ≤ target := by
  by_cases hband : target - (den - 1) ≤ start
  · simp only [iterate_of_dead_band hden hband h]
    exact ⟨monotone_const, fun _ ↦ h⟩
  · simp only [iterate_of_le_dead_band hden (not_le.mp hband).le]
    constructor
    · intro step later hle
      have hdecay := antitone_iterate_decay den (target - (den - 1) - start).toNat hle
      dsimp only at hdecay ⊢
      omega
    · intro step
      omega

/-- After the settling time of a bound on the distance, the state is the settled level. -/
theorem iterate_eq_settledLevel {bound steps step : ℕ} (hdistance : (start - target).natAbs ≤ bound)
    (hbound : (decay den)^[steps] bound = 0) (hstep : steps ≤ step) :
    (smooth den target)^[step] start = settledLevel den target start := by
  unfold settledLevel
  by_cases habove : target ≤ start
  · rw [if_pos habove, iterate_of_target_le hden habove,
      iterate_decay_eq_zero (by omega) hbound hstep, Nat.cast_zero, add_zero]
  · rw [if_neg habove]
    by_cases hband : target - (den - 1) ≤ start
    · rw [iterate_of_dead_band hden hband (not_le.mp habove).le, max_eq_left hband]
    · rw [iterate_of_le_dead_band hden (not_le.mp hband).le,
        iterate_decay_eq_zero (by omega) hbound hstep, Nat.cast_zero, sub_zero,
        max_eq_right (not_le.mp hband).le]

end Positive

end NrfExamples.Smoothing
