import NrfExamples.Library.SignedBounds
import NrfExamples.MqttWorking.Bme280

/-!
# The divisor of the pressure compensation

The guard tests a 64-bit value and the division uses its low 32 bits. The two 32-bit shifts of the
temperature compensation bound `t_fine` for every raw reading and every calibration, wrapped or not,
and from there each step of the pressure compensation has a bound. The guarded value stays far below
`2^32`, so it is zero as soon as its low half is.
-/

namespace NrfExamples.MqttWorking.Bme280

open SignedBounds

/-! ## Conversions and shifts -/

theorem toBitVec_shiftRight_int32 (value : Int32) {count : ℕ} (h : count < 32) :
    (value >>> Int32.ofNat count).toBitVec = value.toBitVec.sshiftRight count := by
  have hcount : ∀ count : Fin 32, ((BitVec.ofNat 32 count).smod 32).toNat = count := by decide
  exact congrArg value.toBitVec.sshiftRight (hcount ⟨count, h⟩)

theorem toBitVec_shiftRight_int64 (value : Int64) {count : ℕ} (h : count < 64) :
    (value >>> Int64.ofNat count).toBitVec = value.toBitVec.sshiftRight count := by
  have hcount : ∀ count : Fin 64, ((BitVec.ofNat 64 count).smod 64).toNat = count := by decide
  exact congrArg value.toBitVec.sshiftRight (hcount ⟨count, h⟩)

theorem bounded_int32 (value : Int32) : Bounded 2147483648 value.toBitVec := by
  have hlower := value.le_toInt
  have hupper := value.toInt_lt
  exact abs_le.mpr ⟨hlower, hupper.le⟩

/-- A shift of any `int32_t`. -/
theorem bounded_shiftRight_int32 (value : Int32) {count : ℕ} (h : count < 32) {bound : ℤ}
    (hbound : 2147483648 / 2 ^ count + 1 ≤ bound) :
    Bounded bound (value >>> Int32.ofNat count).toBitVec := by
  rw [toBitVec_shiftRight_int32 value h]
  exact ((bounded_int32 value).sshiftRight count).mono hbound

section Int64

variable {first second bound : ℤ} {x y : Int64}

theorem bounded_shiftRight (hx : Bounded first x.toBitVec) {count : ℕ} (h : count < 64)
    (hbound : first / 2 ^ count + 1 ≤ bound) :
    Bounded bound (x >>> Int64.ofNat count).toBitVec := by
  rw [toBitVec_shiftRight_int64 x h]
  exact (hx.sshiftRight count).mono hbound

theorem bounded_add (hx : Bounded first x.toBitVec) (hy : Bounded second y.toBitVec)
    (hbound : first + second = bound) (hwidth : 2 * bound < 2 ^ 64) :
    Bounded bound (x + y).toBitVec := by
  subst hbound
  rw [Int64.toBitVec_add]
  exact hx.add hy hwidth

theorem bounded_sub (hx : Bounded first x.toBitVec) (hy : Bounded second y.toBitVec)
    (hbound : first + second = bound) (hwidth : 2 * bound < 2 ^ 64) :
    Bounded bound (x - y).toBitVec := by
  subst hbound
  rw [Int64.toBitVec_sub]
  exact hx.sub hy hwidth

theorem bounded_mul (hx : Bounded first x.toBitVec) (hy : Bounded second y.toBitVec)
    (hbound : first * second = bound) (hwidth : 2 * bound < 2 ^ 64) :
    Bounded bound (x * y).toBitVec := by
  subst hbound
  rw [Int64.toBitVec_mul]
  exact hx.mul hy hwidth

end Int64

theorem bounded_toInt64 {bound : ℤ} {value : Int32} (h : Bounded bound value.toBitVec) :
    Bounded bound value.toInt64.toBitVec :=
  (congrArg abs (Int32.toInt_toInt64 value)).trans_le h

theorem bounded_int16 (value : Int16) : Bounded 32768 value.toInt64.toBitVec := by
  have hlower := value.le_toInt
  have hupper := value.toInt_lt
  exact (congrArg abs (Int16.toInt_toInt64 value)).trans_le (abs_le.mpr ⟨hlower, hupper.le⟩)

theorem bounded_uint16 (value : UInt16) : Bounded 65535 value.toUInt64.toInt64.toBitVec := by
  have hlt := value.toNat_lt
  have hnat : value.toUInt64.toInt64.toBitVec.toNat = value.toNat := UInt16.toNat_toUInt64 value
  have hvalue : value.toUInt64.toInt64.toBitVec.toInt = value.toNat := by
    rw [BitVec.toInt_eq_toNat_of_lt (by omega), hnat]
  exact abs_le.mpr ⟨by omega, by omega⟩

/-! ## The guarded value -/

/-- The shifts of the temperature compensation bound the fine temperature. -/
theorem bounded_tFine (data : CustomBme280Data) (adcTemp : Int32) :
    Bounded 1179650 (bme280CompensateTemp data adcTemp).tFine.toBitVec := by
  unfold bme280CompensateTemp
  rw [Int32.toBitVec_add]
  have hvar1 (value : Int32) : Bounded 1048577 (value >>> 11).toBitVec :=
    bounded_shiftRight_int32 value (by decide : 11 < 32) (by norm_num)
  have hvar2 (value : Int32) : Bounded 131073 (value >>> 14).toBitVec :=
    bounded_shiftRight_int32 value (by decide : 14 < 32) (by norm_num)
  exact ((hvar1 _).add (hvar2 _) (by norm_num)).mono (by norm_num)

/-- The square over `2^13` that the quadratic term scales. -/
theorem bounded_square {offset : Int64} (h : Bounded 653826 offset.toBitVec) :
    Bounded 3261498 (((offset >>> 2) * (offset >>> 2)) >>> 13).toBitVec := by
  have hquarter : Bounded 163457 (offset >>> 2).toBitVec :=
    bounded_shiftRight h (by decide : 2 < 64) (by norm_num)
  have hproduct : Bounded 26718190849 ((offset >>> 2) * (offset >>> 2)).toBitVec :=
    bounded_mul hquarter hquarter (by norm_num) (by norm_num)
  exact bounded_shiftRight hproduct (by decide : 13 < 64) (by norm_num)

/-- The guarded value is far from `2^32`. -/
theorem bounded_pressureVar1 {data : CustomBme280Data} (h : Bounded 1179650 data.tFine.toBitVec) :
    Bounded 249185 (pressureVar1 data).toBitVec := by
  unfold pressureVar1
  have hhalf : Bounded 589826 (data.tFine.toInt64 >>> 1).toBitVec :=
    bounded_shiftRight (bounded_toInt64 h) (by decide : 1 < 64) (by norm_num)
  have hoffset : Bounded 653826 ((data.tFine.toInt64 >>> 1) - 64000).toBitVec :=
    bounded_sub hhalf (by decide : Bounded 64000 (64000 : Int64).toBitVec) (by norm_num)
      (by norm_num)
  generalize (data.tFine.toInt64 >>> 1) - 64000 = offset at hoffset ⊢
  have hquadratic : Bounded 13359095809
      ((data.digP3.toInt64 * (((offset >>> 2) * (offset >>> 2)) >>> 13)) >>> 3).toBitVec :=
    bounded_shiftRight
      (bounded_mul (bounded_int16 data.digP3) (bounded_square hoffset) rfl (by norm_num))
      (by decide : 3 < 64) (by norm_num)
  have hlinear : Bounded 10712285185 ((data.digP2.toInt64 * offset) >>> 1).toBitVec :=
    bounded_shiftRight (bounded_mul (bounded_int16 data.digP2) hoffset rfl (by norm_num))
      (by decide : 1 < 64) (by norm_num)
  have hscaled := bounded_shiftRight (bounded_add hquadratic hlinear rfl (by norm_num))
    (by decide : 18 < 64) (by norm_num : _ ≤ (91826 : ℤ))
  have hshifted := bounded_add (by decide : Bounded 32768 (32768 : Int64).toBitVec) hscaled
    (by norm_num : _ = (124594 : ℤ)) (by norm_num)
  exact bounded_shiftRight (bounded_mul hshifted (bounded_uint16 data.digP1) rfl (by norm_num))
    (by decide : 15 < 64) (by norm_num)

/-- Behind the guard the divisor is not zero. -/
theorem unsignedLong_ne_zero {data : CustomBme280Data}
    (h : Bounded 1179650 data.tFine.toBitVec) (hguard : pressureVar1 data ≠ 0) :
    unsignedLong (pressureVar1 data) ≠ 0 := by
  intro hzero
  have hword : (pressureVar1 data).toBitVec ≠ 0 := fun heq ↦ hguard (Int64.toBitVec_inj.mp heq)
  have hnarrow : (pressureVar1 data).toBitVec.setWidth 32 ≠ 0 :=
    setWidth_ne_zero (bounded_pressureVar1 h) (by norm_num) (by norm_num) hword
  exact hnarrow (congrArg UInt32.toBitVec hzero)

theorem isSome_divide (value : Int64) {divisor : UInt32} (h : divisor ≠ 0) :
    (divide value divisor).isSome = true := by
  rw [divide, if_neg h]
  rfl

theorem isSome_compensatePress {data : CustomBme280Data}
    (h : Bounded 1179650 data.tFine.toBitVec) (adcPress : Int32) :
    (bme280CompensatePress data adcPress).isSome = true := by
  unfold bme280CompensatePress
  by_cases hguard : pressureVar1 data = 0
  · simp only [if_pos hguard]
    rfl
  · simp only [if_neg hguard]
    have hdivisor := unsignedLong_ne_zero h hguard
    split
    · rw [Option.isSome_map]
      exact isSome_divide _ hdivisor
    · rw [Option.isSome_map]
      exact isSome_divide _ hdivisor

/-- For every calibration and all raw readings no division of the pressure compensation is by
zero. -/
theorem compensatePress_never_divides_by_zero (data : CustomBme280Data)
    (adcTemp adcPress : Int32) :
    (bme280CompensatePress (bme280CompensateTemp data adcTemp) adcPress).isSome = true :=
  isSome_compensatePress (bounded_tFine data adcTemp) adcPress

end NrfExamples.MqttWorking.Bme280
