import NrfExamples.MqttWorking.SensorTransfers
import Mathlib.Tactic.IntervalCases

/-!
# The layout of the calibration registers

A sensor keeps its calibration in three register blocks, and a read returns the registers from the
requested one on. Two of the values have twelve bits and share a register; the driver joins their
parts without extending the sign. The values that it stores are those of the sensor exactly when
neither of the two is negative.
-/

namespace NrfExamples.MqttWorking.Bme280

open Memory Word

/-! ## The sensor -/

/-- The values of a sensor. Two of them have twelve bits. -/
structure Calibration extends Compensation where
  digH4_range : -2048 ≤ digH4.toInt ∧ digH4.toInt < 2048
  digH5_range : -2048 ≤ digH5.toInt ∧ digH5.toInt < 2048

/-- Bits eleven to four of a twelve-bit value. -/
def upperBits (word : BitVec 16) : Byte := (word >>> 4).setWidth 8

/-- The register with the lowest four bits of two values. -/
def sharedBits (upper lower : BitVec 16) : Byte :=
  (upper.setWidth 8 <<< 4) ||| (lower.setWidth 8 &&& 0x0F)

/-- A little-endian word. -/
def wordBytes (word : BitVec 16) : List Byte := [word.setWidth 8, (word >>> 8).setWidth 8]

def calib00Bytes (values : Compensation) : List Byte :=
  [values.digT1.toBitVec, values.digT2.toBitVec, values.digT3.toBitVec, values.digP1.toBitVec,
    values.digP2.toBitVec, values.digP3.toBitVec, values.digP4.toBitVec, values.digP5.toBitVec,
    values.digP6.toBitVec, values.digP7.toBitVec, values.digP8.toBitVec,
    values.digP9.toBitVec].flatMap wordBytes

def calib24Bytes (values : Compensation) : List Byte := [values.digH1.toBitVec]

def calib26Bytes (values : Compensation) : List Byte :=
  wordBytes values.digH2.toBitVec ++
    [values.digH3.toBitVec, upperBits values.digH4.toBitVec,
      sharedBits values.digH5.toBitVec values.digH4.toBitVec, upperBits values.digH5.toBitVec,
      values.digH6.toBitVec]

/-- The blocks of the calibration with their first registers. -/
def blocks (values : Compensation) : List (Byte × List Byte) :=
  [(calib00, calib00Bytes values), (calib24, calib24Bytes values), (calib26, calib26Bytes values)]

/-- The registers of a sensor. Outside the calibration they have any contents. -/
def register (values : Compensation) (others : ℕ → Byte) (address : ℕ) : Byte :=
  ((blocks values).findSome? fun block ↦
    if block.1.toNat ≤ address then block.2[address - block.1.toNat]? else none).getD
    (others address)

/-- A sensor answers a read with its registers from the requested one on. The other registers may
change between the transfers. -/
def sensor (values : Compensation) (succeeds : ℕ → Bool) (others : ℕ → ℕ → Byte) : Spi where
  succeeds := succeeds
  receive number tx position :=
    register values (others number) ((tx.getD 0 0).toNat + (position - 1))

section Blocks

variable (values : Compensation) (succeeds : ℕ → Bool) (others : ℕ → ℕ → Byte) (number : ℕ)

theorem received_calib00 :
    received (sensor values succeeds others) calib00 24 number = calib00Bytes values := by
  rfl

theorem received_calib24 :
    received (sensor values succeeds others) calib24 1 number = calib24Bytes values := by
  rfl

theorem received_calib26 :
    received (sensor values succeeds others) calib26 7 number = calib26Bytes values := by
  rfl

end Blocks

/-! ## Decoded values -/

/-- A value whose twelve bits are taken as unsigned. -/
def withoutSign (value : Int16) : Int16 := .ofBitVec ((value.toBitVec.setWidth 12).setWidth 16)

/-- The sign is only lost where there is one. -/
theorem withoutSign_eq_iff {value : Int16} (h : -2048 ≤ value.toInt ∧ value.toInt < 2048) :
    withoutSign value = value ↔ 0 ≤ value.toInt := by
  have hlt := value.toBitVec.isLt
  have hint : value.toInt = if 2 * value.toBitVec.toNat < 2 ^ 16 then (value.toBitVec.toNat : ℤ)
      else value.toBitVec.toNat - (2 ^ 16 : ℕ) := BitVec.toInt_eq_toNat_cond _
  have hnat : withoutSign value = value ↔
      value.toBitVec.toNat % 2 ^ 12 % 2 ^ 16 = value.toBitVec.toNat := by
    rw [← Int16.toBitVec_inj, ← BitVec.toNat_inj, withoutSign, Int16.toBitVec_ofBitVec,
      BitVec.toNat_setWidth, BitVec.toNat_setWidth]
  rw [hnat]
  rw [hint] at h ⊢
  split at h <;> omega

/-- The words of a little-endian block come back. -/
theorem wordAt_flatMap (words : List (BitVec 16)) {index : ℕ} (h : index < words.length) :
    wordAt (words.flatMap wordBytes) index = words[index] := by
  induction words generalizing index with
  | nil => exact absurd h (Nat.not_lt_zero index)
  | cons word words ih =>
    cases index with
    | zero => exact joinBits_split word
    | succ index => exact ih (Nat.lt_of_succ_lt_succ h)

/-- The conversion of an `int32_t` keeps the lower half of its bits. -/
theorem toInt16_eq_of_setWidth {value : Int32} {result : Int16}
    (h : value.toBitVec.setWidth 16 = result.toBitVec) : value.toInt16 = result := by
  apply Int16.toBitVec_inj.mp
  rw [← h]
  exact BitVec.signExtend_eq_setWidth_of_le value.toBitVec (by decide)

theorem decoded_h2 (value : Int16) :
    ((promote ((value.toBitVec >>> 8).setWidth 8) <<< 8) |||
        promote (value.toBitVec.setWidth 8)).toInt16 = value := by
  apply toInt16_eq_of_setWidth
  change ((((value.toBitVec >>> 8).setWidth 8).setWidth 32 <<< 8) |||
    (value.toBitVec.setWidth 8).setWidth 32).setWidth 16 = value.toBitVec
  ext index hindex
  interval_cases index <;> simp

/-- The upper bits are shifted up by four and the lower half of the shared register is added. -/
theorem decoded_h4 (value other : Int16) :
    ((promote (upperBits value.toBitVec) <<< 4) |||
        (promote (sharedBits other.toBitVec value.toBitVec) &&& (0x0F : Int32))).toInt16 =
      withoutSign value := by
  apply toInt16_eq_of_setWidth
  change (((upperBits value.toBitVec).setWidth 32 <<< 4) |||
    ((sharedBits other.toBitVec value.toBitVec).setWidth 32 &&& 0x0F#32)).setWidth 16 = _
  ext index hindex
  interval_cases index <;> simp [upperBits, sharedBits, withoutSign]

/-- Here the lower bits are in the upper half of the shared register. -/
theorem decoded_h5 (value other : Int16) :
    (((promote (sharedBits value.toBitVec other.toBitVec) >>> 4) &&& (0x0F : Int32)) |||
        (promote (upperBits value.toBitVec) <<< 4)).toInt16 = withoutSign value := by
  apply toInt16_eq_of_setWidth
  change ((((sharedBits value.toBitVec other.toBitVec).setWidth 32).sshiftRight 4 &&& 0x0F#32) |||
    ((upperBits value.toBitVec).setWidth 32 <<< 4)).setWidth 16 = _
  ext index hindex
  interval_cases index <;> simp [upperBits, sharedBits, withoutSign, BitVec.getElem_sshiftRight]

section Decoding

variable (values : Compensation)

theorem storeCalib00_calib00Bytes (data : CustomBme280Data) :
    storeCalib00 data (calib00Bytes values) =
      { data with
        digT1 := values.digT1
        digT2 := values.digT2
        digT3 := values.digT3
        digP1 := values.digP1
        digP2 := values.digP2
        digP3 := values.digP3
        digP4 := values.digP4
        digP5 := values.digP5
        digP6 := values.digP6
        digP7 := values.digP7
        digP8 := values.digP8
        digP9 := values.digP9 } := by
  simp (disch := simp) only [storeCalib00, calib00Bytes, wordAt_flatMap]
  rfl

/-- The sign of the two values of twelve bits is lost. -/
theorem storeCalib26_calib26Bytes (data : CustomBme280Data) :
    storeCalib26 data (calib26Bytes values) =
      { data with
        digH2 := values.digH2
        digH3 := values.digH3
        digH4 := withoutSign values.digH4
        digH5 := withoutSign values.digH5
        digH6 := values.digH6 } := by
  simp only [storeCalib26, calib26Bytes, wordBytes, List.cons_append, List.nil_append,
    List.getD_cons_zero, List.getD_cons_succ, decoded_h2, decoded_h4, decoded_h5]
  rfl

/-- All other values come back. -/
theorem toCompensation_calibrated (succeeds : ℕ → Bool) (others : ℕ → ℕ → Byte)
    (data : CustomBme280Data) (number : ℕ) :
    (calibrated (sensor values succeeds others) data number).toCompensation =
      { values with
        digH4 := withoutSign values.digH4
        digH5 := withoutSign values.digH5 } := by
  rw [calibrated, received_calib00, received_calib24, received_calib26,
    storeCalib26_calib26Bytes, storeCalib00_calib00Bytes]
  rfl

end Decoding

/-! ## Stored values -/

/-- A read of the calibration of a sensor with the given values. -/
def calibrate (calibration : Calibration) (succeeds : ℕ → Bool) (others : ℕ → ℕ → Byte)
    (data : CustomBme280Data) (log : List Transfer) : Returned :=
  bme280ReadCompensation (sensor calibration.toCompensation succeeds others) data log

/-- The driver data hold exactly the values of the sensor. -/
def StoresCalibration (calibration : Calibration) (returned : Returned) : Prop :=
  returned.data.toCompensation = calibration.toCompensation

instance (calibration : Calibration) (returned : Returned) :
    Decidable (StoresCalibration calibration returned) :=
  inferInstanceAs (Decidable (_ = _))

/-- A successful read stores the values of the sensor exactly when the two of twelve bits are not
negative. -/
theorem storesCalibration_iff (calibration : Calibration) (succeeds : ℕ → Bool)
    (others : ℕ → ℕ → Byte) (data : CustomBme280Data) (log : List Transfer)
    (hsuccess : (calibrate calibration succeeds others data log).value = 0) :
    StoresCalibration calibration (calibrate calibration succeeds others data log) ↔
      0 ≤ calibration.digH4.toInt ∧ 0 ≤ calibration.digH5.toInt := by
  rw [StoresCalibration, calibrate, data_bme280ReadCompensation hsuccess,
    toCompensation_calibrated, ← withoutSign_eq_iff calibration.digH4_range,
    ← withoutSign_eq_iff calibration.digH5_range]
  constructor
  · intro h
    exact ⟨congrArg Compensation.digH4 h, congrArg Compensation.digH5 h⟩
  · rintro ⟨hdigH4, hdigH5⟩
    rw [hdigH4, hdigH5]

/-- A calibration with the given values of twelve bits. -/
def exampleCalibration (digH4 digH5 : Int16) (hdigH4 : -2048 ≤ digH4.toInt ∧ digH4.toInt < 2048)
    (hdigH5 : -2048 ≤ digH5.toInt ∧ digH5.toInt < 2048) : Calibration where
  digT1 := 27504
  digT2 := 26435
  digT3 := -1000
  digP1 := 36477
  digP2 := -10685
  digP3 := 3024
  digP4 := 2855
  digP5 := 140
  digP6 := -7
  digP7 := 15500
  digP8 := -14600
  digP9 := 6000
  digH1 := 75
  digH2 := 370
  digH3 := 0
  digH4 := digH4
  digH5 := digH5
  digH6 := 30
  digH4_range := hdigH4
  digH5_range := hdigH5

theorem storesCalibration_iff_positive :
    let calibration := exampleCalibration 313 50 (by decide) (by decide)
    let returned := calibrate calibration (fun _ ↦ true) (fun _ _ ↦ 0) default []
    returned.value = 0 ∧ StoresCalibration calibration returned :=
  ⟨rfl, (storesCalibration_iff (exampleCalibration 313 50 (by decide) (by decide)) (fun _ ↦ true)
    (fun _ _ ↦ 0) default [] rfl).mpr (by decide)⟩

/-- The value -1 is stored as 4095. -/
theorem not_storesCalibration_negative :
    let calibration := exampleCalibration (-1) 50 (by decide) (by decide)
    let returned := calibrate calibration (fun _ ↦ true) (fun _ _ ↦ 0) default []
    returned.value = 0 ∧ ¬ StoresCalibration calibration returned ∧
      returned.data.digH4 = 4095 := by
  decide

end NrfExamples.MqttWorking.Bme280
