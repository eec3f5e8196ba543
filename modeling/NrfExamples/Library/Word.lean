import NrfExamples.Library.Memory
import Mathlib.Algebra.Order.Ring.Int

/-!
# Sixteen-bit two's complement words and their two bytes

`toInt16` is the C conversion to `int16_t`. A word is stored as the byte of its arithmetic shift
by eight and its low byte, and read back by joining the two bytes into a sixteen-bit pattern.
Joining the stored bytes of any integer gives its conversion, so an integer in the sixteen-bit
range survives the round trip.
-/

namespace NrfExamples.Word

open Memory

/-- C conversion to `int16_t`. -/
def toInt16 (value : ℤ) : ℤ := value.bmod 65536

/-- C conversion to `int32_t`. -/
def toInt32 (value : ℤ) : ℤ := value.bmod 4294967296

/-- The values an `int16_t` can hold. -/
def IsInt16 (value : ℤ) : Prop := -32768 ≤ value ∧ value < 32768

theorem toInt16_eq_self {value : ℤ} (h : IsInt16 value) : toInt16 value = value := by
  obtain ⟨hlower, hupper⟩ := h
  exact Int.bmod_eq_of_le (by omega) (by omega)

/-- `(uint8_t)(value >> 8)`. -/
def highByte (value : ℤ) : Byte := BitVec.ofInt 8 (value >>> (8 : ℕ))

/-- `value & 0xff`. -/
def lowByte (value : ℤ) : Byte := BitVec.ofInt 8 value

/-- `high << 8 | low` as a sixteen-bit pattern. -/
def joinBits (high low : Byte) : BitVec 16 := (high.setWidth 16 <<< 8) ||| low.setWidth 16

/-- The joined pattern read as an `int16_t`. -/
def joinBytes (high low : Byte) : ℤ := (joinBits high low).toInt

theorem joinBits_toNat (high low : Byte) :
    (joinBits high low).toNat = high.toNat * 256 + low.toNat := by
  have hhigh := high.isLt
  have hlow := low.isLt
  have hshift : (high.setWidth 16 <<< 8).toNat = high.toNat <<< 8 := by
    rw [BitVec.toNat_shiftLeft, BitVec.toNat_setWidth_of_le (by decide), Nat.shiftLeft_eq]
    omega
  rw [joinBits, BitVec.toNat_or, hshift, BitVec.toNat_setWidth_of_le (by decide),
    ← Nat.shiftLeft_add_eq_or_of_lt hlow, Nat.shiftLeft_eq]

/-- The bytes of a sixteen-bit pattern give the pattern back. -/
theorem joinBits_split (word : BitVec 16) :
    joinBits ((word >>> 8).setWidth 8) (word.setWidth 8) = word := by
  apply BitVec.eq_of_toNat_eq
  have hword := word.isLt
  rw [joinBits_toNat]
  simp only [BitVec.toNat_setWidth, BitVec.toNat_ushiftRight, Nat.shiftRight_eq_div_pow]
  omega

/-- Joining the stored bytes of an integer converts it. -/
theorem joinBytes_split (value : ℤ) :
    joinBytes (highByte value) (lowByte value) = toInt16 value := by
  have hnat : (((joinBits (highByte value) (lowByte value)).toNat : ℕ) : ℤ) = value % 65536 := by
    rw [joinBits_toNat]
    simp only [highByte, lowByte, BitVec.toNat_ofInt, Int.shiftRight_eq_div_pow]
    push_cast
    omega
  rw [joinBytes, BitVec.toInt_eq_toNat_bmod, hnat]
  exact Int.emod_bmod value 65536

theorem joinBytes_of_isInt16 {value : ℤ} (h : IsInt16 value) :
    joinBytes (highByte value) (lowByte value) = value :=
  (joinBytes_split value).trans (toInt16_eq_self h)

end NrfExamples.Word
