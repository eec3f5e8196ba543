import NrfExamples.Library.Word
import Mathlib.Logic.Function.Iterate

/-!
# Checksum, clamp and record format

`crc16CcittJch`, `saturateChannelValues` and `clearBuffer` are the functions of `unit_lib.c`. A
record is what the recording loop writes to the PSRAM for one frame: the two bytes of each of the
four channel values followed by the two bytes of the checksum over them. `decodeRecord` is the
decoder of the sender; it gives back every sample that fits an `int16_t`, and the checksum
comparison of the sender accepts every encoded record.
-/

namespace NrfExamples.MqttWorking

open Memory Word

/-- The four recorded channels, in the order of the `ch0` to `ch3` variables. -/
abbrev Channel := Fin 4

instance channelNeZero : NeZero 4 := ⟨Nat.succ_ne_zero 3⟩

/-- One value for each channel. -/
abbrev Quad (α : Type) := Channel → α

/-! ## Checksum -/

/-- One turn of the inner loop over the bits of a byte. -/
def crcBit (crc : BitVec 16) : BitVec 16 :=
  if crc &&& 0x8000 ≠ 0 then (crc <<< 1) ^^^ 0x1021 else crc <<< 1

def crcByte (crc : BitVec 16) (data : Byte) : BitVec 16 :=
  crcBit^[8] (crc ^^^ (data.setWidth 16 <<< 8))

def crc16CcittJch (data : List Byte) (length : ℕ) : BitVec 16 :=
  (data.take length).foldl crcByte 0xFFFF

/-! ## Clamp -/

/-- The clamp that `saturate_channel_values` applies to each of its four arguments. -/
def saturate (value : ℤ) : ℤ :=
  let value := if value > 32750 then 32750 else value
  if value < -32750 then -32750 else value

def saturateChannelValues (values : Quad ℤ) : Quad ℤ := fun channel ↦ saturate (values channel)

def clearBuffer (length : ℕ) : List ℤ := List.replicate length 0

theorem isInt16_saturate (value : ℤ) : IsInt16 (saturate value) := by
  unfold saturate IsInt16
  grind

/-! ## Records -/

/-- The eight sample bytes of a record. -/
def sampleBytes (values : Quad ℤ) : List Byte :=
  [highByte (values 0), lowByte (values 0), highByte (values 1), lowByte (values 1),
    highByte (values 2), lowByte (values 2), highByte (values 3), lowByte (values 3)]

/-- Store the checksum of the first eight bytes behind them. -/
def appendCrc (bytes : List Byte) : List Byte :=
  let crc := crc16CcittJch bytes 8
  bytes.take 8 ++ [(crc >>> 8).setWidth 8, crc.setWidth 8]

/-- The ten bytes written for one frame. -/
def encodeRecord (values : Quad ℤ) : List Byte := appendCrc (sampleBytes values)

/-- The checksum comparison made on a record that was read back. -/
def crcMatches (bytes : List Byte) : Bool :=
  crc16CcittJch bytes 8 == joinBits (bytes.getD 8 0) (bytes.getD 9 0)

/-- The four values of a record, in the order the sender takes its bytes. -/
def decodeRecord (bytes : List Byte) : Quad ℤ := fun channel ↦
  joinBytes (bytes.getD (2 * channel) 0) (bytes.getD (2 * channel + 1) 0)

@[simp]
theorem sampleBytes_length (values : Quad ℤ) : (sampleBytes values).length = 8 := rfl

@[simp]
theorem encodeRecord_length (values : Quad ℤ) : (encodeRecord values).length = 10 := rfl

/-- A record passes its own checksum comparison. -/
theorem crcMatches_appendCrc {bytes : List Byte} (h : bytes.length = 8) :
    crcMatches (appendCrc bytes) = true := by
  have htake : bytes.take 8 = bytes := List.take_of_length_le h.le
  have hdata : (appendCrc bytes).take 8 = bytes := by
    simp only [appendCrc, htake]
    exact List.take_left' h
  have hcrc : crc16CcittJch (appendCrc bytes) 8 = crc16CcittJch bytes 8 := by
    rw [crc16CcittJch, hdata, crc16CcittJch, htake]
  have hhigh : (appendCrc bytes).getD 8 0 = (crc16CcittJch bytes 8 >>> 8).setWidth 8 := by
    simp [appendCrc, List.getD_eq_getElem?_getD, h]
  have hlow : (appendCrc bytes).getD 9 0 = (crc16CcittJch bytes 8).setWidth 8 := by
    simp [appendCrc, List.getD_eq_getElem?_getD, h]
  rw [crcMatches, hcrc, hhigh, hlow, joinBits_split]
  exact beq_self_eq_true _

theorem crcMatches_encodeRecord (values : Quad ℤ) : crcMatches (encodeRecord values) = true :=
  crcMatches_appendCrc (sampleBytes_length values)

/-- Decoding inverts encoding on values that fit an `int16_t`. -/
theorem decodeRecord_encodeRecord {values : Quad ℤ} (h : ∀ channel, IsInt16 (values channel)) :
    decodeRecord (encodeRecord values) = values := by
  funext channel
  calc
    decodeRecord (encodeRecord values) channel =
        joinBytes (highByte (values channel)) (lowByte (values channel)) := by
      match channel with
      | 0 | 1 | 2 | 3 => rfl
    _ = values channel := joinBytes_of_isInt16 (h channel)

end NrfExamples.MqttWorking
