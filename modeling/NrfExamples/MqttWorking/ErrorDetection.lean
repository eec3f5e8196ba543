import NrfExamples.Library.Crc
import NrfExamples.MqttWorking.UnitLib

/-!
# Errors that the record checksum detects

`crc16_ccitt_jch` is the remainder of the message bits for the generator `0x1021`, started at
`0xFFFF`. Bytes with a matching checksum behind them are those whose remainder is zero, so a pattern
of flipped bits stays unnoticed only if its own remainder is zero. For payloads whose length fits
the `uint8_t` argument this excludes every odd number of flips, every two flips and every pattern
within sixteen consecutive bits.
-/

namespace NrfExamples.MqttWorking

open Crc Memory Word

def generator : BitVec 16 := 0x1021

/-- The bits of a byte, the highest one first. -/
def byteBits (byte : Byte) : List Bool := (List.range 8).map byte.getMsbD

def bitsOf (bytes : List Byte) : List Bool := bytes.flatMap byteBits

/-- A payload followed by the high and the low byte of its checksum. -/
def withCrc (payload : List Byte) : List Byte :=
  let crc := crc16CcittJch payload payload.length
  payload ++ [(crc >>> 8).setWidth 8, crc.setWidth 8]

/-- The checksum comparison for a payload of the given length. -/
def crcAccepts (length : ℕ) (bytes : List Byte) : Bool :=
  crc16CcittJch bytes length == joinBits (bytes.getD length 0) (bytes.getD (length + 1) 0)

/-- The bytes with the bits flipped that are set in `flips`. -/
def corrupt (bytes flips : List Byte) : List Byte := List.zipWith (· ^^^ ·) bytes flips

@[simp]
theorem byteBits_length (byte : Byte) : (byteBits byte).length = 8 := by simp [byteBits]

theorem getD_byteBits (byte : Byte) (index : ℕ) :
    (byteBits byte).getD index false = byte.getMsbD index := by
  unfold byteBits
  by_cases hindex : index < 8
  · rw [List.getD_eq_getElem _ _ (by simpa using hindex), List.getElem_map, List.getElem_range]
  · rw [List.getD_eq_default _ _ (by simpa using hindex), BitVec.getMsbD_of_ge _ _ (by omega)]

theorem bitsOf_cons (byte : Byte) (bytes : List Byte) :
    bitsOf (byte :: bytes) = byteBits byte ++ bitsOf bytes := List.flatMap_cons

theorem bitsOf_append (first second : List Byte) :
    bitsOf (first ++ second) = bitsOf first ++ bitsOf second := List.flatMap_append

/-! ## The checksum as a remainder -/

theorem crcBit_eq_mulX (crc : BitVec 16) : crcBit crc = mulX generator crc := by
  have hmask : crc &&& 0x8000 = if crc.msb then 0x8000#16 else 0#16 := by
    rw [BitVec.msb_eq_getLsbD_last]
    exact BitVec.and_twoPow crc 15
  unfold crcBit mulX
  rw [hmask]
  cases crc.msb with
  | false => rfl
  | true => rfl

theorem pack_byteBits (byte : Byte) : pack 16 (byteBits byte) = byte.setWidth 16 <<< 8 := by
  apply BitVec.eq_of_getMsbD_eq
  intro index hindex
  have hposition : index + 8 + 8 - 16 = index := by omega
  have hinside : 16 - 8 ≤ index + 8 := by omega
  rw [getMsbD_pack _ hindex, getD_byteBits, BitVec.getMsbD_shiftLeft, BitVec.getMsbD_setWidth,
    decide_eq_true hinside, Bool.true_and, hposition]

theorem crcByte_eq_remainder (crc : BitVec 16) (data : Byte) :
    crcByte crc data = remainder generator crc (byteBits data) := by
  have hbit : crcBit = mulX generator := funext crcBit_eq_mulX
  rw [crcByte, hbit, remainder_eq_iterate _ _ (by simp), byteBits_length, pack_byteBits]

theorem crc16CcittJch_eq_remainder (data : List Byte) :
    crc16CcittJch data data.length = remainder generator 0xFFFF (bitsOf data) := by
  rw [crc16CcittJch, List.take_length]
  generalize (0xFFFF : BitVec 16) = start
  induction data generalizing start with
  | nil => rfl
  | cons byte data ih =>
    rw [List.foldl_cons, ih, bitsOf_cons, remainder_append, crcByte_eq_remainder]

theorem joinBits_eq_pack (high low : Byte) :
    joinBits high low = pack 16 (byteBits high ++ byteBits low) := by
  apply BitVec.eq_of_getMsbD_eq
  intro index hindex
  rw [joinBits, ← pack_byteBits, BitVec.getMsbD_or, getMsbD_pack _ hindex, getMsbD_pack _ hindex,
    getD_byteBits, BitVec.getMsbD_setWidth]
  by_cases hhigh : index < 8
  · rw [List.getD_append _ _ _ _ (by simpa using hhigh), getD_byteBits,
      decide_eq_false (by omega), Bool.false_and, Bool.or_false]
  · rw [List.getD_append_right _ _ _ _ (by simpa using hhigh), byteBits_length, getD_byteBits,
      BitVec.getMsbD_of_ge _ _ (not_lt.mp hhigh), decide_eq_true (by omega), Bool.true_and,
      Bool.false_or]
    congr 1

/-- The comparison accepts the bytes whose remainder is zero. -/
theorem crcAccepts_iff (payload : List Byte) (high low : Byte) :
    crcAccepts payload.length (payload ++ [high, low]) = true ↔
      remainder generator 0xFFFF (bitsOf (payload ++ [high, low])) = 0#16 := by
  have hcrc : crc16CcittJch (payload ++ [high, low]) payload.length =
      remainder generator 0xFFFF (bitsOf payload) := by
    rw [← crc16CcittJch_eq_remainder, crc16CcittJch, List.take_left, crc16CcittJch,
      List.take_length]
  have hhigh : (payload ++ [high, low]).getD payload.length 0 = high := by
    simp [List.getD_eq_getElem?_getD]
  have hlow : (payload ++ [high, low]).getD (payload.length + 1) 0 = low := by
    simp [List.getD_eq_getElem?_getD]
  have hlast : bitsOf [high, low] = byteBits high ++ byteBits low := by
    rw [bitsOf_cons, bitsOf_cons]
    exact congrArg _ (List.append_nil _)
  have hlength : (byteBits high ++ byteBits low).length ≤ 16 := by simp
  rw [crcAccepts, hcrc, hhigh, hlow, beq_iff_eq, bitsOf_append, remainder_append, hlast,
    remainder_eq_iterate _ _ hlength, iterate_mulX_eq_zero_iff _ (by decide),
    BitVec.xor_eq_zero_iff, joinBits_eq_pack]

theorem crcAccepts_eq_true_iff {length : ℕ} {bytes : List Byte} (h : bytes.length = length + 2) :
    crcAccepts length bytes = true ↔ remainder generator 0xFFFF (bitsOf bytes) = 0#16 := by
  have hdrop : (bytes.drop length).length = 2 := by
    rw [List.length_drop]
    omega
  have htake : (bytes.take length).length = length := List.length_take_of_le (by omega)
  obtain ⟨high, low, hlast⟩ := List.length_eq_two.mp hdrop
  have haccepts := crcAccepts_iff (bytes.take length) high low
  rwa [htake, ← hlast, List.take_append_drop] at haccepts

theorem crcAccepts_withCrc (payload : List Byte) :
    crcAccepts payload.length (withCrc payload) = true := by
  have hcrc : crc16CcittJch (withCrc payload) payload.length =
      crc16CcittJch payload payload.length := by
    rw [crc16CcittJch, withCrc, List.take_left, crc16CcittJch, List.take_length]
  have hhigh : (withCrc payload).getD payload.length 0 =
      (crc16CcittJch payload payload.length >>> 8).setWidth 8 := by
    simp [withCrc, List.getD_eq_getElem?_getD]
  have hlow : (withCrc payload).getD (payload.length + 1) 0 =
      (crc16CcittJch payload payload.length).setWidth 8 := by
    simp [withCrc, List.getD_eq_getElem?_getD]
  rw [crcAccepts, hcrc, hhigh, hlow, joinBits_split]
  exact beq_self_eq_true _

/-! ## Corrupted bytes -/

theorem byteBits_xor (byte flip : Byte) :
    byteBits (byte ^^^ flip) = List.zipWith Bool.xor (byteBits byte) (byteBits flip) := by
  simp [byteBits, List.zipWith_map, List.zipWith_self]

theorem bitsOf_corrupt {bytes flips : List Byte} (hlength : bytes.length = flips.length) :
    bitsOf (corrupt bytes flips) = List.zipWith Bool.xor (bitsOf bytes) (bitsOf flips) := by
  induction bytes generalizing flips with
  | nil =>
    rw [List.length_eq_zero_iff.mp hlength.symm]
    rfl
  | cons byte bytes ih =>
    obtain ⟨flip, flips, rfl⟩ := List.exists_cons_of_length_eq_add_one hlength.symm
    have hrest := ih (Nat.succ.inj hlength)
    rw [bitsOf_cons, bitsOf_cons, List.zipWith_append (by simp), ← byteBits_xor, ← hrest]
    exact bitsOf_cons ..

@[simp]
theorem bitsOf_length (bytes : List Byte) : (bitsOf bytes).length = 8 * bytes.length := by
  induction bytes with
  | nil => rfl
  | cons byte bytes ih =>
    rw [bitsOf_cons, List.length_append, byteBits_length, ih, List.length_cons]
    omega

/-- The flips in question: an odd number, exactly two, or some within sixteen consecutive bits. -/
def Detectable (flips : List Bool) : Prop :=
  Odd (flips.count true) ∨ flips.count true = 2 ∨
    true ∈ flips ∧ ∃ start, ∀ index, flips.getD index false = true →
      start ≤ index ∧ index < start + 16

/-- The order of the variable exceeds the bits of the longest payload with its checksum. -/
theorem avoids_top : avoids generator (top 16) 2055 (top 16) = true := by decide +kernel

theorem remainder_ne_zero_of_detectable {flips : List Bool} (hlength : flips.length ≤ 2056)
    (h : Detectable flips) : remainder generator 0#16 flips ≠ 0#16 := by
  have hg : generator.getLsbD 0 = true := by decide
  obtain hodd | htwo | ⟨hset, start, hburst⟩ := h
  · exact remainder_ne_zero_of_odd hg (by decide) hodd
  · apply remainder_ne_zero_of_two hg htwo
    intro distance hpos hdistance
    exact iterate_ne_of_avoids generator avoids_top hpos (by omega)
  · exact remainder_ne_zero_of_burst hg hset hburst

theorem corrupt_length {bytes flips : List Byte} (h : flips.length = bytes.length) :
    (corrupt bytes flips).length = bytes.length := by
  rw [corrupt, List.length_zipWith, h, min_self]

theorem withCrc_length (payload : List Byte) : (withCrc payload).length = payload.length + 2 :=
  List.length_append

/-- Flips go unnoticed exactly if their own remainder is zero. -/
theorem crcAccepts_corrupt_iff {payload flips : List Byte}
    (hflips : flips.length = payload.length + 2) :
    crcAccepts payload.length (corrupt (withCrc payload) flips) = true ↔
      remainder generator 0#16 (bitsOf flips) = 0#16 := by
  have hlength : flips.length = (withCrc payload).length :=
    hflips.trans (withCrc_length payload).symm
  have hsent : remainder generator 0xFFFF (bitsOf (withCrc payload)) = 0#16 :=
    (crcAccepts_eq_true_iff (withCrc_length payload)).mp (crcAccepts_withCrc payload)
  have hreceived : remainder generator 0xFFFF (bitsOf (corrupt (withCrc payload) flips)) =
      remainder generator 0#16 (bitsOf flips) := by
    calc
      remainder generator 0xFFFF (bitsOf (corrupt (withCrc payload) flips)) =
          remainder generator (0xFFFF ^^^ 0#16)
            (List.zipWith Bool.xor (bitsOf (withCrc payload)) (bitsOf flips)) := by
        rw [bitsOf_corrupt hlength.symm, BitVec.xor_zero]
      _ = remainder generator 0xFFFF (bitsOf (withCrc payload)) ^^^
            remainder generator 0#16 (bitsOf flips) := by
        apply remainder_zipWith_xor
        rw [bitsOf_length, bitsOf_length, hlength]
      _ = remainder generator 0#16 (bitsOf flips) := by rw [hsent, BitVec.zero_xor]
  rw [← hreceived]
  exact crcAccepts_eq_true_iff ((corrupt_length hlength).trans (withCrc_length payload))

/-- The checksum comparison refuses a payload with its checksum once such flips hit it. -/
theorem crcAccepts_corrupt {payload flips : List Byte}
    (hpayload : 1 ≤ payload.length ∧ payload.length ≤ 255)
    (hflips : flips.length = payload.length + 2) (h : Detectable (bitsOf flips)) :
    crcAccepts payload.length (corrupt (withCrc payload) flips) = false := by
  have hbits : (bitsOf flips).length ≤ 2056 := by
    rw [bitsOf_length, hflips]
    omega
  rw [← Bool.not_eq_true, crcAccepts_corrupt_iff hflips]
  exact remainder_ne_zero_of_detectable hbits h

theorem crcAccepts_corrupt_boundary :
    crcAccepts 2 (corrupt (withCrc [0x12, 0x34]) [0, 0x01, 0x80, 0]) = false :=
  have hpayload : 1 ≤ ([0x12, 0x34] : List Byte).length ∧
      ([0x12, 0x34] : List Byte).length ≤ 255 := by decide
  crcAccepts_corrupt hpayload rfl (Or.inr (Or.inl (by decide)))

end NrfExamples.MqttWorking
