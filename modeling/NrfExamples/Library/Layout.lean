import NrfExamples.Library.Memory
import Mathlib.Data.Vector.Defs
import Mathlib.Logic.Equiv.Defs

/-!
# Packed layouts

A packed layout stores the values of a type as byte sequences of one length, and every sequence of
that length stores exactly one value. Little-endian words are packed layouts; a structure without
padding stores its fields one behind the other, an array its elements.
-/

namespace NrfExamples.Memory

/-- A bijection between a type and the byte sequences of one length. -/
structure Layout (α : Type) where
  size : ℕ
  encode : α → List Byte
  decode : List Byte → α
  length_encode : ∀ value, (encode value).length = size
  decode_encode : ∀ value, decode (encode value) = value
  encode_decode : ∀ bytes, bytes.length = size → encode (decode bytes) = bytes

/-! ## Little-endian words -/

/-- The low bytes of a number, the least significant one first. -/
def littleEndian : ℕ → ℕ → List Byte
  | 0, _ => []
  | count + 1, value => BitVec.ofNat 8 value :: littleEndian count (value / 256)

/-- The number whose bytes these are. -/
def ofLittleEndian : List Byte → ℕ
  | [] => 0
  | byte :: bytes => byte.toNat + 256 * ofLittleEndian bytes

@[simp]
theorem length_littleEndian (count value : ℕ) : (littleEndian count value).length = count := by
  induction count generalizing value with
  | zero => rfl
  | succ count ih => rw [littleEndian, List.length_cons, ih]

theorem ofLittleEndian_lt (bytes : List Byte) : ofLittleEndian bytes < 256 ^ bytes.length := by
  induction bytes with
  | nil => exact Nat.one_pos
  | cons byte bytes ih =>
    have hbyte := byte.isLt
    rw [ofLittleEndian, List.length_cons, Nat.pow_succ]
    omega

theorem ofLittleEndian_littleEndian (count value : ℕ) :
    ofLittleEndian (littleEndian count value) = value % 256 ^ count := by
  induction count generalizing value with
  | zero => rw [littleEndian, ofLittleEndian, Nat.pow_zero, Nat.mod_one]
  | succ count ih =>
    calc
      ofLittleEndian (littleEndian (count + 1) value) =
          value % 256 + 256 * (value / 256 % 256 ^ count) := by
        rw [littleEndian, ofLittleEndian, ih, BitVec.toNat_ofNat]
      _ = value % 256 ^ (count + 1) := by rw [Nat.pow_succ', Nat.mod_mul]

theorem littleEndian_ofLittleEndian (bytes : List Byte) :
    littleEndian bytes.length (ofLittleEndian bytes) = bytes := by
  induction bytes with
  | nil => rfl
  | cons byte bytes ih =>
    have hbyte : (byte.toNat + 256 * ofLittleEndian bytes) / 256 = ofLittleEndian bytes := by
      have := byte.isLt
      omega
    rw [List.length_cons, littleEndian, ofLittleEndian, hbyte, ih]
    congr 1
    apply BitVec.eq_of_toNat_eq
    rw [BitVec.toNat_ofNat]
    have := byte.isLt
    omega

namespace Layout

/-- A word of the given number of bytes. -/
def word (count : ℕ) : Layout (BitVec (8 * count)) where
  size := count
  encode value := littleEndian count value.toNat
  decode bytes := BitVec.ofNat (8 * count) (ofLittleEndian bytes)
  length_encode value := length_littleEndian count value.toNat
  decode_encode value := by
    apply BitVec.eq_of_toNat_eq
    have hlt : value.toNat < 256 ^ count := by
      calc
        value.toNat < 2 ^ (8 * count) := value.isLt
        _ = 256 ^ count := by rw [Nat.pow_mul]
    rw [ofLittleEndian_littleEndian, BitVec.toNat_ofNat, Nat.mod_eq_of_lt hlt,
      Nat.mod_eq_of_lt value.isLt]
  encode_decode bytes hlength := by
    have hlt : ofLittleEndian bytes < 2 ^ (8 * count) := by
      calc
        ofLittleEndian bytes < 256 ^ bytes.length := ofLittleEndian_lt bytes
        _ = 2 ^ (8 * count) := by rw [hlength, Nat.pow_mul]
    rw [BitVec.toNat_ofNat, Nat.mod_eq_of_lt hlt, ← hlength, littleEndian_ofLittleEndian]

variable {α β : Type}

/-! ## Structures and arrays -/

/-- The same bytes for another type. -/
def congr (layout : Layout α) (equiv : α ≃ β) : Layout β where
  size := layout.size
  encode value := layout.encode (equiv.symm value)
  decode bytes := equiv (layout.decode bytes)
  length_encode value := layout.length_encode (equiv.symm value)
  decode_encode value := by rw [layout.decode_encode, equiv.apply_symm_apply]
  encode_decode bytes hlength := by rw [equiv.symm_apply_apply, layout.encode_decode bytes hlength]

/-- One field behind the other. -/
def append (first : Layout α) (second : Layout β) : Layout (α × β) where
  size := first.size + second.size
  encode value := first.encode value.1 ++ second.encode value.2
  decode bytes := (first.decode (bytes.take first.size), second.decode (bytes.drop first.size))
  length_encode value := by rw [List.length_append, first.length_encode, second.length_encode]
  decode_encode value := by
    have hlength := first.length_encode value.1
    rw [List.take_left' hlength, List.drop_left' hlength, first.decode_encode,
      second.decode_encode]
  encode_decode bytes hlength := by
    have hfirst : (bytes.take first.size).length = first.size := by
      rw [List.length_take, hlength, Nat.min_eq_left (Nat.le_add_right _ _)]
    have hsecond : (bytes.drop first.size).length = second.size := by
      rw [List.length_drop, hlength, Nat.add_sub_cancel_left]
    rw [first.encode_decode _ hfirst, second.encode_decode _ hsecond, List.take_append_drop]

/-- The elements of an array read one behind the other. -/
def decodeArray (layout : Layout α) : ℕ → List Byte → List α
  | 0, _ => []
  | count + 1, bytes =>
      layout.decode (bytes.take layout.size) ::
        decodeArray layout count (bytes.drop layout.size)

theorem length_decodeArray (layout : Layout α) (count : ℕ) (bytes : List Byte) :
    (layout.decodeArray count bytes).length = count := by
  induction count generalizing bytes with
  | zero => rfl
  | succ count ih => rw [decodeArray, List.length_cons, ih]

theorem length_flatMap_encode (layout : Layout α) (values : List α) :
    (values.flatMap layout.encode).length = layout.size * values.length := by
  induction values with
  | nil => rfl
  | cons value values ih =>
    rw [List.flatMap_cons, List.length_append, layout.length_encode, ih, List.length_cons,
      Nat.mul_succ, Nat.add_comm]

theorem decodeArray_flatMap (layout : Layout α) (values : List α) :
    layout.decodeArray values.length (values.flatMap layout.encode) = values := by
  induction values with
  | nil => rfl
  | cons value values ih =>
    have hlength := layout.length_encode value
    rw [List.length_cons, decodeArray, List.flatMap_cons, List.take_left' hlength,
      List.drop_left' hlength, layout.decode_encode, ih]

theorem flatMap_decodeArray (layout : Layout α) {count : ℕ} {bytes : List Byte}
    (hlength : bytes.length = layout.size * count) :
    (layout.decodeArray count bytes).flatMap layout.encode = bytes := by
  induction count generalizing bytes with
  | zero => exact (List.eq_nil_of_length_eq_zero hlength).symm
  | succ count ih =>
    rw [Nat.mul_succ] at hlength
    have hfirst : (bytes.take layout.size).length = layout.size := by
      rw [List.length_take, hlength, Nat.min_eq_left (Nat.le_add_left _ _)]
    have hrest : (bytes.drop layout.size).length = layout.size * count := by
      rw [List.length_drop, hlength, Nat.add_sub_cancel]
    rw [decodeArray, List.flatMap_cons, layout.encode_decode _ hfirst, ih hrest,
      List.take_append_drop]

/-- An array of a fixed number of elements. -/
def array (layout : Layout α) (count : ℕ) : Layout (List.Vector α count) where
  size := layout.size * count
  encode values := values.1.flatMap layout.encode
  decode bytes := ⟨layout.decodeArray count bytes, layout.length_decodeArray count bytes⟩
  length_encode values := by rw [layout.length_flatMap_encode, values.2]
  decode_encode values := by
    apply Subtype.ext
    obtain ⟨values, rfl⟩ := values
    exact layout.decodeArray_flatMap values
  encode_decode _ hlength := layout.flatMap_decodeArray hlength

/-! ## Machine words -/

def uint16 : Layout UInt16 :=
  (word 2).congr ⟨UInt16.ofBitVec, UInt16.toBitVec, fun _ ↦ rfl, fun _ ↦ rfl⟩

def uint32 : Layout UInt32 :=
  (word 4).congr ⟨UInt32.ofBitVec, UInt32.toBitVec, fun _ ↦ rfl, fun _ ↦ rfl⟩

def int16 : Layout Int16 :=
  (word 2).congr ⟨Int16.ofBitVec, Int16.toBitVec, fun _ ↦ rfl, fun _ ↦ rfl⟩

end Layout

end NrfExamples.Memory
