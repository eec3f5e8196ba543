import Mathlib.Data.List.Basic
import Mathlib.Data.List.GetD
import Mathlib.Algebra.Order.Ring.Nat

/-!
# Byte stores and block copies

`Store` is a byte-addressed memory with block writes and block reads. `Logged` describes an
append-only log of records of one size laid out from address zero. `copy` is the C block copy
between two arrays of one element type, and `Buffer` a byte array of fixed length. `latest` says
which byte a buffer shows at a position once its front has been overwritten several times.
-/

namespace NrfExamples.Memory

abbrev Byte := BitVec 8

abbrev Store := ℕ → Byte

def write (store : Store) (address : ℕ) (bytes : List Byte) : Store := fun location ↦
  if address ≤ location ∧ location < address + bytes.length then
    bytes.getD (location - address) 0
  else store location

def read (store : Store) (address length : ℕ) : List Byte :=
  (List.range length).map fun offset ↦ store (address + offset)

@[simp]
theorem read_length (store : Store) (address length : ℕ) :
    (read store address length).length = length := by
  simp [read]

theorem take_read (store : Store) (address : ℕ) {length count : ℕ} (h : count ≤ length) :
    (read store address length).take count = read store address count := by
  rw [read, ← List.map_take, List.take_range, Nat.min_eq_left h]
  rfl

theorem getD_read (store : Store) (address : ℕ) {length offset : ℕ} (h : offset < length) :
    (read store address length).getD offset 0 = store (address + offset) := by
  have hlength : offset < (read store address length).length := by rwa [read_length]
  rw [List.getD_eq_getElem _ _ hlength]
  simp only [read, List.getElem_map, List.getElem_range]

theorem read_write_same (store : Store) (address : ℕ) (bytes : List Byte) :
    read (write store address bytes) address bytes.length = bytes := by
  apply List.ext_getElem (by simp)
  intro index _ hindex
  have hrange : address ≤ address + index ∧ address + index < address + bytes.length :=
    ⟨by omega, by omega⟩
  simp only [read, write, List.getElem_map, List.getElem_range, if_pos hrange,
    Nat.add_sub_cancel_left]
  exact List.getD_eq_getElem bytes 0 hindex

theorem read_write_disjoint (store : Store) (address start length : ℕ) (bytes : List Byte)
    (hdisjoint : start + length ≤ address) :
    read (write store address bytes) start length = read store start length := by
  apply List.map_congr_left
  intro offset hoffset
  have hbound := List.mem_range.mp hoffset
  exact if_neg (by omega)

/-- The records stored one after the other from address zero. -/
def Logged (size : ℕ) (store : Store) (records : List (List Byte)) : Prop :=
  ∀ index, ∀ h : index < records.length, read store (size * index) size = records[index]

theorem logged_nil (size : ℕ) (store : Store) : Logged size store [] := by
  intro index h
  exact absurd h (Nat.not_lt_zero index)

/-- Writing behind the last record leaves every record in place. -/
theorem Logged.write_behind {size : ℕ} {store : Store} {records : List (List Byte)}
    (h : Logged size store records) (address : ℕ) (hbehind : size * records.length ≤ address)
    (bytes : List Byte) : Logged size (write store address bytes) records := by
  intro index hindex
  have hnext : size * (index + 1) ≤ size * records.length := Nat.mul_le_mul_left size hindex
  rw [read_write_disjoint store address (size * index) size bytes
    (by rw [Nat.mul_add, Nat.mul_one] at hnext; omega)]
  exact h index hindex

/-- Writing one record at the end of the log appends it. -/
theorem Logged.append {size : ℕ} {store : Store} {records : List (List Byte)}
    (h : Logged size store records) (record : List Byte) (hsize : record.length = size) :
    Logged size (write store (size * records.length) record) (records ++ [record]) := by
  intro index hindex
  have hbound : index < records.length + 1 := by simpa using hindex
  obtain hlt | heq : index < records.length ∨ index = records.length := by omega
  · rw [List.getElem_append_left hlt]
    exact h.write_behind _ le_rfl record index hlt
  · subst heq
    rw [List.getElem_concat_length rfl]
    conv_lhs => rw [← hsize]
    exact read_write_same store _ record

/-- One byte of a record of the log. -/
theorem Logged.byte {size : ℕ} {store : Store} {records : List (List Byte)}
    (h : Logged size store records) {index offset : ℕ} (hindex : index < records.length)
    (hoffset : offset < size) :
    store (size * index + offset) = records[index].getD offset 0 := by
  rw [← h index hindex, getD_read store _ hoffset]

/-! ## Block copies between arrays -/

variable {α : Type}

/-- Copy `count` elements of `source` from index `start` over `target` from index `offset`. -/
def copy (target : List α) (offset : ℕ) (source : List α) (start count : ℕ) : List α :=
  target.mapIdx fun index old ↦
    if offset ≤ index ∧ index < offset + count then source.getD (start + (index - offset)) old
    else old

@[simp]
theorem copy_length (target source : List α) (offset start count : ℕ) :
    (copy target offset source start count).length = target.length := by
  simp [copy]

theorem getElem_copy_inside {target source : List α} {offset start count index : ℕ}
    (h : index < (copy target offset source start count).length)
    (hrange : offset ≤ index ∧ index < offset + count)
    (hsource : start + (index - offset) < source.length) :
    (copy target offset source start count)[index] = source[start + (index - offset)] := by
  simp only [copy, List.getElem_mapIdx, if_pos hrange]
  exact List.getD_eq_getElem source _ hsource

theorem getElem_copy_outside {target source : List α} {offset start count index : ℕ}
    (h : index < (copy target offset source start count).length)
    (hrange : ¬ (offset ≤ index ∧ index < offset + count)) (htarget : index < target.length) :
    (copy target offset source start count)[index] = target[index] := by
  simp only [copy, List.getElem_mapIdx, if_neg hrange]

/-- Only the elements that are copied matter. -/
theorem copy_take (target : List α) (offset : ℕ) (source : List α) (count : ℕ) :
    copy target offset (source.take count) 0 count = copy target offset source 0 count := by
  unfold copy
  congr 1
  funext index old
  by_cases hrange : offset ≤ index ∧ index < offset + count
  · rw [if_pos hrange, if_pos hrange, List.getD_eq_getElem?_getD, List.getD_eq_getElem?_getD,
      List.getElem?_take_of_lt (by omega)]
  · rw [if_neg hrange, if_neg hrange]

/-- A copy of a whole array over one of the same length. -/
theorem copy_all (target source : List α) (h : target.length = source.length) :
    copy target 0 source 0 source.length = source := by
  apply List.ext_getElem (by simp [h])
  intro index hcopy hindex
  rw [getElem_copy_inside hcopy ⟨Nat.zero_le _, by omega⟩ (by omega)]
  simp

/-- Two copies that put a tail in front of a head fill the target with the rotated source. -/
theorem copy_tail_head (target source : List α) (head : ℕ) (h : target.length = source.length)
    (hhead : head ≤ source.length) :
    copy (copy target 0 source head (source.length - head)) (source.length - head) source 0 head =
      source.drop head ++ source.take head := by
  apply List.ext_getElem (by simp [h]; omega)
  intro index hcopy _
  have hindex : index < source.length := by simpa [h] using hcopy
  have hfirst : index < (copy target 0 source head (source.length - head)).length := by
    rwa [copy_length, h]
  by_cases htail : index < source.length - head
  · rw [getElem_copy_outside hcopy (by omega) hfirst,
      getElem_copy_inside hfirst ⟨Nat.zero_le _, by omega⟩ (by omega),
      List.getElem_append_left (by simpa using htail), List.getElem_drop]
    rfl
  · rw [getElem_copy_inside hcopy ⟨not_lt.mp htail, by omega⟩ (by omega),
      List.getElem_append_right (by simpa using htail)]
    simp

/-- A copy to the front of a long enough array. -/
theorem copy_front (target source : List α) {count : ℕ} (hsource : count ≤ source.length)
    (htarget : count ≤ target.length) :
    copy target 0 source 0 count = source.take count ++ target.drop count := by
  apply List.ext_getElem
  · rw [copy_length, List.length_append, List.length_take_of_le hsource, List.length_drop]
    omega
  · intro index hcopy _
    have hindex : index < target.length := by rwa [copy_length] at hcopy
    have hlength : (source.take count).length = count := List.length_take_of_le hsource
    by_cases hinside : index < count
    · rw [getElem_copy_inside hcopy ⟨Nat.zero_le _, by omega⟩ (by omega),
        List.getElem_append_left (hlength.symm ▸ hinside), List.getElem_take]
      congr 1
      omega
    · rw [getElem_copy_outside hcopy (by omega) hindex,
        List.getElem_append_right (by omega), List.getElem_drop]
      congr 1
      omega

/-! ## Byte buffers -/

/-- A byte array with its declared length. -/
def Buffer (size : ℕ) := { bytes : List Byte // bytes.length = size }

namespace Buffer

variable {size : ℕ}

def zero (size : ℕ) : Buffer size := ⟨List.replicate size 0, List.length_replicate⟩

/-- Store the first `count` bytes of `source` at the front. Bytes behind the end are dropped. -/
def store (buffer : Buffer size) (source : List Byte) (count : ℕ) : Buffer size :=
  ⟨copy buffer.1 0 source 0 count, (copy_length ..).trans buffer.2⟩

theorem store_take (buffer : Buffer size) (source : List Byte) (count : ℕ) :
    buffer.store (source.take count) count = buffer.store source count :=
  Subtype.ext (copy_take buffer.1 0 source count)

theorem store_eq (buffer : Buffer size) {source : List Byte} {count : ℕ}
    (hsource : count ≤ source.length) (hsize : count ≤ size) :
    (buffer.store source count).1 = source.take count ++ buffer.1.drop count :=
  copy_front buffer.1 source hsource (buffer.2.symm ▸ hsize)

end Buffer

/-! ## Repeated writes to the front -/

/-- The byte at a position of the last of the messages that reaches it. -/
def latest (history : List (List Byte)) (position : ℕ) : Option Byte :=
  history.reverse.findSome? fun message ↦ message[position]?

theorem latest_concat (history : List (List Byte)) (message : List Byte) (position : ℕ) :
    latest (history ++ [message]) position =
      message[position]?.or (latest history position) := by
  rw [latest, List.reverse_concat, List.findSome?_cons]
  cases message[position]? with
  | none => rfl
  | some byte => rfl

namespace Buffer

variable {size : ℕ} {buffer : Buffer size} {history : List (List Byte)}

/-- The contents behind writes of messages to the front of a zeroed buffer. -/
def Shows (buffer : Buffer size) (history : List (List Byte)) : Prop :=
  ∀ position < size, buffer.1[position]? = some ((latest history position).getD 0)

theorem shows_zero (size : ℕ) : (zero size).Shows [] := by
  intro position hposition
  exact List.getElem?_replicate_of_lt hposition

theorem Shows.store (h : buffer.Shows history) (message : List Byte) :
    (buffer.store message message.length).Shows (history ++ [message]) := by
  intro position hposition
  have hold := h position hposition
  have hstored : (buffer.store message message.length).1 =
      copy buffer.1 0 message 0 message.length := rfl
  rw [latest_concat, hstored, copy, List.getElem?_mapIdx, hold]
  by_cases hreached : position < message.length
  · rw [List.getElem?_eq_getElem hreached, Option.map_some, if_pos ⟨Nat.zero_le _, by omega⟩]
    simp only [Nat.zero_add, Nat.sub_zero, List.getD_eq_getElem _ _ hreached, Option.some_or,
      Option.getD_some]
  · rw [List.getElem?_eq_none (not_lt.mp hreached), Option.map_some, if_neg (by omega),
      Option.none_or]

theorem Shows.zero_mem_iff (h : buffer.Shows history) :
    0 ∈ buffer.1 ↔ ∃ position < size, (latest history position).getD 0 = 0 := by
  rw [List.mem_iff_getElem?]
  constructor
  · rintro ⟨position, hposition⟩
    have hlt : position < size := buffer.2 ▸ (List.getElem?_eq_some_iff.mp hposition).1
    exact ⟨position, hlt, Option.some.inj ((h position hlt).symm.trans hposition)⟩
  · rintro ⟨position, hlt, hzero⟩
    exact ⟨position, by rw [h position hlt, hzero]⟩

end Buffer

/-- The bytes in front of the first NUL. -/
def cString (bytes : List Byte) : List Byte := bytes.takeWhile fun byte ↦ byte ≠ 0

/-- A NUL that is already there hides everything behind it. -/
theorem cString_append_of_nul {bytes : List Byte} (h : 0 ∈ bytes) (tail : List Byte) :
    cString (bytes ++ tail) = cString bytes := by
  induction bytes with
  | nil => cases h
  | cons byte bytes ih =>
    simp only [cString, List.cons_append, List.takeWhile_cons]
    by_cases hbyte : byte = 0
    · rw [hbyte]
      rfl
    · have hrest : 0 ∈ bytes := (List.mem_cons.mp h).resolve_left fun heq ↦ hbyte heq.symm
      rw [if_pos (decide_eq_true hbyte), if_pos (decide_eq_true hbyte)]
      exact congrArg _ (ih hrest)

/-- Bytes without a NUL are continued by the text behind them. -/
theorem cString_append_of_no_nul {bytes : List Byte} (h : 0 ∉ bytes) (tail : List Byte) :
    cString (bytes ++ tail) = bytes ++ cString tail := by
  apply List.takeWhile_append_of_pos
  intro byte hbyte
  exact decide_eq_true fun heq ↦ h (heq ▸ hbyte)

end NrfExamples.Memory
