import Mathlib.Algebra.Group.Nat.Even
import Mathlib.Algebra.Order.Ring.Nat
import Mathlib.Data.List.Count
import Mathlib.Data.List.GetD
import Mathlib.Logic.Function.Iterate

/-!
# Cyclic redundancy checks

A word of `w` bits stands for a polynomial over the two-element field, its bit `i` for the
coefficient of degree `i`, and `g` for a generator of degree `w` without its leading term. `mulX`
multiplies by the variable modulo the generator, and `remainder` takes the bits of a message, the
first one sent having the highest degree.

Both are linear, so a pattern of flipped bits goes unnoticed only if its own remainder from zero is
zero. An odd number of flips, two flips closer than the order of the variable, and flips within `w`
consecutive bits all have another remainder.
-/

namespace NrfExamples.Crc

variable {w : ℕ} (g : BitVec w)

/-- Multiply by the variable modulo the generator. -/
def mulX (word : BitVec w) : BitVec w := if word.msb then (word <<< 1) ^^^ g else word <<< 1

/-- The highest coefficient. -/
def top (w : ℕ) : BitVec w := BitVec.twoPow w (w - 1)

def topIf (w : ℕ) (bit : Bool) : BitVec w := if bit then top w else 0#w

/-- The remainder after one more bit. -/
def step (word : BitVec w) (bit : Bool) : BitVec w := mulX g (word ^^^ topIf w bit)

/-- The remainder after a sequence of bits. -/
def remainder (start : BitVec w) (bits : List Bool) : BitVec w := bits.foldl (step g) start

/-- A sequence of at most `w` bits as a word, its first bit on top. -/
def pack (w : ℕ) : List Bool → BitVec w
  | [] => 0#w
  | bit :: bits => (pack w bits >>> 1) ^^^ topIf w bit

/-! ## Multiplication by the variable -/

@[simp]
theorem mulX_zero : mulX g 0#w = 0#w := by
  rw [mulX, BitVec.msb_zero]
  exact BitVec.zero_shiftLeft 1

/-- Multiplication by the variable is linear. -/
theorem mulX_xor (left right : BitVec w) :
    mulX g (left ^^^ right) = mulX g left ^^^ mulX g right := by
  unfold mulX
  rw [BitVec.msb_xor, BitVec.shiftLeft_xor_distrib]
  generalize left <<< 1 = shifted
  generalize right <<< 1 = shifted'
  cases left.msb with
  | false =>
    cases right.msb with
    | false => rfl
    | true => exact BitVec.xor_assoc ..
  | true =>
    cases right.msb with
    | false =>
      calc
        shifted ^^^ shifted' ^^^ g = shifted ^^^ (g ^^^ shifted') := by
          rw [BitVec.xor_assoc, BitVec.xor_comm shifted' g]
        _ = shifted ^^^ g ^^^ shifted' := (BitVec.xor_assoc ..).symm
    | true =>
      calc
        shifted ^^^ shifted' = shifted ^^^ (g ^^^ g ^^^ shifted') := by
          rw [BitVec.xor_self, BitVec.zero_xor]
        _ = shifted ^^^ (g ^^^ (shifted' ^^^ g)) := by
          rw [BitVec.xor_assoc g g, BitVec.xor_comm g shifted']
        _ = shifted ^^^ g ^^^ (shifted' ^^^ g) := (BitVec.xor_assoc ..).symm

@[simp]
theorem iterate_mulX_zero (count : ℕ) : (mulX g)^[count] 0#w = 0#w :=
  Function.iterate_fixed (mulX_zero g) count

/-- The variable is invertible modulo a generator with a constant term. -/
theorem mulX_injective (hg : g.getLsbD 0 = true) : Function.Injective (mulX g) := by
  have hkernel : ∀ word : BitVec w, mulX g word = 0#w → word = 0#w := by
    intro word hzero
    have hwidth : 0 < w := BitVec.lt_of_getLsbD hg
    have hmsb : word.msb = false := by
      by_contra hset
      rw [Bool.not_eq_false] at hset
      have hlow := congrArg (fun value : BitVec w ↦ value.getLsbD 0) hzero
      simp [mulX, hset, hg] at hlow
    rw [mulX, hmsb] at hzero
    apply BitVec.eq_of_getLsbD_eq
    intro index hindex
    obtain hlast | hinner : index = w - 1 ∨ index + 1 < w := by omega
    · rw [hlast, ← BitVec.msb_eq_getLsbD_last, hmsb, BitVec.getLsbD_zero]
    · have hbit := congrArg (fun value : BitVec w ↦ value.getLsbD (index + 1)) hzero
      simpa [hinner, hindex, BitVec.getLsbD_eq_getElem] using hbit
  intro left right heq
  have hdifference : mulX g (left ^^^ right) = 0#w := by
    rw [mulX_xor, heq, BitVec.xor_self]
  exact BitVec.xor_eq_zero_iff.mp (hkernel _ hdifference)

theorem iterate_mulX_eq_zero_iff (hg : g.getLsbD 0 = true) (count : ℕ) (word : BitVec w) :
    (mulX g)^[count] word = 0#w ↔ word = 0#w := by
  conv_lhs => rw [← iterate_mulX_zero g count]
  exact ((mulX_injective g hg).iterate count).eq_iff

/-- Where no bit is lost, multiplication undoes a shift to the right. -/
theorem mulX_ushiftRight {word : BitVec w} (hlow : word.getLsbD 0 = false) :
    mulX g (word >>> 1) = word := by
  have hmsb : (word >>> 1).msb = false := by
    rw [BitVec.msb_ushiftRight]
    rfl
  rw [mulX, hmsb]
  apply BitVec.eq_of_getLsbD_eq
  intro index hindex
  cases index with
  | zero => simp [hlow]
  | succ index => simp [hindex, Nat.add_comm 1 index]

/-! ## Packed bits -/

theorem getMsbD_topIf (bit : Bool) {index : ℕ} (hindex : index < w) :
    (topIf w bit).getMsbD index = (bit && decide (index = 0)) := by
  cases bit with
  | false => simp [topIf]
  | true =>
    simp only [topIf, top, if_true, BitVec.getMsbD_twoPow, Bool.true_and]
    grind

theorem getMsbD_pack (bits : List Bool) {index : ℕ} (hindex : index < w) :
    (pack w bits).getMsbD index = bits.getD index false := by
  induction bits generalizing index with
  | nil => simp [pack]
  | cons bit bits ih =>
    rw [pack, BitVec.getMsbD_xor, BitVec.getMsbD_ushiftRight, getMsbD_topIf bit hindex]
    cases index with
    | zero => simp
    | succ index => simp [hindex, ih (Nat.lt_of_succ_lt hindex)]

/-- A packed sequence with a set bit is not zero. -/
theorem pack_ne_zero {bits : List Bool} (hlength : bits.length ≤ w) (hset : true ∈ bits) :
    pack w bits ≠ 0#w := by
  intro hzero
  obtain ⟨index, hindex, hbit⟩ := List.mem_iff_getElem.mp hset
  have hpacked := getMsbD_pack bits (hindex.trans_le hlength)
  rw [hzero, List.getD_eq_getElem _ _ hindex, hbit] at hpacked
  simp at hpacked

/-- A short sequence can be added at once and then moved through the register. -/
theorem remainder_eq_iterate (start : BitVec w) {bits : List Bool} (hlength : bits.length ≤ w) :
    remainder g start bits = (mulX g)^[bits.length] (start ^^^ pack w bits) := by
  induction bits generalizing start with
  | nil => exact (BitVec.xor_zero).symm
  | cons bit bits ih =>
    have hshort : bits.length < w := hlength
    have hlow : (pack w bits).getLsbD 0 = false := by
      have hlast := getMsbD_pack bits (Nat.sub_one_lt_of_lt hshort)
      rw [List.getD_eq_default _ _ (Nat.le_sub_one_of_lt hshort)] at hlast
      rw [BitVec.getLsbD_eq_getMsbD, Nat.sub_zero, hlast, Bool.and_false]
    calc
      remainder g start (bit :: bits) = remainder g (step g start bit) bits := rfl
      _ = (mulX g)^[bits.length] (mulX g (start ^^^ topIf w bit) ^^^ pack w bits) :=
        ih (step g start bit) hshort.le
      _ = (mulX g)^[bits.length] (mulX g (start ^^^ topIf w bit ^^^ pack w bits >>> 1)) := by
        rw [mulX_xor g (start ^^^ topIf w bit), mulX_ushiftRight g hlow]
      _ = (mulX g)^[(bit :: bits).length] (start ^^^ pack w (bit :: bits)) := by
        rw [pack, BitVec.xor_comm (pack w bits >>> 1), ← BitVec.xor_assoc]
        rfl

/-! ## Linearity -/

@[simp]
theorem remainder_nil (start : BitVec w) : remainder g start [] = start := rfl

@[simp]
theorem remainder_cons (start : BitVec w) (bit : Bool) (bits : List Bool) :
    remainder g start (bit :: bits) = remainder g (step g start bit) bits := rfl

theorem remainder_append (start : BitVec w) (first second : List Bool) :
    remainder g start (first ++ second) = remainder g (remainder g start first) second :=
  List.foldl_append

theorem topIf_xor (w : ℕ) (bit flip : Bool) :
    topIf w (bit ^^ flip) = topIf w bit ^^^ topIf w flip := by
  cases bit with
  | false => simp [topIf]
  | true =>
    cases flip with
    | false => simp [topIf]
    | true => simp [topIf]

theorem xor_xor_xor_comm (a b c d : BitVec w) :
    (a ^^^ b) ^^^ (c ^^^ d) = (a ^^^ c) ^^^ (b ^^^ d) := by
  rw [BitVec.xor_assoc, ← BitVec.xor_assoc b, BitVec.xor_comm b c, BitVec.xor_assoc c,
    ← BitVec.xor_assoc]

/-- Flipping bits of a message adds the remainder of the flips. -/
theorem remainder_zipWith_xor (start change : BitVec w) {bits flips : List Bool}
    (hlength : bits.length = flips.length) :
    remainder g (start ^^^ change) (List.zipWith Bool.xor bits flips) =
      remainder g start bits ^^^ remainder g change flips := by
  induction bits generalizing start change flips with
  | nil =>
    rw [List.length_eq_zero_iff.mp hlength.symm]
    rfl
  | cons bit bits ih =>
    obtain ⟨flip, flips, rfl⟩ := List.exists_cons_of_length_eq_add_one hlength.symm
    have hstep : step g (start ^^^ change) (bit ^^ flip) =
        step g start bit ^^^ step g change flip := by
      rw [step, topIf_xor, xor_xor_xor_comm, mulX_xor]
      rfl
    rw [List.zipWith_cons_cons, remainder_cons, hstep, remainder_cons, remainder_cons]
    exact ih _ _ (Nat.succ.inj hlength)

/-- Unset bits only move the register. -/
theorem remainder_replicate_false (start : BitVec w) (count : ℕ) :
    remainder g start (List.replicate count false) = (mulX g)^[count] start := by
  induction count generalizing start with
  | zero => rfl
  | succ count ih =>
    have hstep : step g start false = mulX g start := by
      rw [step]
      exact congrArg (mulX g) BitVec.xor_zero
    rw [List.replicate_succ, remainder_cons, hstep, ih]
    rfl

/-! ## Patterns of flips -/

/-- The flips in front of the first set one. -/
theorem exists_first_flip {flips : List Bool} {count : ℕ} (h : flips.count true = count + 1) :
    ∃ unset rest, flips = List.replicate unset false ++ true :: rest ∧ rest.count true = count := by
  induction flips with
  | nil => simp at h
  | cons flip flips ih =>
    cases flip with
    | true => exact ⟨0, flips, rfl, by simpa using h⟩
    | false =>
      obtain ⟨unset, rest, hflips, hcount⟩ := ih (by simpa using h)
      exact ⟨unset + 1, rest, by rw [hflips, List.replicate_succ, List.cons_append], hcount⟩

theorem eq_replicate_of_no_flip {flips : List Bool} (h : ∀ flip ∈ flips, flip = false) :
    flips = List.replicate flips.length false :=
  List.eq_replicate_of_mem h

/-! ### Odd patterns -/

/-- Whether an odd number of the lowest bits is set. -/
def parityBelow (word : BitVec w) : ℕ → Bool
  | 0 => false
  | count + 1 => parityBelow word count ^^ word.getLsbD count

def parity (word : BitVec w) : Bool := parityBelow word w

theorem parityBelow_xor (left right : BitVec w) (count : ℕ) :
    parityBelow (left ^^^ right) count = (parityBelow left count ^^ parityBelow right count) := by
  induction count with
  | zero => rfl
  | succ count ih =>
    simp only [parityBelow, ih, BitVec.getLsbD_xor, Bool.xor_assoc, Bool.xor_left_comm]

theorem parityBelow_shiftLeft (word : BitVec w) {count : ℕ} (hcount : count < w) :
    parityBelow (word <<< 1) (count + 1) = parityBelow word count := by
  induction count with
  | zero => simp [parityBelow]
  | succ count ih =>
    rw [parityBelow, ih (Nat.lt_of_succ_lt hcount), parityBelow]
    simp [hcount, BitVec.getLsbD_eq_getElem (Nat.lt_of_succ_lt hcount)]

theorem parityBelow_zero (count : ℕ) : parityBelow (0#w) count = false := by
  induction count with
  | zero => rfl
  | succ count ih => simp [parityBelow, ih]

section Odd

variable {g} (hg : g.getLsbD 0 = true) (hparity : parity g = true)

include hg hparity

/-- A generator that is divisible by the variable plus one keeps the parity. -/
theorem parity_mulX (word : BitVec w) : parity (mulX g word) = parity word := by
  have hwidth : 0 < w := BitVec.lt_of_getLsbD hg
  obtain ⟨count, rfl⟩ := Nat.exists_eq_succ_of_ne_zero hwidth.ne'
  have hword : parity word = (parityBelow word count ^^ word.msb) := by
    rw [BitVec.msb_eq_getLsbD_last]
    rfl
  have hshift : parity (word <<< 1) = parityBelow word count :=
    parityBelow_shiftLeft word (Nat.lt_succ_self count)
  rw [hword, mulX]
  cases word.msb with
  | false => rw [if_neg Bool.false_ne_true, hshift, Bool.xor_false]
  | true =>
    rw [if_pos rfl, ← hshift, ← hparity]
    exact parityBelow_xor ..

theorem parity_topIf (bit : Bool) : parity (topIf w bit) = bit := by
  have hwidth : 0 < w := BitVec.lt_of_getLsbD hg
  obtain ⟨count, rfl⟩ := Nat.exists_eq_succ_of_ne_zero hwidth.ne'
  cases bit with
  | false => exact parityBelow_zero (count + 1)
  | true =>
    have hbelow : ∀ index ≤ count, parityBelow (top (count + 1)) index = false := by
      intro index hindex
      induction index with
      | zero => rfl
      | succ index ih =>
        rw [parityBelow, ih (Nat.le_of_succ_le hindex), top, BitVec.getLsbD_twoPow]
        simp
        omega
    have hlast : (top (count + 1)).getLsbD count = true := by simp [top]
    calc
      parity (topIf (count + 1) true) =
          (parityBelow (top (count + 1)) count ^^ (top (count + 1)).getLsbD count) := rfl
      _ = true := by rw [hbelow count le_rfl, hlast, Bool.false_xor]

theorem parity_remainder (start : BitVec w) (flips : List Bool) :
    parity (remainder g start flips) = (parity start ^^ decide (Odd (flips.count true))) := by
  induction flips generalizing start with
  | nil => simp
  | cons flip flips ih =>
    have hstep : parity (step g start flip) = (parity start ^^ flip) := by
      calc
        parity (step g start flip) = parity (start ^^^ topIf w flip) := parity_mulX hg hparity _
        _ = (parity start ^^ parity (topIf w flip)) := parityBelow_xor ..
        _ = (parity start ^^ flip) := by rw [parity_topIf hg hparity]
    rw [remainder_cons, ih, hstep]
    cases flip with
    | false => simp
    | true =>
      rw [List.count_cons_self, decide_eq_decide.mpr Nat.odd_add_one, decide_not]
      simp

theorem remainder_ne_zero_of_odd {flips : List Bool} (hodd : Odd (flips.count true)) :
    remainder g 0#w flips ≠ 0#w := by
  intro hzero
  have hremainder := parity_remainder hg hparity 0#w flips
  have hnone : parity (0#w) = false := parityBelow_zero w
  rw [hzero, hnone, decide_eq_true hodd] at hremainder
  exact Bool.false_ne_true hremainder

end Odd

/-! ### Double flips and bursts -/

/-- None of the next powers of the variable takes a word to the target. -/
def avoids (target : BitVec w) : ℕ → BitVec w → Bool
  | 0, _ => true
  | count + 1, word => mulX g word != target && avoids target count (mulX g word)

theorem iterate_ne_of_avoids {target word : BitVec w} {count : ℕ}
    (h : avoids g target count word = true) {distance : ℕ} (hpos : 0 < distance)
    (hle : distance ≤ count) : (mulX g)^[distance] word ≠ target := by
  induction count generalizing word distance with
  | zero => omega
  | succ count ih =>
    obtain ⟨hnext, hrest⟩ := Bool.and_eq_true_iff.mp h
    obtain ⟨distance, rfl⟩ := Nat.exists_eq_succ_of_ne_zero hpos.ne'
    rw [Function.iterate_succ_apply]
    cases distance with
    | zero => exact bne_iff_ne.mp hnext
    | succ distance => exact ih hrest (Nat.succ_pos distance) (Nat.le_of_succ_le_succ hle)

section Injective

variable {g} (hg : g.getLsbD 0 = true)

include hg

/-- Two flips closer than the order of the variable. -/
theorem remainder_ne_zero_of_two {flips : List Bool} (htwo : flips.count true = 2)
    (horder : ∀ distance, 0 < distance → distance < flips.length →
      (mulX g)^[distance] (top w) ≠ top w) : remainder g 0#w flips ≠ 0#w := by
  obtain ⟨unset, rest, hflips, hrest⟩ := exists_first_flip htwo
  obtain ⟨between, behind, rfl, hbehind⟩ := exists_first_flip hrest
  have hlast : behind = List.replicate behind.length false := by
    apply eq_replicate_of_no_flip
    intro flip hflip
    rw [List.count_eq_zero] at hbehind
    rw [← Bool.not_eq_true]
    rintro rfl
    exact hbehind hflip
  have hfirst : step g 0#w true = mulX g (top w) := by
    rw [step, BitVec.zero_xor]
    rfl
  have hsecond : ∀ word, step g word true = mulX g (word ^^^ top w) := fun _ ↦ rfl
  have hvalue : remainder g 0#w flips = (mulX g)^[behind.length]
      (mulX g ((mulX g)^[between + 1] (top w) ^^^ top w)) := by
    rw [hflips, remainder_append, remainder_replicate_false, iterate_mulX_zero, remainder_cons,
      remainder_append, remainder_replicate_false, remainder_cons, hlast,
      remainder_replicate_false, hfirst, hsecond, List.length_replicate]
    rfl
  have hdistance : between + 1 < flips.length := by
    rw [hflips]
    simp
    omega
  rw [hvalue, ne_eq, ← Function.iterate_succ_apply, iterate_mulX_eq_zero_iff g hg,
    BitVec.xor_eq_zero_iff]
  exact horder (between + 1) (Nat.succ_pos between) hdistance

/-- Flips within `w` consecutive bits. -/
theorem remainder_ne_zero_of_burst {flips : List Bool} (hset : true ∈ flips) {start : ℕ}
    (hburst : ∀ index, flips.getD index false = true → start ≤ index ∧ index < start + w) :
    remainder g 0#w flips ≠ 0#w := by
  have hsplit : flips = flips.take start ++
      ((flips.drop start).take w ++ flips.drop (start + w)) := by
    rw [← List.drop_drop, List.take_append_drop, List.take_append_drop]
  have hunset : ∀ index, ¬ (start ≤ index ∧ index < start + w) →
      ∀ h : index < flips.length, flips[index] = false := by
    intro index houtside h
    rw [← Bool.not_eq_true]
    intro hflip
    exact houtside (hburst index (by rwa [List.getD_eq_getElem _ _ h]))
  have hbefore : flips.take start = List.replicate (flips.take start).length false := by
    apply eq_replicate_of_no_flip
    intro flip hflip
    obtain ⟨index, hindex, rfl⟩ := List.mem_iff_getElem.mp hflip
    rw [List.length_take] at hindex
    rw [List.getElem_take]
    exact hunset index (by omega) (by omega)
  have hbehind : flips.drop (start + w) =
      List.replicate (flips.drop (start + w)).length false := by
    apply eq_replicate_of_no_flip
    intro flip hflip
    obtain ⟨index, hindex, rfl⟩ := List.mem_iff_getElem.mp hflip
    rw [List.length_drop] at hindex
    rw [List.getElem_drop]
    exact hunset (start + w + index) (by omega) (by omega)
  have hmem : true ∈ (flips.drop start).take w := by
    rw [hsplit, hbefore, hbehind] at hset
    simpa using hset
  have hlength : ((flips.drop start).take w).length ≤ w := by
    rw [List.length_take]
    exact min_le_left ..
  rw [hsplit, hbefore, hbehind, remainder_append, remainder_append, remainder_replicate_false,
    remainder_replicate_false, iterate_mulX_zero, remainder_eq_iterate g _ hlength, ne_eq,
    iterate_mulX_eq_zero_iff g hg, iterate_mulX_eq_zero_iff g hg, BitVec.zero_xor]
  exact pack_ne_zero hlength hmem

end Injective

end NrfExamples.Crc
