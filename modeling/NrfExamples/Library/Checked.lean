import Mathlib.Algebra.BigOperators.Group.List.Basic
import Mathlib.Algebra.Order.BigOperators.Group.List
import Mathlib.Algebra.Order.Ring.Abs
import Mathlib.Algebra.Order.Ring.Int
import Mathlib.Data.Fintype.Basic
import Mathlib.Tactic.Linarith
import Mathlib.Tactic.Ring

/-!
# Checked machine arithmetic

The operations of a signed type of `width` bits, which refuse a result that the type cannot hold.
A computation made of them that succeeds with the result of exact arithmetic has no overflow, and
none of its narrowings changes a value. `foldlM_eq_some` carries this over a run of any length.
Where a checked operation succeeds, the operation on machine words that wrap around has its result.
-/

namespace NrfExamples.Checked

/-! ## Operations -/

/-- The values of a signed type of `width` bits. -/
def Fits (width : ℕ) (value : ℤ) : Prop := -2 ^ (width - 1) ≤ value ∧ value < 2 ^ (width - 1)

instance (width : ℕ) (value : ℤ) : Decidable (Fits width value) :=
  inferInstanceAs (Decidable (_ ∧ _))

/-- Conversion to the type, where it keeps the value. -/
def narrow (width : ℕ) (value : ℤ) : Option ℤ := if Fits width value then some value else none

def add (width : ℕ) (left right : ℤ) : Option ℤ := narrow width (left + right)

def sub (width : ℕ) (left right : ℤ) : Option ℤ := narrow width (left - right)

def mul (width : ℕ) (left right : ℤ) : Option ℤ := narrow width (left * right)

/-- Division with the truncation of C. -/
def div (width : ℕ) (left right : ℤ) : Option ℤ := narrow width (left.tdiv right)

/-- A sum accumulated from the left. -/
def sum (width : ℕ) (values : List ℤ) : Option ℤ := values.foldlM (add width) 0

theorem narrow_eq_some {width : ℕ} {value : ℤ} (h : Fits width value) :
    narrow width value = some value := if_pos h

theorem fits_of_abs_le {width : ℕ} {value bound : ℤ} (h : |value| ≤ bound)
    (hbound : bound < 2 ^ (width - 1)) : Fits width value := by
  obtain ⟨hlower, hupper⟩ := abs_le.mp h
  constructor
  · linarith
  · linarith

/-- Every partial sum of small values fits. -/
theorem sum_eq_some {width : ℕ} {values : List ℤ} {bound : ℤ}
    (hvalues : ∀ value ∈ values, |value| ≤ bound)
    (hbound : values.length * bound < 2 ^ (width - 1)) : sum width values = some values.sum := by
  suffices hfrom : ∀ start : ℤ, |start| + values.length * bound < 2 ^ (width - 1) →
      values.foldlM (add width) start = some (start + values.sum) by
    have hzero := hfrom 0 (by rwa [abs_zero, zero_add])
    rwa [zero_add] at hzero
  clear hbound
  induction values with
  | nil =>
    intro start _
    simp
  | cons value values ih =>
    intro start hstart
    have hvalue : |value| ≤ bound := hvalues value List.mem_cons_self
    have hrest : ∀ value ∈ values, |value| ≤ bound := fun other hother ↦
      hvalues other (List.mem_cons_of_mem value hother)
    have hpartial : |start + value| ≤ |start| + bound := by
      linarith [abs_add_le start value]
    have hnonneg : (0 : ℤ) ≤ values.length * bound :=
      mul_nonneg (Int.natCast_nonneg _) ((abs_nonneg value).trans hvalue)
    have hlength : (((value :: values).length : ℕ) : ℤ) * bound =
        values.length * bound + bound := by
      rw [List.length_cons]
      push_cast
      ring
    rw [hlength] at hstart
    have hfits : Fits width (start + value) := fits_of_abs_le hpartial (by linarith)
    calc
      (value :: values).foldlM (add width) start =
          (add width start value).bind (values.foldlM (add width)) := List.foldlM_cons
      _ = values.foldlM (add width) (start + value) := by
        rw [add, narrow_eq_some hfits, Option.bind_some]
      _ = some (start + value + values.sum) := ih hrest (start + value) (by linarith)
      _ = some (start + (value :: values).sum) := by rw [List.sum_cons, add_assoc]

/-- A truncating quotient stays between bounds that the dividend keeps as multiples. -/
theorem tdiv_range {dividend divisor lower upper : ℤ} (hdivisor : 0 < divisor)
    (hlower : lower * divisor ≤ dividend) (hupper : dividend ≤ upper * divisor) :
    lower ≤ dividend.tdiv divisor ∧ dividend.tdiv divisor ≤ upper := by
  have hscaled (bound : ℤ) : (bound * divisor).tdiv divisor = bound :=
    Int.mul_tdiv_cancel bound hdivisor.ne'
  constructor
  · calc
      lower = (lower * divisor).tdiv divisor := (hscaled lower).symm
      _ ≤ dividend.tdiv divisor := Int.tdiv_le_tdiv hdivisor hlower
  · calc
      dividend.tdiv divisor ≤ (upper * divisor).tdiv divisor := Int.tdiv_le_tdiv hdivisor hupper
      _ = upper := hscaled upper

/-- The truncated mean of values between bounds stays between them. -/
theorem mean_range {values : List ℤ} {count : ℕ} {lower upper : ℤ} (hpos : 0 < count)
    (hlength : values.length = count)
    (hvalues : ∀ value ∈ values, lower ≤ value ∧ value ≤ upper) :
    lower ≤ values.sum.tdiv count ∧ values.sum.tdiv count ≤ upper := by
  have hlower := List.card_nsmul_le_sum values lower fun value hvalue ↦ (hvalues value hvalue).1
  have hupper := List.sum_le_card_nsmul values upper fun value hvalue ↦ (hvalues value hvalue).2
  rw [hlength, nsmul_eq_mul, mul_comm] at hlower hupper
  exact tdiv_range (Int.natCast_pos.mpr hpos) hlower hupper

/-! ## Machine words -/

theorem narrow_eq_some_iff {width : ℕ} {value result : ℤ} :
    narrow width value = some result ↔ Fits width value ∧ value = result := by
  rw [narrow, Option.ite_none_right_eq_some, Option.some_inj]

/-- The wrap-around keeps a value that fits. -/
theorem Fits.bmod_eq {width : ℕ} {value : ℤ} (h : Fits (width + 1) value) :
    value.bmod (2 ^ (width + 1)) = value := by
  obtain ⟨hlower, hupper⟩ := h
  rw [Nat.add_sub_cancel] at hlower hupper
  apply Int.bmod_eq_of_le
  · push_cast
    omega
  · push_cast
    omega

theorem toInt_add {x y : Int32} {total : ℤ} (h : add 32 x.toInt y.toInt = some total) :
    (x + y).toInt = total := by
  obtain ⟨hfits, rfl⟩ := narrow_eq_some_iff.mp h
  rw [Int32.toInt_add]
  exact hfits.bmod_eq

theorem toInt_div {x y : Int32} {quotient : ℤ} (h : div 32 x.toInt y.toInt = some quotient) :
    (x / y).toInt = quotient := by
  obtain ⟨hfits, rfl⟩ := narrow_eq_some_iff.mp h
  rw [Int32.toInt_div]
  exact hfits.bmod_eq

theorem toInt_toInt16 {x : Int32} {value : ℤ} (h : narrow 16 x.toInt = some value) :
    x.toInt16.toInt = value := by
  obtain ⟨hfits, rfl⟩ := narrow_eq_some_iff.mp h
  rw [Int32.toInt_toInt16]
  exact hfits.bmod_eq

/-- An accumulator that wraps around ends with the checked sum. -/
theorem toInt_foldl_add {values : List Int32} {total : ℤ}
    (h : sum 32 (values.map Int32.toInt) = some total) :
    (values.foldl (fun totalSum value ↦ totalSum + value) 0).toInt = total := by
  suffices hfrom : ∀ start : Int32, (values.map Int32.toInt).foldlM (add 32) start.toInt =
      some total → (values.foldl (fun totalSum value ↦ totalSum + value) start).toInt = total from
    hfrom 0 h
  clear h
  induction values with
  | nil =>
    intro start h
    exact Option.some_inj.mp h
  | cons value values ih =>
    intro start h
    rw [List.map_cons, List.foldlM_cons] at h
    obtain ⟨first, hfirst, hrest⟩ := Option.bind_eq_some_iff.mp h
    rw [← toInt_add hfirst] at hrest
    exact ih (start + value) hrest

/-! ## Families and runs -/

/-- All results of a family, or `none` where one is missing. -/
def collect {ι α : Type} [Fintype ι] (values : ι → Option α) : Option (ι → α) :=
  if h : ∀ index, (values index).isSome then some fun index ↦ (values index).get (h index)
  else none

theorem collect_eq_some {ι α : Type} [Fintype ι] {values : ι → Option α} {results : ι → α}
    (h : ∀ index, values index = some (results index)) : collect values = some results := by
  have hsome : ∀ index, (values index).isSome := by
    intro index
    rw [h index]
    rfl
  rw [collect, dif_pos hsome]
  congr 1
  funext index
  exact Option.get_of_eq_some (hsome index) (h index)

/-- Checked steps that agree with exact ones under an invariant agree along a run. -/
theorem foldlM_eq_some {State Input : Type} {invariant : State → Prop} {allowed : Input → Prop}
    {exact : State → Input → State} {checked : State → Input → Option State}
    (hstep : ∀ state input, invariant state → allowed input →
      checked state input = some (exact state input) ∧ invariant (exact state input))
    {state : State} (hinit : invariant state) {inputs : List Input}
    (hinputs : ∀ input ∈ inputs, allowed input) :
    inputs.foldlM checked state = some (inputs.foldl exact state) := by
  induction inputs generalizing state with
  | nil => rfl
  | cons input inputs ih =>
    have hfirst := hstep state input hinit (hinputs input List.mem_cons_self)
    have hrest : ∀ input ∈ inputs, allowed input := fun other hother ↦
      hinputs other (List.mem_cons_of_mem input hother)
    calc
      (input :: inputs).foldlM checked state =
          (checked state input).bind (inputs.foldlM checked) := List.foldlM_cons
      _ = inputs.foldlM checked (exact state input) := by rw [hfirst.1, Option.bind_some]
      _ = some (inputs.foldl exact (exact state input)) := ih hfirst.2 hrest

end NrfExamples.Checked
