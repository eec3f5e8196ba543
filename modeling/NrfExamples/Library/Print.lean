import NrfExamples.Library.Scanf
import Mathlib.Data.List.TakeWhile

/-!
# Printing what a format scans

The text that a scan with the same format reads back. Numbers are printed without leading zeros. A
directive reads its own text exactly if it would not read on into what follows: a number must not
be followed by a digit, white space not by white space.
-/

namespace NrfExamples.Scanf

open Memory

/-! ## Numbers -/

def digit (value : ℕ) : Byte := BitVec.ofNat 8 (0x30 + value)

def decimalText (value : ℕ) : List Byte :=
  if value < 10 then [digit value] else decimalText (value / 10) ++ [digit (value % 10)]
termination_by value

theorem toNat_digit {value : ℕ} (h : value < 10) : (digit value).toNat = 0x30 + value := by
  rw [digit, BitVec.toNat_ofNat]
  omega

theorem isDigit_digit {value : ℕ} (h : value < 10) : isDigit (digit value) = true := by
  have hvalue := toNat_digit h
  simp only [isDigit, Bool.and_eq_true, decide_eq_true_eq, BitVec.le_def, hvalue]
  constructor
  · exact Nat.le_add_right _ _
  · exact Nat.add_le_add_left (Nat.le_of_lt_succ h) 0x30

theorem decimal_concat (digits : List Byte) (last : Byte) :
    decimal (digits ++ [last]) = 10 * decimal digits + (last.toNat - 0x30) :=
  List.foldl_concat ..

/-- The digits of a number have its value. -/
theorem decimal_decimalText (value : ℕ) : decimal (decimalText value) = value := by
  induction value using decimalText.induct with
  | case1 value hlt =>
    rw [decimalText, if_pos hlt]
    calc
      decimal [digit value] = 10 * 0 + ((digit value).toNat - 0x30) := rfl
      _ = value := by
        rw [toNat_digit hlt]
        omega
  | case2 value hle ih =>
    rw [decimalText, if_neg hle, decimal_concat, ih, toNat_digit (Nat.mod_lt _ (by decide))]
    omega

theorem isDigit_of_mem_decimalText (value : ℕ) :
    ∀ byte ∈ decimalText value, isDigit byte = true := by
  induction value using decimalText.induct with
  | case1 value hlt =>
    rw [decimalText, if_pos hlt, List.forall_mem_singleton]
    exact isDigit_digit hlt
  | case2 value hle ih =>
    rw [decimalText, if_neg hle, List.forall_mem_append, List.forall_mem_singleton]
    exact ⟨ih, isDigit_digit (Nat.mod_lt _ (by decide))⟩

theorem decimalText_ne_nil (value : ℕ) : decimalText value ≠ [] := by
  rw [decimalText]
  split
  · exact List.cons_ne_nil _ _
  · exact List.append_ne_nil_of_right_ne_nil _ (List.cons_ne_nil _ _)

/-- A number below a power of ten has at most as many digits. -/
theorem length_decimalText_le {count value : ℕ} (h : value < 10 ^ (count + 1)) :
    (decimalText value).length ≤ count + 1 := by
  induction count generalizing value with
  | zero =>
    rw [decimalText, if_pos (by omega)]
    exact le_rfl
  | succ count ih =>
    rw [decimalText]
    split
    · exact Nat.le_add_left 1 _
    · have hrest : value / 10 < 10 ^ (count + 1) := by
        rw [Nat.div_lt_iff_lt_mul (by decide)]
        exact h
      rw [List.length_append, List.length_singleton]
      exact Nat.add_le_add_right (ih hrest) 1

/-- A digit is neither white space nor a sign. -/
theorem not_of_isDigit {byte : Byte} (h : isDigit byte = true) :
    isSpace byte = false ∧ byte ≠ 0x2D ∧ byte ≠ 0x2B := by
  simp only [isDigit, Bool.and_eq_true, decide_eq_true_eq, BitVec.le_def] at h
  refine ⟨?_, ?_, ?_⟩
  · simp only [isSpace, Bool.or_eq_false_iff, Bool.and_eq_false_iff, beq_eq_false_iff_ne,
      decide_eq_false_iff_not, BitVec.le_def]
    constructor
    · rintro rfl
      exact absurd h (by decide)
    · exact Or.inr fun hle ↦ absurd (h.1.trans hle) (by decide)
  · rintro rfl
    exact absurd h (by decide)
  · rintro rfl
    exact absurd h (by decide)

/-- A number is read back up to the first byte that is no digit. -/
theorem read_hu_decimalText {value : ℕ} (hvalue : value < 2 ^ 32) {tail : List Byte}
    (hstop : Directive.hu.EndsBefore tail) :
    Directive.hu.read (decimalText value ++ tail) = .ok ([UInt16.ofNat value], tail) := by
  have hdigits := isDigit_of_mem_decimalText value
  have hdecimal := decimal_decimalText value
  cases htext : decimalText value with
  | nil => exact absurd htext (decimalText_ne_nil value)
  | cons first rest =>
    rw [htext] at hdigits hdecimal
    obtain ⟨hspace, hminus, hplus⟩ := not_of_isDigit (hdigits first List.mem_cons_self)
    have hnospace : ((first :: rest) ++ tail).dropWhile isSpace = (first :: rest) ++ tail := by
      rw [List.cons_append, List.dropWhile_cons_of_neg (Bool.eq_false_iff.mp hspace)]
    have hnosign : takeSign ((first :: rest) ++ tail) = (false, (first :: rest) ++ tail) := by
      rw [List.cons_append, takeSign, if_neg hminus, if_neg hplus]
    have hall : (first :: rest).takeWhile isDigit = first :: rest :=
      List.takeWhile_eq_self_iff.mpr hdigits
    have hnone : (first :: rest).dropWhile isDigit = [] :=
      List.dropWhile_eq_nil_iff.mpr hdigits
    have happend : ((first :: rest) ++ tail).dropWhile isDigit =
          (first :: rest).dropWhile isDigit ++ tail ∧
        ((first :: rest) ++ tail).takeWhile isDigit = (first :: rest).takeWhile isDigit :=
      dropWhile_append_of_stops (Or.inr hstop)
    have hstrtoul : strtoul false (first :: rest) = value := by
      rw [strtoul, hdecimal, if_neg (Nat.not_le.mpr hvalue), if_neg Bool.false_ne_true]
    calc
      Directive.hu.read ((first :: rest) ++ tail) = readDigits false ((first :: rest) ++ tail) := by
        rw [Directive.read, hnospace, hnosign]
      _ = .ok ([UInt16.ofNat value], tail) := by
        rw [readDigits, happend.2, hall, happend.1, hnone, ← hstrtoul]
        rfl

/-- White space is read up to the first other byte. -/
theorem read_space_text {tail : List Byte} (hstop : Directive.space.EndsBefore tail) :
    Directive.space.read (0x20 :: tail) = .ok ([], tail) := by
  cases tail with
  | nil => rfl
  | cons first rest =>
    have hfirst : ¬ isSpace first = true := Bool.eq_false_iff.mp (hstop first rfl)
    rw [Directive.read, List.dropWhile_cons_of_pos (by decide), List.dropWhile_cons_of_neg hfirst]

/-! ## Texts -/

/-- The text that a format prints for its numbers. -/
def print : List Directive → List UInt16 → List Byte
  | .literal byte :: format, values => byte :: print format values
  | .space :: format, values => 0x20 :: print format values
  | .hu :: format, value :: values => decimalText value.toNat ++ print format values
  | .hu :: _, [] => []
  | [], _ => []

/-- Every directive has its number and would not read on into what follows. -/
def Legible : List Directive → List UInt16 → List Byte → Prop
  | .literal _ :: format, values, tail => Legible format values tail
  | .space :: format, values, tail =>
      Directive.space.EndsBefore (print format values ++ tail) ∧ Legible format values tail
  | .hu :: format, _ :: values, tail =>
      Directive.hu.EndsBefore (print format values ++ tail) ∧ Legible format values tail
  | .hu :: _, [], _ => False
  | [], values, _ => values = []

/-- A format scans back the numbers that it prints, and leaves what follows. -/
theorem scan_print {format : List Directive} {values : List UInt16} {tail : List Byte}
    (h : Legible format values tail) :
    scan format (print format values ++ tail) = (values, .ok tail) := by
  induction format generalizing values with
  | nil =>
    rw [show values = [] from h]
    rfl
  | cons directive format ih =>
    cases directive with
    | literal byte =>
      have hread : (Directive.literal byte).read (byte :: (print format values ++ tail)) =
          .ok ([], print format values ++ tail) := if_pos rfl
      rw [print, List.cons_append, scan_cons_ok hread, ih h]
      rfl
    | space =>
      obtain ⟨hstop, hrest⟩ := h
      have hread : Directive.space.read (0x20 :: (print format values ++ tail)) =
          .ok ([], print format values ++ tail) :=
        read_space_text hstop
      rw [print, List.cons_append, scan_cons_ok hread, ih hrest]
      rfl
    | hu =>
      cases values with
      | nil => exact absurd h id
      | cons value values =>
        obtain ⟨hstop, hrest⟩ := h
        have hvalue : value.toNat < 2 ^ 32 := value.toNat_lt.trans (by decide)
        rw [print, List.append_assoc, scan_cons_ok (read_hu_decimalText hvalue hstop), ih hrest,
          UInt16.ofNat_toNat]
        rfl

/-- A printed text has no NUL but those of the format. -/
theorem zero_not_mem_print {format : List Directive} (h : .literal 0 ∉ format)
    (values : List UInt16) : 0 ∉ print format values := by
  induction format generalizing values with
  | nil => exact List.not_mem_nil
  | cons directive format ih =>
    have hrest : .literal 0 ∉ format := fun hmem ↦ h (List.mem_cons_of_mem _ hmem)
    cases directive with
    | literal byte =>
      intro hmem
      rcases List.mem_cons.mp hmem with hzero | hlater
      · exact h (hzero ▸ List.mem_cons_self)
      · exact ih hrest values hlater
    | space =>
      intro hmem
      rcases List.mem_cons.mp hmem with hzero | hlater
      · exact absurd hzero (by decide)
      · exact ih hrest values hlater
    | hu =>
      cases values with
      | nil => exact List.not_mem_nil
      | cons value values =>
        intro hmem
        rcases List.mem_append.mp hmem with hdigit | hlater
        · exact absurd (isDigit_of_mem_decimalText value.toNat 0 hdigit) (by decide)
        · exact ih hrest values hlater

/-- `sscanf` reads back what is printed, whatever bytes follow that do not continue it. -/
theorem sscanf_print {format : List Directive} (hnul : .literal 0 ∉ format)
    {values : List UInt16} {tail : List Byte} (h : Legible format values (cString tail)) :
    sscanf (print format values ++ tail) format = values := by
  rw [sscanf, cString_append_of_no_nul (zero_not_mem_print hnul values), scan_print h]

end NrfExamples.Scanf
