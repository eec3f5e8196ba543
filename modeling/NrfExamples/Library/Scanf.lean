import NrfExamples.Library.Memory
import Mathlib.Algebra.Order.Ring.Nat

/-!
# Scanning with a format

The part of the C `sscanf` that literal characters, white space and `%hu` need. A directive reads
from the front of the input; it fails at a character that does not match, or because the input
ended. Only the second failure can turn into a success when the input is continued. A directive
that succeeds keeps its result under any continuation that it would not have read itself.
-/

namespace NrfExamples.Scanf

open Memory

def isSpace (byte : Byte) : Bool := byte == 0x20 || (0x09 ≤ byte && byte ≤ 0x0D)

def isDigit (byte : Byte) : Bool := 0x30 ≤ byte && byte ≤ 0x39

inductive Directive where
  | literal (byte : Byte)
  | space
  | hu

/-- Why a directive fails. -/
inductive Failure where
  | mismatch
  | ended

/-- The values a directive assigned and the rest of the input. -/
abbrev Reading := Except Failure (List UInt16 × List Byte)

/-! ## Numbers -/

/-- The decimal value of a string of digits. -/
def decimal (digits : List Byte) : ℕ :=
  digits.foldl (fun value digit ↦ 10 * value + (digit.toNat - 0x30)) 0

/-- `strtoul` with base ten over a 32-bit `unsigned long`. -/
def strtoul (negative : Bool) (digits : List Byte) : ℕ :=
  let value := decimal digits
  if value ≥ 2 ^ 32 then 2 ^ 32 - 1
  else if negative then (2 ^ 32 - value) % 2 ^ 32
  else value

/-- An optional sign, and whether it is a minus. -/
def takeSign : List Byte → Bool × List Byte
  | [] => (false, [])
  | byte :: input =>
      if byte = 0x2D then (true, input)
      else if byte = 0x2B then (false, input)
      else (false, byte :: input)

/-- The digits behind an optional sign. -/
def readDigits (negative : Bool) (input : List Byte) : Reading :=
  match input.takeWhile isDigit with
  | [] => .error (if input = [] then .ended else .mismatch)
  | digit :: digits =>
      .ok ([UInt16.ofNat (strtoul negative (digit :: digits))], input.dropWhile isDigit)

/-! ## Directives -/

def Directive.read : Directive → List Byte → Reading
  | .literal _, [] => .error .ended
  | .literal byte, head :: input => if head = byte then .ok ([], input) else .error .mismatch
  | .space, input => .ok ([], input.dropWhile isSpace)
  | .hu, input =>
      let signed := takeSign (input.dropWhile isSpace)
      readDigits signed.1 signed.2

/-- The values assigned up to the first failure, and the rest of the input where none occurs. -/
def scan : List Directive → List Byte → List UInt16 × Except Failure (List Byte)
  | [], input => ([], .ok input)
  | directive :: format, input =>
      match directive.read input with
      | .ok (values, rest) => (values ++ (scan format rest).1, (scan format rest).2)
      | .error failure => ([], .error failure)

theorem scan_cons_ok {directive : Directive} {input rest : List Byte} {values : List UInt16}
    (h : directive.read input = .ok (values, rest)) (format : List Directive) :
    scan (directive :: format) input = (values ++ (scan format rest).1, (scan format rest).2) := by
  simp only [scan, h]

theorem scan_cons_error {directive : Directive} {input : List Byte} {failure : Failure}
    (h : directive.read input = .error failure) (format : List Directive) :
    scan (directive :: format) input = ([], .error failure) := by
  simp only [scan, h]

/-- The values that `sscanf` assigns; their number is its result, where a value was assigned. -/
def sscanf (buffer : List Byte) (format : List Directive) : List UInt16 :=
  (scan format (cString buffer)).1

/-- The directive reads nothing of a continuation behind the point where it stopped. -/
def Directive.EndsBefore (tail : List Byte) : Directive → Prop
  | .literal _ => True
  | .space => ∀ byte ∈ tail.head?, isSpace byte = false
  | .hu => ∀ byte ∈ tail.head?, isDigit byte = false

/-! ## Continuing the input -/

/-- A run that stops in front of a continuation, or before its own end, ignores the continuation. -/
theorem dropWhile_append_of_stops {p : Byte → Bool} {input tail : List Byte}
    (h : input.dropWhile p ≠ [] ∨ ∀ byte ∈ tail.head?, p byte = false) :
    (input ++ tail).dropWhile p = input.dropWhile p ++ tail ∧
      (input ++ tail).takeWhile p = input.takeWhile p := by
  induction input with
  | nil =>
    cases tail with
    | nil => exact ⟨rfl, rfl⟩
    | cons byte tail =>
      have hstop : p byte = false := h.resolve_left (fun hne ↦ hne rfl) byte rfl
      simp [hstop]
  | cons byte input ih =>
    by_cases hbyte : p byte = true
    · rw [List.dropWhile_cons_of_pos hbyte] at h
      have hrest := ih h
      simp [hbyte, hrest.1, hrest.2]
    · simp [Bool.eq_false_iff.mpr hbyte]

theorem takeSign_append {input : List Byte} (h : input ≠ []) (tail : List Byte) :
    takeSign (input ++ tail) = ((takeSign input).1, (takeSign input).2 ++ tail) := by
  cases input with
  | nil => exact absurd rfl h
  | cons byte input =>
    simp only [List.cons_append, takeSign]
    split
    · rfl
    · split <;> rfl

theorem readDigits_nil (negative : Bool) : readDigits negative [] = .error .ended := rfl

/-- Digits are read up to the first other character. -/
theorem readDigits_append_ok {negative : Bool} {input tail : List Byte} {values : List UInt16}
    {rest : List Byte} (h : readDigits negative input = .ok (values, rest))
    (hstop : rest ≠ [] ∨ ∀ byte ∈ tail.head?, isDigit byte = false) :
    readDigits negative (input ++ tail) = .ok (values, rest ++ tail) := by
  unfold readDigits at h ⊢
  cases hdigits : input.takeWhile isDigit with
  | nil =>
    rw [hdigits] at h
    cases h
  | cons digit digits =>
    rw [hdigits] at h
    injection h with h
    injection h with hvalues hrest
    have happend := dropWhile_append_of_stops (p := isDigit) (hrest.symm ▸ hstop)
    rw [happend.2, hdigits, happend.1]
    simp only [hvalues, hrest]

theorem readDigits_append_mismatch {negative : Bool} {input : List Byte}
    (h : readDigits negative input = .error .mismatch) (tail : List Byte) :
    readDigits negative (input ++ tail) = .error .mismatch := by
  cases input with
  | nil => cases h
  | cons byte input =>
    unfold readDigits at h ⊢
    by_cases hbyte : isDigit byte = true
    · rw [List.takeWhile_cons_of_pos hbyte] at h
      cases h
    · simp [List.takeWhile_cons_of_neg hbyte]

namespace Directive

variable {directive : Directive} {input tail rest : List Byte} {values : List UInt16}

theorem read_nil_ok (h : directive.read [] = .ok (values, rest)) : rest = [] := by
  cases directive with
  | literal byte => cases h
  | space =>
    injection h with h
    injection h with _ hrest
    exact hrest.symm
  | hu => cases h

theorem read_nil_ne_mismatch : directive.read [] ≠ .error .mismatch := by
  intro h
  cases directive <;> cases h

/-- The input of a number that is read, or that does not match, is not blank. -/
theorem dropWhile_isSpace_ne_nil (h : Directive.hu.read input ≠ .error .ended) :
    input.dropWhile isSpace ≠ [] := by
  intro hblank
  apply h
  simp only [read, hblank, takeSign, readDigits_nil]

/-- Behind the blanks and the sign a continuation only extends the digits. -/
theorem read_hu_append (h : Directive.hu.read input ≠ .error .ended) :
    Directive.hu.read (input ++ tail) =
      readDigits (takeSign (input.dropWhile isSpace)).1
        ((takeSign (input.dropWhile isSpace)).2 ++ tail) := by
  have hne := dropWhile_isSpace_ne_nil h
  have hblank : (input ++ tail).dropWhile isSpace = input.dropWhile isSpace ++ tail :=
    (dropWhile_append_of_stops (Or.inl hne)).1
  simp only [read, hblank, takeSign_append hne]

/-- A continuation is left alone. -/
theorem read_append_ok (h : directive.read input = .ok (values, rest))
    (hstop : rest ≠ [] ∨ directive.EndsBefore tail) :
    directive.read (input ++ tail) = .ok (values, rest ++ tail) := by
  cases directive with
  | literal byte =>
    cases input with
    | nil => cases h
    | cons head input =>
      simp only [read, List.cons_append] at h ⊢
      split at h
      · injection h with h
        injection h with hvalues hrest
        rw [if_pos (by assumption), hvalues, hrest]
      · cases h
  | space =>
    injection h with h
    injection h with hvalues hrest
    have happend := dropWhile_append_of_stops (p := isSpace) (hrest.symm ▸ hstop)
    simp only [read, happend.1, hvalues, hrest]
  | hu =>
    rw [read_hu_append (h ▸ fun heq ↦ by cases heq)]
    exact readDigits_append_ok h hstop

theorem read_append_mismatch (h : directive.read input = .error .mismatch) (tail : List Byte) :
    directive.read (input ++ tail) = .error .mismatch := by
  cases directive with
  | literal byte =>
    cases input with
    | nil => cases h
    | cons head input =>
      simp only [read, List.cons_append] at h ⊢
      split at h
      · cases h
      · rw [if_neg (by assumption)]
  | space => cases h
  | hu =>
    rw [read_hu_append (h ▸ fun heq ↦ by cases heq)]
    exact readDigits_append_mismatch h tail

end Directive

/-! ## Formats -/

theorem scan_nil_ok {format : List Directive} {rest : List Byte}
    (h : (scan format []).2 = .ok rest) : rest = [] := by
  induction format with
  | nil =>
    injection h with h
    exact h.symm
  | cons directive format ih =>
    cases hread : directive.read [] with
    | error failure =>
      rw [scan_cons_error hread] at h
      cases h
    | ok reading =>
      rw [scan_cons_ok hread, Directive.read_nil_ok hread] at h
      exact ih h

theorem scan_nil_ne_mismatch (format : List Directive) :
    (scan format []).2 ≠ .error .mismatch := by
  induction format with
  | nil =>
    intro h
    cases h
  | cons directive format ih =>
    cases hread : directive.read [] with
    | error failure =>
      rw [scan_cons_error hread]
      intro h
      injection h with h
      exact Directive.read_nil_ne_mismatch (h ▸ hread)
    | ok reading =>
      rw [scan_cons_ok hread, Directive.read_nil_ok hread]
      exact ih

/-- A scan that leaves input behind ignores a continuation. -/
theorem scan_append_ok {format : List Directive} {input rest : List Byte}
    (h : (scan format input).2 = .ok rest) (hrest : rest ≠ []) (tail : List Byte) :
    scan format (input ++ tail) = ((scan format input).1, .ok (rest ++ tail)) := by
  induction format generalizing input with
  | nil =>
    injection h with h
    rw [← h]
    rfl
  | cons directive format ih =>
    cases hread : directive.read input with
    | error failure =>
      rw [scan_cons_error hread] at h
      cases h
    | ok reading =>
      rw [scan_cons_ok hread] at h ⊢
      have hne : reading.2 ≠ [] := by
        intro hnil
        rw [hnil] at h
        exact hrest (scan_nil_ok h)
      rw [scan_cons_ok (Directive.read_append_ok hread (Or.inl hne)), ih h]

/-- A scan that meets a character that does not match ignores a continuation. -/
theorem scan_append_mismatch {format : List Directive} {input : List Byte}
    (h : (scan format input).2 = .error .mismatch) (tail : List Byte) :
    scan format (input ++ tail) = scan format input := by
  induction format generalizing input with
  | nil => cases h
  | cons directive format ih =>
    cases hread : directive.read input with
    | error failure =>
      have hmismatch : failure = .mismatch := by
        rw [scan_cons_error hread] at h
        injection h
      rw [hmismatch] at hread
      rw [scan_cons_error hread, scan_cons_error (Directive.read_append_mismatch hread tail)]
    | ok reading =>
      rw [scan_cons_ok hread] at h ⊢
      have hne : reading.2 ≠ [] := by
        intro hnil
        rw [hnil] at h
        exact scan_nil_ne_mismatch format h
      rw [scan_cons_ok (Directive.read_append_ok hread (Or.inl hne)), ih h]

theorem scan_concat_ok {format : List Directive} {input middle : List Byte}
    (h : (scan format input).2 = .ok middle) (last : Directive) :
    scan (format ++ [last]) input =
      ((scan format input).1 ++ (scan [last] middle).1, (scan [last] middle).2) := by
  induction format generalizing input with
  | nil =>
    injection h with h
    rw [h]
    rfl
  | cons directive format ih =>
    cases hread : directive.read input with
    | error failure =>
      rw [scan_cons_error hread] at h
      cases h
    | ok reading =>
      rw [scan_cons_ok hread] at h ⊢
      rw [List.cons_append, scan_cons_ok hread, ih h, List.append_assoc]

theorem scan_concat_error {format : List Directive} {input : List Byte} {failure : Failure}
    (h : (scan format input).2 = .error failure) (last : Directive) :
    (scan (format ++ [last]) input).2 = .error failure := by
  induction format generalizing input with
  | nil => cases h
  | cons directive format ih =>
    cases hread : directive.read input with
    | error failure =>
      rw [scan_cons_error hread] at h
      rw [List.cons_append, scan_cons_error hread]
      exact h
    | ok reading =>
      rw [scan_cons_ok hread] at h
      rw [List.cons_append, scan_cons_ok hread]
      exact ih h

/-- The scans whose result does not depend on what is behind the text: the text holds a NUL, or a
NUL follows it, or a character of it does not match, or the last directive ends before its end or
at a character it would not read. -/
def Settled (format : List Directive) (last : Directive) (text tail : List Byte) : Prop :=
  0 ∈ text ∨ (∀ byte ∈ tail.head?, byte = 0) ∨
    (scan (format ++ [last]) text).2 = .error .mismatch ∨
    ∃ rest, (scan (format ++ [last]) text).2 = .ok rest ∧ (rest ≠ [] ∨ last.EndsBefore tail)

/-- A scan that succeeds up to a last directive which needs input ignores what that directive would
not read. -/
theorem scan_append_last {format : List Directive} {last : Directive}
    (hlast : last.read [] = .error .ended) {input rest tail : List Byte}
    (h : (scan (format ++ [last]) input).2 = .ok rest)
    (hstop : rest ≠ [] ∨ last.EndsBefore tail) :
    (scan (format ++ [last]) (input ++ tail)).1 = (scan (format ++ [last]) input).1 := by
  cases hformat : (scan format input).2 with
  | error failure =>
    rw [scan_concat_error hformat] at h
    cases h
  | ok middle =>
    rw [scan_concat_ok hformat] at h ⊢
    cases hread : last.read middle with
    | error failure =>
      rw [scan_cons_error hread] at h
      cases h
    | ok reading =>
      rw [scan_cons_ok hread] at h ⊢
      injection h with h
      have hmiddle : middle ≠ [] := by
        intro hnil
        rw [hnil, hlast] at hread
        cases hread
      have happend := scan_append_ok hformat hmiddle tail
      have hlastread := Directive.read_append_ok hread (h.symm ▸ hstop)
      rw [scan_concat_ok (congrArg Prod.snd happend), scan_cons_ok hlastread, happend]
      rfl

theorem Directive.EndsBefore.cString {last : Directive} {tail : List Byte}
    (h : last.EndsBefore tail) : last.EndsBefore (Memory.cString tail) := by
  have hhead : ∀ byte ∈ (Memory.cString tail).head?, byte ∈ tail.head? := by
    intro byte hbyte
    rw [Memory.cString, List.head?_takeWhile] at hbyte
    exact (Option.mem_filter_iff.mp hbyte).1
  cases last with
  | literal => trivial
  | space => exact fun byte hbyte ↦ h byte (hhead byte hbyte)
  | hu => exact fun byte hbyte ↦ h byte (hhead byte hbyte)

/-- A settled scan gives the same values with and without the bytes behind the text. -/
theorem sscanf_append {format : List Directive} {last : Directive}
    (hlast : last.read [] = .error .ended) {text tail : List Byte}
    (h : Settled format last text tail) :
    sscanf (text ++ tail) (format ++ [last]) = sscanf text (format ++ [last]) := by
  unfold sscanf
  by_cases hnul : 0 ∈ text
  · rw [cString_append_of_nul hnul]
  · have htext : cString text = text := by
      simpa [cString] using cString_append_of_no_nul hnul []
    rw [cString_append_of_no_nul hnul, htext]
    rcases h.resolve_left hnul with hend | hmismatch | ⟨rest, hrest, hstop⟩
    · have htail : cString tail = [] := by
        cases tail with
        | nil => rfl
        | cons byte tail =>
          rw [hend byte rfl]
          rfl
      rw [htail, List.append_nil]
    · rw [scan_append_mismatch hmismatch]
    · exact scan_append_last hlast hrest (hstop.imp_right Directive.EndsBefore.cString)

end NrfExamples.Scanf
