import Mathlib.Algebra.Order.Ring.Nat
import Mathlib.Data.List.Induction
import Mathlib.Data.Nat.Count

/-!
# Retries from a common budget

A reader goes through records of one size. A failed attempt is repeated until a counter passes a
limit; the record is then given up and the counter starts again. The counter is not reset when an
attempt succeeds, so the records share their retries: every record number `limit + 1` of the failed
attempts is given up, whichever records the attempts in front of it were made at.
`ownFailures_iff_grouped` says for which sequences of outcomes this makes no difference. How many
records are given up depends on the number of failures alone: `givenUp_eq_zero_iff` says when there
are none among the first records.
-/

namespace NrfExamples.Retry

/-- What a reader does: an attempt at an address, or giving up the record there. -/
inductive Entry where
  | attempt (address : ℕ) (valid : Bool)
  | givenUp (address : ℕ)
deriving DecidableEq

structure Reader where
  address : ℕ
  errors : ℕ
  log : List Entry

variable (limit stride : ℕ)

/-- One attempt, with the giving up that follows it. -/
def attempt (reader : Reader) (valid : Bool) : Reader :=
  if valid then
    { address := reader.address + stride
      errors := reader.errors
      log := reader.log ++ [.attempt reader.address true] }
  else if reader.errors + 1 > limit then
    { address := reader.address + stride
      errors := 0
      log := reader.log ++ [.attempt reader.address false] ++ [.givenUp reader.address] }
  else
    { address := reader.address
      errors := reader.errors + 1
      log := reader.log ++ [.attempt reader.address false] }

def attempts (outcomes : List Bool) : Reader :=
  outcomes.foldl (attempt limit stride) ⟨0, 0, []⟩

/-- Every record that is given up failed in the given number of attempts directly before. -/
def OwnFailures (count : ℕ) (log : List Entry) : Prop :=
  ∀ earlier later address, log = earlier ++ .givenUp address :: later →
    List.replicate count (.attempt address false) <:+ earlier

/-- The failed outcomes whose number is a multiple of `count` end a run of `count` failures. -/
def Grouped (count : ℕ) (outcomes : List Bool) : Prop :=
  ∀ earlier later, outcomes = earlier ++ false :: later → count ∣ earlier.count false + 1 →
    List.replicate count false <:+ earlier ++ [false]

/-! ## Appending one element -/

theorem replicate_succ_suffix_concat {α : Type} {count : ℕ} {entry other : α} {entries : List α} :
    List.replicate (count + 1) entry <:+ entries ++ [other] ↔
      other = entry ∧ List.replicate count entry <:+ entries := by
  rw [List.replicate_succ', List.suffix_concat_iff]
  constructor
  · rintro (hnil | ⟨start, heq, hsuffix⟩)
    · simp at hnil
    · obtain ⟨hstart, hlast⟩ := List.append_inj' heq rfl
      exact ⟨(List.singleton_inj.mp hlast).symm, hstart ▸ hsuffix⟩
  · rintro ⟨rfl, hsuffix⟩
    exact Or.inr ⟨_, rfl, hsuffix⟩

/-- Where an element stands in a list with one element appended. -/
theorem concat_eq_append_cons_iff {α : Type} {entries earlier later : List α} {last entry : α} :
    entries ++ [last] = earlier ++ entry :: later ↔
      (later = [] ∧ entries = earlier ∧ last = entry) ∨
        ∃ rest, later = rest ++ [last] ∧ entries = earlier ++ entry :: rest := by
  constructor
  · intro heq
    obtain rfl | ⟨rest, final, rfl⟩ := later.eq_nil_or_concat
    · obtain ⟨hentries, hlast⟩ := List.append_inj' heq rfl
      exact Or.inl ⟨rfl, hentries, List.singleton_inj.mp hlast⟩
    · rw [List.concat_eq_append, ← List.cons_append, ← List.append_assoc] at heq
      obtain ⟨hentries, hlast⟩ := List.append_inj' heq rfl
      refine Or.inr ⟨rest, ?_, hentries⟩
      rw [List.concat_eq_append, hlast]
  · rintro (⟨rfl, rfl, rfl⟩ | ⟨rest, rfl, rfl⟩)
    · rfl
    · rw [List.append_assoc, List.cons_append]

theorem ownFailures_concat_attempt {count : ℕ} {log : List Entry} {address : ℕ} {valid : Bool} :
    OwnFailures count (log ++ [.attempt address valid]) ↔ OwnFailures count log := by
  constructor
  · intro h earlier later given hlog
    exact h earlier (later ++ [.attempt address valid]) given (by rw [hlog, List.append_assoc]; rfl)
  · intro h earlier later given hlog
    obtain ⟨_, _, hlast⟩ | ⟨rest, _, hrest⟩ := concat_eq_append_cons_iff.mp hlog
    · cases hlast
    · exact h earlier rest given hrest

theorem ownFailures_concat_givenUp {count : ℕ} {log : List Entry} {address : ℕ} :
    OwnFailures count (log ++ [.givenUp address]) ↔
      OwnFailures count log ∧ List.replicate count (.attempt address false) <:+ log := by
  constructor
  · intro h
    refine ⟨fun earlier later given hlog ↦ ?_, h log [] address rfl⟩
    exact h earlier (later ++ [.givenUp address]) given (by rw [hlog, List.append_assoc]; rfl)
  · rintro ⟨h, hlast⟩ earlier later given hlog
    obtain ⟨_, rfl, heq⟩ | ⟨rest, _, hrest⟩ := concat_eq_append_cons_iff.mp hlog
    · rwa [← Entry.givenUp.inj heq]
    · exact h earlier rest given hrest

theorem grouped_concat_true {count : ℕ} {outcomes : List Bool} :
    Grouped count (outcomes ++ [true]) ↔ Grouped count outcomes := by
  constructor
  · intro h earlier later hsplit
    exact h earlier (later ++ [true]) (by rw [hsplit, List.append_assoc]; rfl)
  · intro h earlier later hsplit
    obtain ⟨_, _, hlast⟩ | ⟨rest, _, hrest⟩ := concat_eq_append_cons_iff.mp hsplit
    · cases hlast
    · exact h earlier rest hrest

theorem grouped_concat_false {count : ℕ} {outcomes : List Bool} :
    Grouped count (outcomes ++ [false]) ↔ Grouped count outcomes ∧
      (count ∣ outcomes.count false + 1 → List.replicate count false <:+ outcomes ++ [false]) := by
  constructor
  · intro h
    refine ⟨fun earlier later hsplit ↦ ?_, h outcomes [] rfl⟩
    exact h earlier (later ++ [false]) (by rw [hsplit, List.append_assoc]; rfl)
  · rintro ⟨h, hlast⟩ earlier later hsplit
    obtain ⟨_, rfl, _⟩ | ⟨rest, _, hrest⟩ := concat_eq_append_cons_iff.mp hsplit
    · exact hlast
    · exact h earlier rest hrest

/-! ## The counter and the runs of failures -/

/-- The reader and the outcomes it has seen: the counter is the number of failures since the last
record was given up, and the failures at the current address are those the outcomes end with. -/
structure Seen (outcomes : List Bool) (reader : Reader) : Prop where
  errors_eq : reader.errors = outcomes.count false % (limit + 1)
  suffix_iff : ∀ count ≤ reader.errors,
    List.replicate count (.attempt reader.address false) <:+ reader.log ↔
      List.replicate count false <:+ outcomes
  own_iff : OwnFailures (limit + 1) reader.log ↔ Grouped (limit + 1) outcomes

theorem seen_nil : Seen limit [] ⟨0, 0, []⟩ where
  errors_eq := (Nat.zero_mod _).symm
  suffix_iff count hcount := by
    rw [Nat.eq_zero_of_le_zero hcount]
    exact ⟨fun _ ↦ List.nil_suffix, fun _ ↦ List.nil_suffix⟩
  own_iff := by
    constructor
    · intro _ earlier later hsplit
      simp at hsplit
    · intro _ earlier later address hlog
      simp at hlog

variable {limit} {outcomes : List Bool} {reader : Reader}

theorem Seen.attempt_valid (h : Seen limit outcomes reader) :
    Seen limit (outcomes ++ [true]) (attempt limit stride reader true) := by
  have hattempt : attempt limit stride reader true = ⟨reader.address + stride, reader.errors,
      reader.log ++ [.attempt reader.address true]⟩ := if_pos rfl
  rw [hattempt]
  exact
    { errors_eq := by
        rw [h.errors_eq, List.count_append]
        rfl
      suffix_iff := fun count _ ↦ by
        cases count with
        | zero => exact ⟨fun _ ↦ List.nil_suffix, fun _ ↦ List.nil_suffix⟩
        | succ count =>
          rw [replicate_succ_suffix_concat, replicate_succ_suffix_concat]
          constructor
          · rintro ⟨hentry, _⟩
            exact absurd (Entry.attempt.inj hentry).2 (by decide)
          · rintro ⟨hentry, _⟩
            exact absurd hentry (by decide)
      own_iff := by rw [ownFailures_concat_attempt, grouped_concat_true, h.own_iff] }

/-- One more failure, counted since the last record that was given up. -/
theorem Seen.count_succ_mod (h : Seen limit outcomes reader) :
    (outcomes ++ [false]).count false % (limit + 1) = (reader.errors + 1) % (limit + 1) := by
  have hdiv := Nat.div_add_mod (outcomes.count false) (limit + 1)
  rw [← h.errors_eq] at hdiv
  have hcount : (outcomes ++ [false]).count false = outcomes.count false + 1 := by
    rw [List.count_append]
    rfl
  rw [hcount, ← hdiv, Nat.add_assoc, Nat.mul_add_mod]

/-- A failure that leaves the counter within its limit. -/
theorem Seen.attempt_failed (h : Seen limit outcomes reader)
    (hlimit : ¬ reader.errors + 1 > limit) :
    Seen limit (outcomes ++ [false]) (attempt limit stride reader false) := by
  have hattempt : attempt limit stride reader false = ⟨reader.address, reader.errors + 1,
      reader.log ++ [.attempt reader.address false]⟩ := by
    rw [attempt, if_neg Bool.false_ne_true, if_neg hlimit]
  have herrors : (outcomes ++ [false]).count false % (limit + 1) = reader.errors + 1 := by
    rw [h.count_succ_mod, Nat.mod_eq_of_lt (by omega)]
  rw [hattempt]
  exact
    { errors_eq := herrors.symm
      suffix_iff := fun count hle ↦ by
        cases count with
        | zero => exact ⟨fun _ ↦ List.nil_suffix, fun _ ↦ List.nil_suffix⟩
        | succ count =>
          rw [replicate_succ_suffix_concat, replicate_succ_suffix_concat,
            h.suffix_iff count (Nat.le_of_succ_le_succ hle)]
          exact and_congr_left fun _ ↦ ⟨fun _ ↦ rfl, fun _ ↦ rfl⟩
      own_iff := by
        rw [ownFailures_concat_attempt, grouped_concat_false, h.own_iff]
        refine (and_iff_left fun hdvd ↦ ?_).symm
        rw [List.count_append] at herrors
        exact absurd (Nat.mod_eq_zero_of_dvd hdvd) (herrors.trans_ne (Nat.succ_ne_zero _)) }

/-- A failure that uses up the counter: the record is given up, and rightly so exactly if the
outcomes end with as many failures. -/
theorem Seen.attempt_givenUp (h : Seen limit outcomes reader) (hlimit : reader.errors + 1 > limit) :
    Seen limit (outcomes ++ [false]) (attempt limit stride reader false) := by
  have hattempt : attempt limit stride reader false = ⟨reader.address + stride, 0,
      reader.log ++ [.attempt reader.address false] ++ [.givenUp reader.address]⟩ := by
    rw [attempt, if_neg Bool.false_ne_true, if_pos hlimit]
  have hfull : reader.errors = limit := by
    have hlt : outcomes.count false % (limit + 1) < limit + 1 := Nat.mod_lt _ (Nat.succ_pos limit)
    rw [← h.errors_eq] at hlt
    omega
  have herrors : (outcomes ++ [false]).count false % (limit + 1) = 0 := by
    rw [h.count_succ_mod, hfull, Nat.mod_self]
  rw [hattempt]
  exact
    { errors_eq := herrors.symm
      suffix_iff := fun count hle ↦ by
        rw [Nat.eq_zero_of_le_zero hle]
        exact ⟨fun _ ↦ List.nil_suffix, fun _ ↦ List.nil_suffix⟩
      own_iff := by
        rw [ownFailures_concat_givenUp, ownFailures_concat_attempt, grouped_concat_false, h.own_iff]
        apply and_congr_right
        intro _
        rw [replicate_succ_suffix_concat, replicate_succ_suffix_concat,
          h.suffix_iff limit hfull.ge]
        constructor
        · rintro ⟨_, hsuffix⟩ _
          exact ⟨rfl, hsuffix⟩
        · intro hgrouped
          rw [List.count_append] at herrors
          exact ⟨rfl, (hgrouped (Nat.dvd_of_mod_eq_zero herrors)).2⟩ }

theorem Seen.attempt (h : Seen limit outcomes reader) (valid : Bool) :
    Seen limit (outcomes ++ [valid]) (Retry.attempt limit stride reader valid) := by
  cases valid with
  | true => exact h.attempt_valid stride
  | false =>
    by_cases hlimit : reader.errors + 1 > limit
    · exact h.attempt_givenUp stride hlimit
    · exact h.attempt_failed stride hlimit

theorem seen_attempts (outcomes : List Bool) :
    Seen limit outcomes (attempts limit stride outcomes) := by
  induction outcomes using List.reverseRecOn with
  | nil => exact seen_nil limit
  | append_singleton outcomes valid ih =>
    rw [attempts, List.foldl_append]
    exact ih.attempt stride valid

/-- Records are given up only for their own failures exactly if the outcomes are grouped. -/
theorem ownFailures_iff_grouped (outcomes : List Bool) :
    OwnFailures (limit + 1) (attempts limit stride outcomes).log ↔ Grouped (limit + 1) outcomes :=
  (seen_attempts stride outcomes).own_iff

/-! ## Records left behind -/

section Passed

variable (limit : ℕ) (failed : ℕ → Prop) [DecidablePred failed]

/-- The records given up after `n` attempts. -/
def givenUp (n : ℕ) : ℕ := Nat.count failed n / (limit + 1)

/-- The records left behind after `n` attempts: those read and those given up. -/
def passed (n : ℕ) : ℕ := n - Nat.count failed n + givenUp limit failed n

variable {limit failed} {n : ℕ}

theorem count_succ_of_not (h : ¬ failed n) : Nat.count failed (n + 1) = Nat.count failed n :=
  Nat.count_succ_eq_count_iff.mpr h

theorem count_succ_of_failed (h : failed n) :
    Nat.count failed (n + 1) = Nat.count failed n + 1 :=
  Nat.count_succ_eq_succ_count_iff.mpr h

theorem passed_succ_of_not (h : ¬ failed n) :
    passed limit failed (n + 1) = passed limit failed n + 1 := by
  have hle : Nat.count failed n ≤ n := Nat.count_le failed
  simp only [passed, givenUp, count_succ_of_not h]
  omega

/-- A failure leaves its record behind if it uses up the retries. -/
theorem passed_succ_of_failed (h : failed n) :
    passed limit failed (n + 1) = n - Nat.count failed n + givenUp limit failed (n + 1) := by
  rw [passed, count_succ_of_failed h, Nat.add_sub_add_right]

theorem givenUp_succ_of_last (h : failed n) (hlast : Nat.count failed n % (limit + 1) = limit) :
    givenUp limit failed (n + 1) = givenUp limit failed n + 1 := by
  have hdvd : limit + 1 ∣ Nat.count failed n + 1 := by
    have hdiv := Nat.div_add_mod (Nat.count failed n) (limit + 1)
    rw [hlast] at hdiv
    refine ⟨Nat.count failed n / (limit + 1) + 1, ?_⟩
    rw [Nat.mul_succ, ← Nat.add_assoc, hdiv]
  rw [givenUp, count_succ_of_failed h, Nat.succ_div_of_dvd hdvd, givenUp]

theorem givenUp_succ_of_lt (h : failed n) (hlt : Nat.count failed n % (limit + 1) < limit) :
    givenUp limit failed (n + 1) = givenUp limit failed n := by
  have hdvd : ¬ limit + 1 ∣ Nat.count failed n + 1 := by
    intro hdvd
    have hmod := Nat.mod_eq_zero_of_dvd hdvd
    rw [← Nat.mod_add_mod, Nat.mod_eq_of_lt (by omega)] at hmod
    exact absurd hmod (Nat.succ_ne_zero _)
  rw [givenUp, count_succ_of_failed h, Nat.succ_div_of_not_dvd hdvd, givenUp]

/-- No record is given up up to the attempt that leaves the last of them behind, if and only if the
failures of as many attempts and retries stay within the limit. -/
theorem givenUp_eq_zero_iff {records : ℕ} (hpassed : passed limit failed n = records)
    (hbefore : ∀ m < n, passed limit failed m < records) :
    givenUp limit failed n = 0 ↔ Nat.count failed (records + limit) ≤ limit := by
  have hcount {m : ℕ} : givenUp limit failed m = 0 ↔ Nat.count failed m ≤ limit := by
    rw [givenUp, Nat.div_eq_zero_iff_lt (Nat.succ_pos limit), Nat.lt_succ_iff]
  have hle (m : ℕ) : Nat.count failed m ≤ m := Nat.count_le failed
  constructor
  · intro hzero
    have hfew := hcount.mp hzero
    rw [passed, hzero, Nat.add_zero] at hpassed
    have hsplit : records + limit = n + (limit - Nat.count failed n) := by
      have := hle n
      omega
    have hrest : Nat.count (fun k ↦ failed (n + k)) (limit - Nat.count failed n) ≤
        limit - Nat.count failed n := Nat.count_le _
    rw [hsplit, Nat.count_add]
    omega
  · intro hfew
    by_contra hsome
    have hmore : records ≤ passed limit failed (records + limit) := by
      have := hle (records + limit)
      rw [passed, hcount.mpr hfew]
      omega
    have hn : n ≤ records + limit := by
      by_contra hlt
      exact absurd (hbefore _ (not_le.mp hlt)) (not_lt.mpr hmore)
    exact hsome (hcount.mpr ((Nat.count_monotone failed hn).trans hfew))

end Passed

end NrfExamples.Retry
