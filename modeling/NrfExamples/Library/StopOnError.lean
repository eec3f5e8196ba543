import Mathlib.Data.List.Nodup
import Mathlib.Logic.Function.Basic

/-!
# Steps up to the first failure

Steps are taken in order until one fails, and every step that is taken is recorded with its outcome.
The outcomes are given by the numbers of the steps. `taken_append_of_succeed` and
`taken_append_of_fail` describe the records of two parts, and `forall_mem_taken_iff` says that all
steps are recorded as successful exactly when they are.
-/

namespace NrfExamples.StopOnError

variable {α β : Type*} (record : α → Bool → β) (succeeds : ℕ → Bool)

/-- The given number of steps from a start on succeed. -/
def AllSucceed (start count : ℕ) : Prop := ∀ step < count, succeeds (start + step) = true

/-- The records of the steps that are taken. -/
def taken : ℕ → List α → List β
  | _, [] => []
  | start, step :: steps =>
      record step (succeeds start) :: if succeeds start then taken (start + 1) steps else []

variable {succeeds} {start : ℕ}

/-! ## Successful steps -/

theorem allSucceed_zero : AllSucceed succeeds start 0 :=
  fun _ h ↦ absurd h (Nat.not_lt_zero _)

theorem allSucceed_succ (count : ℕ) :
    AllSucceed succeeds start (count + 1) ↔
      AllSucceed succeeds start count ∧ succeeds (start + count) = true :=
  Nat.forall_lt_succ_right

theorem allSucceed_succ_left (count : ℕ) :
    AllSucceed succeeds start (count + 1) ↔
      succeeds start = true ∧ AllSucceed succeeds (start + 1) count := by
  rw [AllSucceed, Nat.forall_lt_succ_left]
  simp only [AllSucceed, Nat.add_zero, Nat.add_right_comm, Nat.add_assoc]

/-! ## Recorded steps -/

theorem taken_cons_of_succeeds (step : α) (steps : List α) (h : succeeds start = true) :
    taken record succeeds start (step :: steps) =
      record step true :: taken record succeeds (start + 1) steps := by
  rw [taken, h, if_pos rfl]

theorem taken_cons_of_fails (step : α) (steps : List α) (h : succeeds start = false) :
    taken record succeeds start (step :: steps) = [record step false] := by
  rw [taken, h, if_neg (by decide)]

theorem taken_singleton (step : α) :
    taken record succeeds start [step] = [record step (succeeds start)] := by
  rw [taken, taken, ite_self]

theorem length_taken {steps : List α} (h : AllSucceed succeeds start steps.length) :
    (taken record succeeds start steps).length = steps.length := by
  induction steps generalizing start with
  | nil => rfl
  | cons step steps ih =>
    obtain ⟨hfirst, hrest⟩ := (allSucceed_succ_left steps.length).mp h
    rw [taken_cons_of_succeeds record step steps hfirst, List.length_cons, ih hrest,
      List.length_cons]

/-- Behind successful steps the others follow. -/
theorem taken_append_of_succeed {steps : List α} (h : AllSucceed succeeds start steps.length)
    (more : List α) :
    taken record succeeds start (steps ++ more) =
      taken record succeeds start steps ++ taken record succeeds (start + steps.length) more := by
  induction steps generalizing start with
  | nil => rfl
  | cons step steps ih =>
    obtain ⟨hfirst, hrest⟩ := (allSucceed_succ_left steps.length).mp h
    rw [List.cons_append, taken_cons_of_succeeds record step _ hfirst,
      taken_cons_of_succeeds record step steps hfirst, ih hrest, List.length_cons,
      List.cons_append, Nat.add_right_comm, Nat.add_assoc]

/-- Behind a failure nothing follows. -/
theorem taken_append_of_fail {steps : List α} (h : ¬ AllSucceed succeeds start steps.length)
    (more : List α) :
    taken record succeeds start (steps ++ more) = taken record succeeds start steps := by
  induction steps generalizing start with
  | nil => exact absurd allSucceed_zero h
  | cons step steps ih =>
    cases hfirst : succeeds start with
    | false =>
      rw [List.cons_append, taken_cons_of_fails record step _ hfirst,
        taken_cons_of_fails record step steps hfirst]
    | true =>
      have hrest : ¬ AllSucceed succeeds (start + 1) steps.length := fun hrest ↦
        h ((allSucceed_succ_left steps.length).mpr ⟨hfirst, hrest⟩)
      rw [List.cons_append, taken_cons_of_succeeds record step _ hfirst,
        taken_cons_of_succeeds record step steps hfirst, ih hrest]

/-- All steps are recorded as successful exactly when they are. -/
theorem forall_mem_taken_iff (hrecord : Function.Injective2 record) {steps : List α}
    (hnodup : steps.Nodup) :
    (∀ step ∈ steps, record step true ∈ taken record succeeds start steps) ↔
      AllSucceed succeeds start steps.length := by
  induction steps generalizing start with
  | nil => exact iff_of_true (by simp) allSucceed_zero
  | cons step steps ih =>
    obtain ⟨hnot, hrest⟩ := List.nodup_cons.mp hnodup
    rw [List.forall_mem_cons, List.length_cons, allSucceed_succ_left, ← ih hrest]
    cases hfirst : succeeds start with
    | false =>
      rw [taken_cons_of_fails record step steps hfirst, List.mem_singleton]
      refine iff_of_false (fun h ↦ ?_) (fun h ↦ Bool.false_ne_true h.1)
      exact Bool.false_ne_true (hrecord h.1).2.symm
    | true =>
      rw [taken_cons_of_succeeds record step steps hfirst]
      constructor
      · rintro ⟨-, h⟩
        refine ⟨rfl, fun other hother ↦ ?_⟩
        have hne : record other true ≠ record step true := fun heq ↦
          hnot ((hrecord heq).1 ▸ hother)
        exact List.mem_of_ne_of_mem hne (h other hother)
      · rintro ⟨-, h⟩
        exact ⟨List.mem_cons_self, fun other hother ↦ List.mem_cons_of_mem _ (h other hother)⟩

end NrfExamples.StopOnError
