import Mathlib.Data.List.Basic

/-!
# Function bodies with early returns

A body is a chain of blocks over one state. A block changes the state, lists its effects and either
returns from the whole body or falls through to the next block. `andThen` is the chaining; what
remains after a block that falls through runs in the state that the block left.
-/

namespace NrfExamples.Procedure

/-- What a body has done so far; `exit` is its return value once it has returned. -/
structure Progress (State Effect Exit : Type) where
  state : State
  effects : List Effect
  exit : Option Exit

namespace Progress

variable {State Effect Exit : Type}

/-- A block without effect. -/
def skip (state : State) : Progress State Effect Exit := ⟨state, [], none⟩

def andThen (progress : Progress State Effect Exit)
    (next : State → Progress State Effect Exit) : Progress State Effect Exit :=
  match progress.exit with
  | some _ => progress
  | none =>
      { next progress.state with effects := progress.effects ++ (next progress.state).effects }

variable {progress : Progress State Effect Exit} {next : State → Progress State Effect Exit}

theorem andThen_of_returned {exit : Exit} (h : progress.exit = some exit) :
    progress.andThen next = progress := by
  simp only [andThen, h]

theorem andThen_of_continues (h : progress.exit = none) :
    progress.andThen next =
      { next progress.state with
        effects := progress.effects ++ (next progress.state).effects } := by
  simp only [andThen, h]

theorem andThen_assoc (last : State → Progress State Effect Exit) :
    (progress.andThen next).andThen last =
      progress.andThen fun state ↦ (next state).andThen last := by
  cases hprogress : progress.exit with
  | some exit =>
    rw [andThen_of_returned hprogress, andThen_of_returned hprogress,
      andThen_of_returned hprogress]
  | none =>
    rw [andThen_of_continues hprogress, andThen_of_continues hprogress]
    cases hnext : (next progress.state).exit with
    | some exit =>
      rw [andThen_of_returned hnext]
      exact andThen_of_returned hnext
    | none =>
      rw [andThen_of_continues hnext, ← List.append_assoc]
      exact andThen_of_continues hnext

/-- What a block has set and the rest of the body keeps. -/
theorem state_andThen {α : Type} (field : State → α) {value : α} (h : field progress.state = value)
    (hnext : ∀ state, field (next state).state = field state) :
    field (progress.andThen next).state = value := by
  unfold andThen
  split
  · exact h
  · exact (hnext progress.state).trans h

/-- A block without effect leaves the rest of the body. -/
@[simp]
theorem skip_andThen (state : State) : (skip state).andThen next = next state := rfl

end Progress

end NrfExamples.Procedure
