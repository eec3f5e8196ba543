import Mathlib.Logic.Basic

/-!
# Programs that may fault

A program over a state has no result where it faults. `Ends` says that it does not fault from a
state, and that its value and the state behind it satisfy a postcondition. The rules follow the
construction of a program.
-/

namespace NrfExamples.Faulting

variable {State α β : Type}

abbrev Program (State α : Type) := StateT State Option α

/-- The program ends without a fault, with the given postcondition. -/
def Ends (program : Program State α) (state : State) (post : α → State → Prop) : Prop :=
  ∃ value final, program state = some (value, final) ∧ post value final

variable {program : Program State α} {next : α → Program State β} {state : State}
  {post mid : α → State → Prop} {last : β → State → Prop}

theorem ends_pure {value : α} (h : post value state) :
    Ends (pure value : Program State α) state post :=
  ⟨value, state, rfl, h⟩

/-- The second program starts from what the first one leaves. -/
theorem Ends.bind (h : Ends program state mid)
    (hnext : ∀ value final, mid value final → Ends (next value) final last) :
    Ends (program >>= next) state last := by
  obtain ⟨value, final, hprogram, hmid⟩ := h
  obtain ⟨result, behind, hresult, hlast⟩ := hnext value final hmid
  refine ⟨result, behind, ?_, hlast⟩
  rw [← hresult]
  exact congrArg (fun reached : Option (α × State) ↦
    reached.bind fun entry ↦ next entry.1 entry.2) hprogram

theorem Ends.mono (h : Ends program state mid)
    (hpost : ∀ value final, mid value final → post value final) : Ends program state post := by
  obtain ⟨value, final, hprogram, hmid⟩ := h
  exact ⟨value, final, hprogram, hpost value final hmid⟩

theorem ends_ite {condition : Prop} [Decidable condition] {other : Program State α}
    (hthen : condition → Ends program state post) (helse : ¬ condition → Ends other state post) :
    Ends (if condition then program else other) state post := by
  by_cases h : condition
  · rw [if_pos h]
    exact hthen h
  · rw [if_neg h]
    exact helse h

end NrfExamples.Faulting
