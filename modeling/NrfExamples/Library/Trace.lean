import Mathlib.Algebra.Order.Ring.Nat

/-!
# Runs of partial step functions

A system is a step function that takes an event in a state, or refuses it. `run` folds it over
a list of events. `Along` says that a predicate of state and event holds at every step a run
takes; the rule `along_of_along` turns an assumption on every step into a property of every step,
through an invariant that the assumed steps preserve.
-/

namespace NrfExamples.Trace

variable {State Event : Type} (step : State → Event → Option State)

/-- The state after all events, or `none` once one of them is refused. -/
def run : State → List Event → Option State
  | state, [] => some state
  | state, event :: events => (step state event).bind fun next ↦ run next events

/-- `property` holds at each state and event of the run that starts in the given state. -/
def Along (property : State → Event → Prop) : State → List Event → Prop
  | _, [] => True
  | state, event :: events =>
      property state event ∧ ∀ next, step state event = some next → Along property next events

@[simp]
theorem run_nil (state : State) : run step state [] = some state := rfl

@[simp]
theorem run_cons (state : State) (event : Event) (events : List Event) :
    run step state (event :: events) = (step state event).bind (run step · events) := rfl

theorem run_append (state : State) (first second : List Event) :
    run step state (first ++ second) = (run step state first).bind (run step · second) := by
  induction first generalizing state with
  | nil => rfl
  | cons event first ih =>
    rw [List.cons_append, run_cons, run_cons]
    cases step state event with
    | none => rfl
    | some next => exact ih next

variable {step}

instance decidableAlong {property : State → Event → Prop}
    [∀ state event, Decidable (property state event)] :
    (state : State) → (events : List Event) → Decidable (Along step property state events)
  | _, [] => isTrue trivial
  | state, event :: events =>
      letI : Decidable (∀ next, step state event = some next → Along step property next events) :=
        match step state event with
        | none => isTrue fun _ hnext ↦ nomatch hnext
        | some next =>
            letI : Decidable (Along step property next events) := decidableAlong next events
            decidable_of_iff (Along step property next events)
              ⟨fun h _ hnext ↦ Option.some.inj hnext ▸ h, fun h ↦ h next rfl⟩
      inferInstanceAs (Decidable (_ ∧ _))

/-- What the steps that meet `assumption` keep, a run along which it holds keeps. -/
theorem run_invariant_of_along {invariant : State → Prop} {assumption : State → Event → Prop}
    (hstep : ∀ state event next, assumption state event → invariant state →
      step state event = some next → invariant next)
    {state final : State} {events : List Event} (hinit : invariant state)
    (halong : Along step assumption state events) (hrun : run step state events = some final) :
    invariant final := by
  induction events generalizing state with
  | nil => exact Option.some.inj hrun ▸ hinit
  | cons event events ih =>
    obtain ⟨next, hnext, hrest⟩ := Option.bind_eq_some_iff.mp hrun
    exact ih (hstep state event next halong.1 hinit hnext) (halong.2 next hnext) hrest

theorem along_of_forall {allowed : Event → Prop} {state : State} {events : List Event}
    (h : ∀ event ∈ events, allowed event) :
    Along step (fun _ event ↦ allowed event) state events := by
  induction events generalizing state with
  | nil => trivial
  | cons event events ih =>
    rw [List.forall_mem_cons] at h
    exact ⟨h.1, fun _ _ ↦ ih h.2⟩

/-- Where the steps that meet `assumption` commute with an abstraction of the states, so does a run
along which it holds. -/
theorem run_map {Abstract : Type} {abstract : State → Abstract}
    {abstractStep : Abstract → Event → Option Abstract} {assumption : State → Event → Prop}
    (hstep : ∀ state event, assumption state event →
      (step state event).map abstract = abstractStep (abstract state) event)
    {state : State} {events : List Event} (halong : Along step assumption state events) :
    (run step state events).map abstract = run abstractStep (abstract state) events := by
  induction events generalizing state with
  | nil => rfl
  | cons event events ih =>
    rw [run_cons, run_cons, ← hstep state event halong.1]
    cases hnext : step state event with
    | none => rfl
    | some next => exact ih (halong.2 next hnext)

/-- An invariant of single steps is an invariant of runs. -/
theorem run_invariant {invariant : State → Prop}
    (hstep : ∀ state event next, invariant state → step state event = some next → invariant next)
    {state final : State} {events : List Event} (hinit : invariant state)
    (hrun : run step state events = some final) : invariant final :=
  have hnone : ∀ event ∈ events, True := fun _ _ ↦ trivial
  run_invariant_of_along (fun state event next _ ↦ hstep state event next) hinit
    (along_of_forall hnone) hrun

/-- A rank that every step lowers bounds the number of steps. -/
theorem length_add_rank_le {invariant : State → Prop} {rank : State → ℕ}
    (hstep : ∀ state event next, invariant state → step state event = some next →
      invariant next ∧ rank next < rank state)
    {state final : State} {events : List Event} (hinit : invariant state)
    (hrun : run step state events = some final) :
    invariant final ∧ events.length + rank final ≤ rank state := by
  induction events generalizing state with
  | nil =>
    rw [← Option.some.inj hrun]
    exact ⟨hinit, (Nat.zero_add _).le⟩
  | cons event events ih =>
    obtain ⟨next, hnext, hrest⟩ := Option.bind_eq_some_iff.mp hrun
    have hone := hstep state event next hinit hnext
    have hmore := ih hone.1 hrest
    refine ⟨hmore.1, ?_⟩
    rw [List.length_cons]
    omega

/-- Steps that meet `assumption` keep the invariant, and the invariant gives `property` there. -/
theorem along_of_along {invariant : State → Prop} {assumption property : State → Event → Prop}
    (hstep : ∀ state event next, invariant state → assumption state event →
      step state event = some next → invariant next)
    (hproperty : ∀ state event, invariant state → assumption state event → property state event)
    {state : State} {events : List Event} (hinit : invariant state)
    (hassumption : Along step assumption state events) : Along step property state events := by
  induction events generalizing state with
  | nil => trivial
  | cons event events ih =>
    obtain ⟨hhead, htail⟩ := hassumption
    refine ⟨hproperty state event hinit hhead, fun next hnext ↦ ?_⟩
    exact ih (hstep state event next hinit hhead hnext) (htail next hnext)

/-- Every step of a run that was taken has what the invariant gives for the steps that are. -/
theorem along_of_run {invariant : State → Prop} {property : State → Event → Prop}
    (hstep : ∀ state event next, invariant state → step state event = some next →
      property state event ∧ invariant next)
    {state final : State} {events : List Event} (hinit : invariant state)
    (hrun : run step state events = some final) : Along step property state events := by
  induction events generalizing state with
  | nil => trivial
  | cons event events ih =>
    obtain ⟨next, hnext, hrest⟩ := Option.bind_eq_some_iff.mp hrun
    refine ⟨(hstep state event next hinit hnext).1, fun other hother ↦ ?_⟩
    obtain rfl : next = other := Option.some.inj (hnext.symm.trans hother)
    exact ih (hstep state event next hinit hnext).2 hrest

/-- Where no step is refused, no run is. -/
theorem exists_run {invariant : State → Prop} {property : State → Event → Prop}
    (hstep : ∀ state event, invariant state →
      property state event ∧ ∃ next, step state event = some next ∧ invariant next)
    {state : State} (hinit : invariant state) (events : List Event) :
    ∃ final, run step state events = some final ∧ invariant final ∧
      Along step property state events := by
  induction events generalizing state with
  | nil => exact ⟨state, rfl, hinit, trivial⟩
  | cons event events ih =>
    obtain ⟨hproperty, next, hnext, hinvariant⟩ := hstep state event hinit
    obtain ⟨final, hrun, hfinal, halong⟩ := ih hinvariant
    refine ⟨final, ?_, hfinal, hproperty, fun other hother ↦ ?_⟩
    · rw [run_cons, hnext, Option.bind_some, hrun]
    · rwa [← Option.some.inj (hnext.symm.trans hother)]

theorem Along.mono {property other : State → Event → Prop}
    (h : ∀ state event, property state event → other state event) {state : State}
    {events : List Event} (halong : Along step property state events) :
    Along step other state events :=
  have hstep : ∀ state event next, True → property state event →
      step state event = some next → True := fun _ _ _ _ _ _ ↦ trivial
  along_of_along hstep (fun state event _ hproperty ↦ h state event hproperty) trivial halong

/-- Where a predicate fails along a run, it fails at a step that the run reaches. -/
theorem exists_of_not_along {property : State → Event → Prop} {state : State}
    {events : List Event} (h : ¬ Along step property state events) :
    ∃ before event after reached, events = before ++ event :: after ∧
      run step state before = some reached ∧ ¬ property reached event := by
  induction events generalizing state with
  | nil => exact absurd trivial h
  | cons event events ih =>
    by_cases hproperty : property state event
    · have hnext : ∃ next, step state event = some next ∧ ¬ Along step property next events := by
        by_contra hnone
        push Not at hnone
        exact h ⟨hproperty, hnone⟩
      obtain ⟨next, hstep, hrest⟩ := hnext
      obtain ⟨before, failing, after, reached, hevents, hrun, hfails⟩ := ih hrest
      refine ⟨event :: before, failing, after, reached, ?_, ?_, hfails⟩
      · rw [hevents, List.cons_append]
      · rw [run_cons, hstep, Option.bind_some, hrun]
    · exact ⟨[], event, events, state, rfl, rfl, hproperty⟩

/-- What holds along a run holds along its beginning. -/
theorem Along.of_append {property : State → Event → Prop} {state : State}
    {first second : List Event} (h : Along step property state (first ++ second)) :
    Along step property state first := by
  induction first generalizing state with
  | nil => trivial
  | cons event first ih => exact ⟨h.1, fun next hnext ↦ ih (h.2 next hnext)⟩

/-- What holds along a run holds at every step it takes. -/
theorem Along.at_step {property : State → Event → Prop} {state reached : State}
    {before after : List Event} {event : Event}
    (h : Along step property state (before ++ event :: after))
    (hrun : run step state before = some reached) : property reached event := by
  induction before generalizing state with
  | nil => exact Option.some.inj hrun ▸ h.1
  | cons first before ih =>
    obtain ⟨next, hnext, hrest⟩ := Option.bind_eq_some_iff.mp hrun
    exact ih (h.2 next hnext) hrest

variable (step) in
/-- What the steps of a run put out, one after the other. -/
def outputs {Output : Type} (output : State → Event → List Output) :
    State → List Event → List Output
  | _, [] => []
  | state, event :: events =>
      output state event ++ (step state event).elim [] fun next ↦ outputs output next events

theorem outputs_append {Output : Type} (output : State → Event → List Output) (state : State)
    (first second : List Event) : outputs step output state (first ++ second) =
      outputs step output state first ++
        (run step state first).elim [] fun next ↦ outputs step output next second := by
  induction first generalizing state with
  | nil => rfl
  | cons event first ih =>
    rw [List.cons_append, outputs, outputs, run_cons, List.append_assoc]
    cases step state event with
    | none => rfl
    | some next => exact congrArg (output state event ++ ·) (ih next)

/-- What holds of the outputs of every step holds of all outputs. -/
theorem forall_mem_outputs {Output : Type} {output : State → Event → List Output}
    {property : Output → Prop} {state : State} {events : List Event}
    (h : Along step (fun state event ↦ ∀ entry ∈ output state event, property entry) state events) :
    ∀ entry ∈ outputs step output state events, property entry := by
  induction events generalizing state with
  | nil => exact fun _ hmem ↦ absurd hmem List.not_mem_nil
  | cons event events ih =>
    intro entry hmem
    cases List.mem_append.mp hmem with
    | inl hfirst => exact h.1 entry hfirst
    | inr hlater =>
      cases hstep : step state event with
      | none =>
        rw [hstep] at hlater
        exact absurd hlater List.not_mem_nil
      | some next =>
        rw [hstep] at hlater
        exact ih (h.2 next hstep) entry hlater

/-- What the steps that meet `assumption` keep of the outputs so far and the state holds of all
outputs and the final state. -/
theorem outputs_invariant {Output : Type} {output : State → Event → List Output}
    {invariant : List Output → State → Prop} {assumption : State → Event → Prop}
    (hstep : ∀ history state event next, assumption state event → invariant history state →
      step state event = some next → invariant (history ++ output state event) next)
    {history : List Output} {state final : State} {events : List Event}
    (hinit : invariant history state) (halong : Along step assumption state events)
    (hrun : run step state events = some final) :
    invariant (history ++ outputs step output state events) final := by
  induction events generalizing history state with
  | nil =>
    rw [outputs, List.append_nil]
    exact Option.some.inj hrun ▸ hinit
  | cons event events ih =>
    obtain ⟨next, hnext, hrest⟩ := Option.bind_eq_some_iff.mp hrun
    rw [outputs, hnext, Option.elim_some, ← List.append_assoc]
    have hkept := hstep history state event next halong.1 hinit hnext
    exact ih hkept (halong.2 next hnext) hrest

/-- A preorder on lists that may be used in front of and behind other entries. -/
structure Congruence {Output : Type} (relation : List Output → List Output → Prop) : Prop where
  refl : ∀ list, relation list list
  trans : ∀ {first second third}, relation first second → relation second third →
    relation first third
  append_left : ∀ front {first second}, relation first second →
    relation (front ++ first) (front ++ second)
  append_right : ∀ back {first second}, relation first second →
    relation (first ++ back) (second ++ back)

theorem congruence_eq (Output : Type) : Congruence (@Eq (List Output)) where
  refl _ := rfl
  trans := Eq.trans
  append_left front _ _ h := congrArg (front ++ ·) h
  append_right back _ _ h := congrArg (· ++ back) h

theorem congruence_sublist (Output : Type) : Congruence (@List.Sublist Output) where
  refl := List.Sublist.refl
  trans := List.Sublist.trans
  append_left front _ _ h := h.append_left front
  append_right back _ _ h := h.append_right back

/-- What every step puts out or stores, against what it had stored or takes in, gives the same for
the whole run. -/
theorem outputs_append_stored {Output : Type} {relation : List Output → List Output → Prop}
    (hrelation : Congruence relation) {input output : State → Event → List Output}
    {stored : State → List Output} {invariant : State → Prop}
    (hkept : ∀ state event next, invariant state → step state event = some next → invariant next)
    (hstep : ∀ state event next, invariant state → step state event = some next →
      relation (output state event ++ stored next) (stored state ++ input state event))
    {state final : State} {events : List Event} (hinit : invariant state)
    (hrun : run step state events = some final) :
    relation (outputs step output state events ++ stored final)
      (stored state ++ outputs step input state events) := by
  induction events generalizing state with
  | nil =>
    rw [← Option.some.inj hrun, outputs, outputs, List.nil_append, List.append_nil]
    exact hrelation.refl _
  | cons event events ih =>
    obtain ⟨next, hnext, hrest⟩ := Option.bind_eq_some_iff.mp hrun
    have hlater := hrelation.append_left (output state event)
      (ih (hkept state event next hinit hnext) hrest)
    have hfirst := hrelation.append_right (outputs step input next events)
      (hstep state event next hinit hnext)
    rw [outputs, outputs, hnext, Option.elim_some, Option.elim_some, List.append_assoc,
      ← List.append_assoc (stored state)]
    apply hrelation.trans hlater
    rw [← List.append_assoc]
    exact hfirst

/-- Where every step puts out a part of another output, the whole run does. -/
theorem outputs_sublist {Output : Type} {output whole : State → Event → List Output}
    (h : ∀ state event, (output state event).Sublist (whole state event)) (state : State)
    (events : List Event) :
    (outputs step output state events).Sublist (outputs step whole state events) := by
  induction events generalizing state with
  | nil => exact List.Sublist.refl _
  | cons event events ih =>
    apply (h state event).append
    cases step state event with
    | none => exact List.Sublist.refl _
    | some next => exact ih next

/-- The parts are the whole outputs exactly if they are at every step that the run takes. -/
theorem outputs_eq_iff {Output : Type} {output whole : State → Event → List Output}
    (h : ∀ state event, (output state event).Sublist (whole state event)) (state : State)
    (events : List Event) :
    outputs step output state events = outputs step whole state events ↔
      Along step (fun state event ↦ output state event = whole state event) state events := by
  induction events generalizing state with
  | nil => exact iff_of_true rfl trivial
  | cons event events ih =>
    have hfirst := h state event
    cases hstep : step state event with
    | none =>
      simp only [outputs, hstep, Option.elim_none, List.append_nil, Along, reduceCtorEq,
        false_implies, implies_true, and_true]
    | some next =>
      have hlater : (outputs step output next events).Sublist (outputs step whole next events) :=
        outputs_sublist h next events
      simp only [outputs, hstep, Option.elim_some, Along, Option.some.injEq, forall_eq', ← ih]
      refine ⟨fun heq ↦ ?_, fun ⟨hhead, htail⟩ ↦ by rw [hhead, htail]⟩
      have hlengths := congrArg List.length heq
      rw [List.length_append, List.length_append] at hlengths
      have hhead : output state event = whole state event := by
        apply hfirst.eq_of_length
        have hone := hfirst.length_le
        have hmore := hlater.length_le
        omega
      rw [hhead] at heq
      exact ⟨hhead, List.append_cancel_left heq⟩

/-! ## Recorded outputs -/

variable (step) in
/-- The system with what it has put out so far as a part of its state. -/
def recording {Output : Type} (output : State → Event → List Output)
    (state : State × List Output) (event : Event) : Option (State × List Output) :=
  (step state.1 event).map fun next ↦ (next, state.2 ++ output state.1 event)

/-- A property of steps that an invariant makes a condition on the outputs so far. -/
theorem along_recording_iff {Output : Type} {output : State → Event → List Output}
    {invariant : State × List Output → Prop} {allowed : Event → Prop}
    {property : State → Event → Prop} {condition : State × List Output → Event → Prop}
    (hstep : ∀ state event next, invariant state → allowed event →
      recording step output state event = some next → invariant next)
    (hiff : ∀ state event, invariant state → allowed event →
      (property state.1 event ↔ condition state event))
    {state : State × List Output} {events : List Event} (hinit : invariant state)
    (hallowed : ∀ event ∈ events, allowed event) :
    Along step property state.1 events ↔ Along (recording step output) condition state events := by
  induction events generalizing state with
  | nil => exact Iff.rfl
  | cons event events ih =>
    rw [List.forall_mem_cons] at hallowed
    refine and_congr (hiff state event hinit hallowed.1)
      ⟨fun h next hnext ↦ ?_, fun h next hnext ↦ ?_⟩
    · obtain ⟨after, hafter, rfl⟩ := Option.map_eq_some_iff.mp hnext
      exact (ih (hstep state event _ hinit hallowed.1 hnext) hallowed.2).mp (h after hafter)
    · have hrecorded : recording step output state event =
          some (next, state.2 ++ output state.1 event) :=
        Option.map_eq_some_iff.mpr ⟨next, hnext, rfl⟩
      exact (ih (hstep state event _ hinit hallowed.1 hrecorded) hallowed.2).mpr (h _ hrecorded)

/-! ## Reached states -/

variable (step) in
/-- Some run from one state to the other has the property at each of its steps. -/
def ReachesAlong (property : State → Event → Prop) (state final : State) : Prop :=
  ∃ events, run step state events = some final ∧ Along step property state events

namespace ReachesAlong

variable {property : State → Event → Prop} {state next final : State}

theorem refl (property : State → Event → Prop) (state : State) :
    ReachesAlong step property state state := ⟨[], rfl, trivial⟩

/-- One step in front of a run. -/
theorem head {event : Event} (hproperty : property state event)
    (hstep : step state event = some next) (h : ReachesAlong step property next final) :
    ReachesAlong step property state final := by
  obtain ⟨events, hrun, halong⟩ := h
  refine ⟨event :: events, ?_, hproperty, fun other hother ↦ ?_⟩
  · rw [run_cons, hstep, Option.bind_some, hrun]
  · rwa [← Option.some.inj (hstep.symm.trans hother)]

theorem trans (h : ReachesAlong step property state next)
    (h' : ReachesAlong step property next final) : ReachesAlong step property state final := by
  obtain ⟨events, hrun, halong⟩ := h
  induction events generalizing state with
  | nil => exact Option.some.inj hrun ▸ h'
  | cons event events ih =>
    obtain ⟨first, hfirst, hrest⟩ := Option.bind_eq_some_iff.mp hrun
    exact head halong.1 hfirst (ih hrest (halong.2 first hfirst))

end ReachesAlong

end NrfExamples.Trace
