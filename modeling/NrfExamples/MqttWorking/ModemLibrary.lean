import NrfExamples.MqttWorking.Program

/-!
# Typestate of the modem library

The modem library must be uninitialised when `nrf_modem_lib_init` is called. A polling call shuts
it down when it leaves through a command, a timeout or the automatic reset. A call that returns
minus one because a step failed or an error bit was set does not, so the initialisation behind the
measurement may find the library still initialised.
-/

namespace NrfExamples.MqttWorking

open Procedure

/-! ## Exits of a polling call -/

variable {env : PollEnv} {unit : UnitState}

theorem modemLib_autoReset (h : (autoReset unit).exit ≠ none) :
    (autoReset unit).state.modemLib = false := by
  by_cases hpos : unit.autoResetCounterAfterSuccesfulMeasurement > 0
  · rw [autoReset_of_pos hpos] at h ⊢
    by_cases hzero : unit.autoResetCounterAfterSuccesfulMeasurement - 1 = 0
    · rw [if_pos hzero]
      rfl
    · rw [if_neg hzero] at h
      exact absurd rfl h
  · rw [autoReset_of_zero hpos] at h
    exact absurd rfl h

theorem modemLib_sendAndCount (h : (sendAndCount env unit).exit ≠ none) :
    (sendAndCount env unit).state.modemLib = false := by
  rw [sendAndCount_eq] at h ⊢
  exact modemLib_autoReset h

/-- Every exit behind the commands shuts the library down. -/
theorem modemLib_afterCommands (h : (afterCommands env unit).exit ≠ none) :
    (afterCommands env unit).state.modemLib = false := by
  rcases afterCommands_cases env unit with
    ⟨exit, inbox, counter, _, _, heq⟩ | ⟨_, _, counter, _, heq⟩
  · rw [heq]
    rfl
  · rw [heq] at h ⊢
    exact modemLib_sendAndCount h

/-- A call whose steps succeed shuts the library down when it exits. -/
theorem modemLib_of_succeeds (hsucceeds : env.Succeeds)
    (h : (mqttPoolingProcedure env unit).exit ≠ none) :
    (mqttPoolingProcedure env unit).state.modemLib = false := by
  rcases mqttPoolingProcedure_of_succeeds hsucceeds unit with ⟨other, effects, _, _, _, hcall⟩
  rw [hcall] at h ⊢
  exact modemLib_afterCommands h

/-- A call that fails leaves the library as it is. -/
theorem modemLib_of_fails (hfails : ¬ env.Succeeds) (unit : UnitState) :
    (mqttPoolingProcedure env unit).state.modemLib = unit.modemLib := by
  rcases mqttPoolingProcedure_of_fails hfails unit with ⟨inbox, effects, _, _, hcall⟩
  rw [hcall]

namespace Program

/-! ## Runs -/

/-- A step that initialises the library finds it uninitialised. -/
def InitialisesOnce (program : Program) (event : Event) : Prop :=
  ∀ libInit next, event = .initModem libInit → step program event = some next →
    program.unit.modemLib = false

/-- A polling call of the first stage with an initialised library does not return because of a
failed step or an error bit. -/
def FirstStageSucceeds (program : Program) (event : Event) : Prop :=
  ∀ env, event = .poll env → program.stage = .remoteConfig → program.unit.modemLib = true →
    env.Succeeds

/-- The stages whose next step initialises the library or leads to one that does. -/
def expectsDown : Stage → Bool
  | .boot | .measuring | .secondInit => true
  | .remoteConfig | .dataStage | .ended => false

/-- The library is uninitialised where that is expected. -/
def LibraryDown (program : Program) : Prop :=
  expectsDown program.stage = true → program.unit.modemLib = false

theorem libraryDown_poll {program next : Program} {env : PollEnv}
    (hsucceeds : FirstStageSucceeds program (.poll env))
    (hstep : step program (.poll env) = some next) : LibraryDown next := by
  have hpoll := step_poll hstep
  intro hstage
  rcases hpoll.2.2 with hsame | hended | ⟨hfirst, _, hexit⟩
  · rw [hsame] at hstage
    cases hpoll.1 with
    | inl hconfig =>
      rw [hconfig] at hstage
      cases hstage
    | inr hdata =>
      rw [hdata] at hstage
      cases hstage
  · rw [hended] at hstage
    cases hstage
  · have hexits : (mqttPoolingProcedure env program.unit).exit ≠ none := by
      rw [hexit]
      exact Option.some_ne_none _
    rw [hpoll.2.1]
    -- The loop is left by a call that shut the library down, or by one that failed without it.
    by_cases henv : env.Succeeds
    · exact modemLib_of_succeeds henv hexits
    · rw [modemLib_of_fails henv]
      exact Bool.eq_false_iff.mpr fun hlib ↦ henv (hsucceeds env rfl hfirst hlib)

theorem libraryDown_step (program : Program) (event : Event) (next : Program)
    (hdown : LibraryDown program) (hsucceeds : FirstStageSucceeds program event)
    (hstep : step program event = some next) : LibraryDown next := by
  cases event with
  | initModem libInit =>
    intro hstage
    cases step_initModem hstep with
    | inl hboot =>
      rw [hboot.2] at hstage
      cases hstage
    | inr hsecond =>
      rw [hsecond.2] at hstage
      cases hstage
  | poll env => exact libraryDown_poll hsucceeds hstep
  | measure now frames =>
    have hmeasure := step_measure hstep
    have hlib : program.unit.modemLib = false := hdown (by rw [hmeasure.1]; rfl)
    obtain ⟨recorder, hnext⟩ := hmeasure.2
    intro _
    rw [hnext]
    exact hlib

theorem initialisesOnce_of_down (program : Program) (event : Event) (hdown : LibraryDown program) :
    InitialisesOnce program event := by
  intro libInit next hevent hstep
  subst hevent
  apply hdown
  cases step_initModem hstep with
  | inl hboot =>
    rw [hboot.1]
    rfl
  | inr hsecond =>
    rw [hsecond.1]
    rfl

/-- In every run whose first stage does not return early with an initialised library,
`nrf_modem_lib_init` is only called on an uninitialised library. -/
theorem initialisesOnce_along (settings : Settings) (psram : Memory.Store)
    (logRam : List Memory.Byte) (events : List Event)
    (h : Trace.Along step FirstStageSucceeds (boot settings psram logRam) events) :
    Trace.Along step InitialisesOnce (boot settings psram logRam) events :=
  Trace.along_of_along libraryDown_step
    (fun program event hdown _ ↦ initialisesOnce_of_down program event hdown)
    (fun _ ↦ rfl) h

/-- The condition is exact: a call of the first stage that fails with an initialised library lets
the initialisation behind the measurement find it initialised. -/
theorem not_initialisesOnce_of_fails {program measured : Program} {env : PollEnv} {now : UInt32}
    {frames : List Processed} (hstage : program.stage = .remoteConfig)
    (hlib : program.unit.modemLib = true) (hfails : ¬ env.Succeeds)
    (hmeasured : step ⟨.measuring, (mqttPoolingProcedure env program.unit).state⟩
      (.measure now frames) = some measured) (libInit : ℤ) :
    ¬ Trace.Along step InitialisesOnce program
      [.poll env, .measure now frames, .initModem libInit] := by
  intro halong
  have hpoll : step program (.poll env) =
      some ⟨.measuring, (mqttPoolingProcedure env program.unit).state⟩ := by
    rcases mqttPoolingProcedure_of_fails hfails program.unit with ⟨inbox, effects, _, _, hcall⟩
    simp only [step, hstage, hcall]
  obtain ⟨recorder, hnext⟩ := (step_measure hmeasured).2
  have hup : measured.unit.modemLib = true := calc
    measured.unit.modemLib = (mqttPoolingProcedure env program.unit).state.modemLib := by
      rw [hnext]
      rfl
    _ = program.unit.modemLib := modemLib_of_fails hfails program.unit
    _ = true := hlib
  have hdown : measured.unit.modemLib = false :=
    ((halong.2 _ hpoll).2 _ hmeasured).1 libInit _ rfl (by rw [hnext]; rfl)
  exact absurd (hup.symm.trans hdown) (by decide)

/-- A call that receives a skip request with no request pending leaves the first stage. -/
theorem exit_of_skipRequest {unit : UnitState} (hflags : unit.inbox.flags = CommandFlags.clear)
    (send : SendEnv) :
    (mqttPoolingProcedure (PollEnv.receiving skp send) unit).exit = some .minusOne ∧
      (mqttPoolingProcedure (PollEnv.receiving skp send) unit).state.settings = unit.settings := by
  obtain ⟨inbox, hinbox, hset, _, _⟩ := delivered_of_command
    (commandDelivered_receiving (by decide) (List.prefix_refl skp) (by decide) send) unit
  obtain ⟨other, effects, hkept, hsettings, _, hcall⟩ :=
    mqttPoolingProcedure_of_succeeds (PollEnv.succeeds_receiving skp send) unit
  rw [hflags] at hset
  rw [hinbox] at hkept hsettings
  have hreset : other.inbox.flags.mqttTriggerReset = false := by
    rw [hkept.reset, hset]
    decide
  have hskip : other.inbox.flags.mqttSkipInitProcedure = true := by
    rw [hkept.skip, hset]
    decide
  have hconfig : inbox.flags.configRequestFlag = false := by
    rw [hset]
    decide
  have hsame : other.settings = unit.settings := by
    rw [hsettings, solveConfig, hconfig, if_neg Bool.false_ne_true]
    rfl
  rw [hcall, afterCommands_of_skip _ hreset hskip]
  exact ⟨rfl, hsame⟩

def receivingSkip : PollEnv := PollEnv.receiving skp (workingEnv fun _ ↦ 0)

theorem step_receivingSkip {unit : UnitState} (hflags : unit.inbox.flags = CommandFlags.clear) :
    ∃ next : UnitState, step ⟨.remoteConfig, unit⟩ (.poll receivingSkip) =
      some ⟨.measuring, next⟩ ∧ next.settings = unit.settings := by
  obtain ⟨hexit, hsettings⟩ := exit_of_skipRequest hflags (workingEnv fun _ ↦ 0)
  refine ⟨_, ?_, hsettings⟩
  simp only [step, receivingSkip, hexit]

/-- A skip request ends the first stage, and the run reaches the second initialisation. -/
theorem initialisesOnce_along_skip :
    (Trace.run step (boot ⟨0, 2, 0, 0⟩ (fun _ ↦ 0) []) (shortRun receivingSkip)).isSome = true ∧
      Trace.Along step InitialisesOnce (boot ⟨0, 2, 0, 0⟩ (fun _ ↦ 0) [])
        (shortRun receivingSkip) := by
  have hbooted : step (boot ⟨0, 2, 0, 0⟩ (fun _ ↦ 0) []) (.initModem 0) =
      some ⟨.remoteConfig, configUnit⟩ := rfl
  have hflags : configUnit.inbox.flags = CommandFlags.clear := rfl
  have hthresholds : configUnit.settings = ⟨0, 2, 0, 0⟩ := rfl
  obtain ⟨unit, hskipped, hsettings⟩ := step_receivingSkip hflags
  obtain ⟨recorder, hmeasured⟩ := step_shortMeasurement unit (hsettings.trans hthresholds)
  have hother (event : Event) (program : Program) (hnot : ∀ env, event ≠ .poll env) :
      FirstStageSucceeds program event := fun env hevent ↦ absurd hevent (hnot env)
  constructor
  · rw [shortRun, Trace.run_cons, hbooted, Option.bind_some, Trace.run_cons, hskipped,
      Option.bind_some, Trace.run_cons, hmeasured]
    rfl
  · apply initialisesOnce_along
    refine ⟨?_, fun _ _ ↦ ⟨?_, fun _ _ ↦ ⟨?_, fun _ _ ↦ ⟨?_, fun _ _ ↦ trivial⟩⟩⟩⟩
    · exact hother _ _ fun _ ↦ Event.noConfusion
    · intro env hevent _ _
      cases hevent
      exact PollEnv.succeeds_receiving _ _
    · exact hother _ _ fun _ ↦ Event.noConfusion
    · exact hother _ _ fun _ ↦ Event.noConfusion

/-- When a failing `poll` ends the first stage, the second initialisation finds the library
initialised. -/
theorem initialises_twice :
    (Trace.run step (boot ⟨0, 2, 0, 0⟩ (fun _ ↦ 0) []) (shortRun failingPoll)).isSome = true ∧
      ¬ Trace.Along step InitialisesOnce (boot ⟨0, 2, 0, 0⟩ (fun _ ↦ 0) [])
        (shortRun failingPoll) := by
  refine ⟨rfl, fun halong ↦ ?_⟩
  have hsecond := (((halong.2 _ rfl).2 _ rfl).2 _ rfl).1 0 _ rfl rfl
  cases hsecond

end Program

end NrfExamples.MqttWorking
