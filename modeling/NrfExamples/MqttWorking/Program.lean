import NrfExamples.Library.Trace
import NrfExamples.MqttWorking.PollingCases
import NrfExamples.MqttWorking.Recorded

/-!
# The program

`main` from boot to the final reboot: the modem is initialised, the remote configuration loop
polls until a call returns minus one, the unit measures until a recording is complete, the modem is
initialised again, and the data loop polls until the unit reboots. `sys_reboot` ends a run.
-/

namespace NrfExamples.MqttWorking

open Memory Procedure Measurement

inductive Stage where
  | boot
  | remoteConfig
  | measuring
  | secondInit
  | dataStage
  | ended
deriving DecidableEq

structure Program where
  stage : Stage
  unit : UnitState

inductive Event where
  /-- `init_modem_and_mqtt`, with the result that `nrf_modem_lib_init` gives an uninitialised
  library. -/
  | initModem (libInit : ℤ)
  | poll (env : PollEnv)
  /-- The trigger loop and the recording loop over the frames. -/
  | measure (now : UInt32) (frames : List Processed)

namespace Program

def boot (settings : Settings) (psram : Store) (logRam : List Byte) : Program :=
  ⟨.boot, UnitState.boot settings psram logRam⟩

/-- What `init_modem_and_mqtt` does to the modem library. An initialised library refuses. -/
def initModemAndMqtt (libInit : ℤ) (unit : UnitState) : UnitState :=
  if unit.modemLib then unit else { unit with modemLib := decide (libInit = 0) }

/-- The assignments behind a complete recording. -/
def dataReady (recorder : Recorder) (unit : UnitState) : UnitState :=
  { unit with
    recorder := recorder
    dataReadyToSend := true
    inbox := { unit.inbox with firstAliveFlag := 0 } }

def step (program : Program) (event : Event) : Option Program :=
  match program.stage, event with
  | .boot, .initModem libInit => some ⟨.remoteConfig, initModemAndMqtt libInit program.unit⟩
  | .remoteConfig, .poll env =>
      let call := mqttPoolingProcedure env program.unit
      match call.exit with
      | none => some ⟨.remoteConfig, call.state⟩
      | some .minusOne => some ⟨.measuring, call.state⟩
      | some .reboot => some ⟨.ended, call.state⟩
  | .measuring, .measure now frames =>
      let measured :=
        (Measurement.start program.unit.recorder).run program.unit.settings now frames
      if measured.phase = .finished then
        some ⟨.secondInit, dataReady measured.recorder program.unit⟩
      else none
  | .secondInit, .initModem libInit =>
      some ⟨.dataStage,
        { initModemAndMqtt libInit program.unit with
          autoResetCounterAfterSuccesfulMeasurement := 6 }⟩
  | .dataStage, .poll env =>
      let call := mqttPoolingProcedure env program.unit
      match call.exit with
      | none => some ⟨.dataStage, call.state⟩
      | some _ => some ⟨.ended, call.state⟩
  | _, _ => none

variable {program next : Program}

/-- One frame that fires the trigger and one that ends the recording. -/
def shortMeasurement : Event := .measure 0 [unitFrame, unitFrame]

theorem step_shortMeasurement (unit : UnitState) {bme280 : UInt16}
    (hsettings : unit.settings = ⟨0, 2, 0, bme280⟩) :
    ∃ recorder, step ⟨.measuring, unit⟩ shortMeasurement =
      some ⟨.secondInit, dataReady recorder unit⟩ := by
  have hcompletes : Completes unit.settings 0 unit.recorder [unitFrame] [unitFrame] := by
    rw [hsettings]
    exact completes_unitFrame unit.recorder
  exact ⟨_, if_pos hcompletes.ends⟩

/-- The run to the data stage whose remote configuration stage consists of one call. -/
def shortRun (env : PollEnv) : List Event :=
  [.initModem 0, .poll env, shortMeasurement, .initModem 0]

/-- The unit behind the first modem initialisation, with thresholds that a short measurement
passes. -/
def configUnit : UnitState :=
  initModemAndMqtt 0 (UnitState.boot ⟨0, 2, 0, 0⟩ (fun _ ↦ 0) [])

/-- The recorder behind the short measurement. -/
def shortRecorder : Recorder :=
  ((Measurement.start configUnit.recorder).run configUnit.settings 0
    ([unitFrame] ++ [unitFrame])).recorder

theorem recorded_shortRecorder : Recorded shortRecorder [unitFrame] [unitFrame] :=
  (completes_unitFrame configUnit.recorder).finishedAfter.recorded

/-- The data stage behind a first stage that left the given inbox. -/
def dataStageWith (inbox : Inbox) : Program :=
  ⟨.dataStage, { dataReady shortRecorder { configUnit with inbox := inbox } with
    autoResetCounterAfterSuccesfulMeasurement := 6 }⟩

theorem recorder_dataStageWith (inbox : Inbox) :
    (dataStageWith inbox).unit.recorder = shortRecorder := by
  simp only [dataStageWith, dataReady]

/-- A call that returns minus one with nothing but the inbox changed leads to the data stage. -/
theorem run_shortRun {env : PollEnv} {inbox : Inbox} {effects : List Effect}
    (hcall : mqttPoolingProcedure env configUnit =
      ⟨{ configUnit with inbox := inbox }, effects, some .minusOne⟩) :
    Trace.run step (boot ⟨0, 2, 0, 0⟩ (fun _ ↦ 0) []) (shortRun env) =
      some (dataStageWith inbox) := by
  have hpoll : step ⟨.remoteConfig, configUnit⟩ (.poll env) =
      some ⟨.measuring, { configUnit with inbox := inbox }⟩ := by
    simp only [step, hcall]
  calc
    Trace.run step (boot ⟨0, 2, 0, 0⟩ (fun _ ↦ 0) []) (shortRun env) =
        (step ⟨.remoteConfig, configUnit⟩ (.poll env)).bind
          (Trace.run step · [shortMeasurement, .initModem 0]) := rfl
    _ = some (dataStageWith inbox) := by
      rw [hpoll]
      rfl

/-- The outcomes of a call whose `poll` fails. -/
def failingPoll : PollEnv := { PollEnv.quiet (workingEnv fun _ ↦ 0) with poll := -1 }

/-- A modem initialisation runs at boot and behind the measurement. -/
theorem step_initModem {libInit : ℤ} (h : step program (.initModem libInit) = some next) :
    program.stage = .boot ∧ next = ⟨.remoteConfig, initModemAndMqtt libInit program.unit⟩ ∨
      program.stage = .secondInit ∧ next = ⟨.dataStage,
        { initModemAndMqtt libInit program.unit with
          autoResetCounterAfterSuccesfulMeasurement := 6 }⟩ := by
  cases hstage : program.stage with
  | boot =>
    simp only [step, hstage] at h
    exact Or.inl ⟨rfl, (Option.some.inj h).symm⟩
  | secondInit =>
    simp only [step, hstage] at h
    exact Or.inr ⟨rfl, (Option.some.inj h).symm⟩
  | remoteConfig | measuring | dataStage | ended => simp [step, hstage] at h

/-- A polling call runs in one of the two polling stages, and its state is kept. -/
theorem step_poll {env : PollEnv} (h : step program (.poll env) = some next) :
    (program.stage = .remoteConfig ∨ program.stage = .dataStage) ∧
      next.unit = (mqttPoolingProcedure env program.unit).state ∧
      (next.stage = program.stage ∨ next.stage = .ended ∨
        program.stage = .remoteConfig ∧ next.stage = .measuring ∧
          (mqttPoolingProcedure env program.unit).exit = some .minusOne) := by
  cases hstage : program.stage with
  | remoteConfig =>
    simp only [step, hstage] at h
    cases hexit : (mqttPoolingProcedure env program.unit).exit with
    | none =>
      simp only [hexit] at h
      rw [← Option.some.inj h]
      exact ⟨Or.inl rfl, rfl, Or.inl rfl⟩
    | some exit =>
      cases exit with
      | minusOne =>
        simp only [hexit] at h
        rw [← Option.some.inj h]
        exact ⟨Or.inl rfl, rfl, Or.inr (Or.inr ⟨rfl, rfl, rfl⟩)⟩
      | reboot =>
        simp only [hexit] at h
        rw [← Option.some.inj h]
        exact ⟨Or.inl rfl, rfl, Or.inr (Or.inl rfl)⟩
  | dataStage =>
    simp only [step, hstage] at h
    cases hexit : (mqttPoolingProcedure env program.unit).exit with
    | none =>
      simp only [hexit] at h
      rw [← Option.some.inj h]
      exact ⟨Or.inr rfl, rfl, Or.inl rfl⟩
    | some exit =>
      simp only [hexit] at h
      rw [← Option.some.inj h]
      exact ⟨Or.inr rfl, rfl, Or.inr (Or.inl rfl)⟩
  | boot | measuring | secondInit | ended => simp [step, hstage] at h

/-- A call that returns one stays in the remote configuration stage. -/
theorem step_remoteConfig_continues {env : PollEnv} {unit : UnitState}
    (h : (mqttPoolingProcedure env unit).exit = none) :
    step ⟨.remoteConfig, unit⟩ (.poll env) =
      some ⟨.remoteConfig, (mqttPoolingProcedure env unit).state⟩ := by
  simp only [step, h]

/-- A measurement ends with a finished recording that is ready to be sent. -/
theorem step_measure {now : UInt32} {frames : List Processed}
    (h : step program (.measure now frames) = some next) :
    program.stage = .measuring ∧ ∃ recorder,
      next = ⟨.secondInit, dataReady recorder program.unit⟩ := by
  cases hstage : program.stage with
  | measuring =>
    simp only [step, hstage] at h
    split at h
    · exact ⟨rfl, _, (Option.some.inj h).symm⟩
    · cases h
  | boot | remoteConfig | secondInit | dataStage | ended => simp [step, hstage] at h

end Program

end NrfExamples.MqttWorking
