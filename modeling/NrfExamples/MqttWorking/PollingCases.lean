import NrfExamples.MqttWorking.Polling
import NrfExamples.MqttWorking.Recognition

/-!
# What a polling call can do

A call whose first steps fail returns at once and keeps everything but the inbox. Otherwise it
solves the configuration and dump requests, and then leaves the network for a reset, a skip or the
alive timeout, or sends what is due and counts the automatic reset down.
-/

namespace NrfExamples.MqttWorking

open Memory Procedure

/-! ## Receiving -/

/-- The results of `poll`, `mqtt_live` and `mqtt_input` let a call go on. -/
structure PollEnv.StepsSucceed (env : PollEnv) : Prop where
  poll : ¬ env.poll < 0
  mqttLive : ¬ (env.mqttLive ≠ 0 ∧ env.mqttLive ≠ -eagain)
  mqttInput : ¬ (env.pollIn = true ∧ env.mqttInput ≠ 0)

/-- No test up to the event bits makes a call return. -/
structure PollEnv.Succeeds (env : PollEnv) : Prop extends env.StepsSucceed where
  pollErr : env.pollErr = false
  pollNval : env.pollNval = false

/-- The state and the effects behind `mqtt_input`. -/
def delivered (env : PollEnv) (unit : UnitState) : UnitState × List Effect :=
  if env.pollIn then deliver env.delivery unit else (unit, [])

variable {env : PollEnv} {unit : UnitState}

theorem receive_of_succeeds (h : env.Succeeds) :
    receive env unit = ⟨(delivered env unit).1, (delivered env unit).2, none⟩ := by
  simp [receive, h.poll, h.mqttLive, h.mqttInput, h.pollErr, h.pollNval, delivered]

/-- A failing step or a set error bit returns minus one from the inbox reached so far. -/
theorem receive_of_fails (h : ¬ env.Succeeds) (unit : UnitState) :
    receive env unit = ⟨unit, [], some .minusOne⟩ ∨
      receive env unit = ⟨(delivered env unit).1, (delivered env unit).2, some .minusOne⟩ := by
  unfold receive
  by_cases hpoll : env.poll < 0
  · exact Or.inl (if_pos hpoll)
  · rw [if_neg hpoll]
    by_cases hlive : env.mqttLive ≠ 0 ∧ env.mqttLive ≠ -eagain
    · exact Or.inl (if_pos hlive)
    · rw [if_neg hlive]
      by_cases hinput : env.pollIn = true ∧ env.mqttInput ≠ 0
      · exact Or.inr (if_pos hinput)
      · simp only [if_neg hinput]
        cases herr : env.pollErr with
        | true => exact Or.inr rfl
        | false =>
          cases hnval : env.pollNval with
          | true => exact Or.inr rfl
          | false => exact absurd ⟨⟨hpoll, hlive, hinput⟩, herr, hnval⟩ h

/-- A delivery changes the inbox alone, and its only effect is a disconnect. -/
theorem delivered_cases (env : PollEnv) (unit : UnitState) :
    ∃ inbox, (delivered env unit).1 = { unit with inbox := inbox } ∧
      ((delivered env unit).2 = [] ∨ (delivered env unit).2 = [.mqttDisconnect]) ∧
      (inbox.firstAliveFlag = unit.inbox.firstAliveFlag ∨
        inbox.flags.mqttTriggerReset = true ∧ inbox.firstAliveFlag = 0) := by
  unfold delivered
  cases env.pollIn with
  | false => exact ⟨unit.inbox, rfl, Or.inl rfl, Or.inl rfl⟩
  | true =>
    cases env.delivery with
    | none => exact ⟨unit.inbox, rfl, Or.inl rfl, Or.inl rfl⟩
    | some delivery =>
      refine ⟨(mqttEvtHandler unit.inbox delivery).1, rfl, ?_,
        firstAliveFlag_mqttEvtHandler unit.inbox delivery⟩
      simp only [if_true, deliver]
      cases (mqttEvtHandler unit.inbox delivery).2 with
      | false => exact Or.inl rfl
      | true => exact Or.inr rfl

theorem PollEnv.succeeds_receiving (message : List Byte) (send : SendEnv) :
    (PollEnv.receiving message send).Succeeds where
  poll := show ¬ (0 : ℤ) < 0 by decide
  mqttLive := fun h ↦ h.1 rfl
  mqttInput := fun h ↦ h.2 rfl
  pollErr := rfl
  pollNval := rfl

/-- The call receives a message that begins with the given command. -/
structure CommandDelivered (env : PollEnv) (command message : List Byte) : Prop where
  pollIn : env.pollIn = true
  delivery : ∃ delivery, env.delivery = some delivery ∧ delivery.Accepted ∧
    delivery.payload = message
  mem_commands : command ∈ commands
  command : command <+: message

theorem commandDelivered_receiving {command message : List Byte} (hcommand : command ∈ commands)
    (hbegin : command <+: message) (hlength : message.length ≤ mqttBufferSize) (send : SendEnv) :
    CommandDelivered (PollEnv.receiving message send) command message where
  pollIn := rfl
  delivery := ⟨Delivery.complete message, rfl, ⟨hlength, rfl⟩, rfl⟩
  mem_commands := hcommand
  command := hbegin

/-- The handler sets the flag of the command, clears the alive flag for a reset and copies a
configuration, and nothing else. -/
theorem delivered_of_command {command message : List Byte}
    (h : CommandDelivered env command message) (unit : UnitState) :
    ∃ inbox, delivered env unit = ({ unit with inbox := inbox }, []) ∧
      inbox.flags = unit.inbox.flags.union (.ofCommand command) ∧
      inbox.firstAliveFlag = (if command = rst then 0 else unit.inbox.firstAliveFlag) ∧
      inbox.cfgBuff = if command = cfg then
        unit.inbox.cfgBuff.store (unit.inbox.payloadBuf.store message message.length).1
          message.length
      else unit.inbox.cfgBuff := by
  obtain ⟨delivery, hdelivery, haccepted, rfl⟩ := h.delivery
  have hcompare (other : List Byte) (hother : other ∈ commands) :=
    compareBufferToText_of_prefix haccepted h.mem_commands h.command unit.inbox.payloadBuf hother
  have hhandled := mqttEvtHandler_of_accepted haccepted unit.inbox
  rw [handleCommand_eq, recognised_of_prefix haccepted h.mem_commands h.command,
    hcompare rst (by decide), hcompare cfg (by decide)] at hhandled
  refine ⟨(mqttEvtHandler unit.inbox delivery).1, ?_, ?_, ?_, ?_⟩
  · simp only [delivered, h.pollIn, if_true, hdelivery, deliver, hhandled]
    rfl
  · rw [hhandled]
  · rw [hhandled]
    simp only [decide_eq_true_eq]
  · rw [hhandled]
    simp only [decide_eq_true_eq]

/-! ## Commands -/

/-- The effects of the configuration and dump blocks. -/
def Effect.OfCommand : Effect → Prop
  | .eepromWrite _ _ | .logPublish _ => True
  | _ => False

/-- The two states agree on everything that the blocks behind the dump read. -/
structure Kept (unit other : UnitState) : Prop where
  reset : other.inbox.flags.mqttTriggerReset = unit.inbox.flags.mqttTriggerReset
  skip : other.inbox.flags.mqttSkipInitProcedure = unit.inbox.flags.mqttSkipInitProcedure
  alive : other.inbox.firstAliveFlag = unit.inbox.firstAliveFlag
  timeout : other.initialStageTimeoutCounter = unit.initialStageTimeoutCounter
  auto : other.autoResetCounterAfterSuccesfulMeasurement =
    unit.autoResetCounterAfterSuccesfulMeasurement
  ready : other.dataReadyToSend = unit.dataReadyToSend
  recorder : other.recorder = unit.recorder
  modemLib : other.modemLib = unit.modemLib
  cfgBuff : other.inbox.cfgBuff = unit.inbox.cfgBuff

theorem Kept.refl (unit : UnitState) : Kept unit unit :=
  ⟨rfl, rfl, rfl, rfl, rfl, rfl, rfl, rfl, rfl⟩

theorem Kept.trans {first second third : UnitState} (h : Kept first second)
    (h' : Kept second third) : Kept first third where
  reset := h'.reset.trans h.reset
  skip := h'.skip.trans h.skip
  alive := h'.alive.trans h.alive
  timeout := h'.timeout.trans h.timeout
  auto := h'.auto.trans h.auto
  ready := h'.ready.trans h.ready
  recorder := h'.recorder.trans h.recorder
  modemLib := h'.modemLib.trans h.modemLib
  cfgBuff := h'.cfgBuff.trans h.cfgBuff

/-- The block of a request that was not made. -/
theorem skip_spec (unit : UnitState) :
    (Progress.skip unit : Call).exit = none ∧ Kept unit (Progress.skip unit : Call).state ∧
      ∀ effect ∈ (Progress.skip unit : Call).effects, effect.OfCommand :=
  ⟨rfl, Kept.refl unit, fun _ heffect ↦ nomatch heffect⟩

theorem solveConfig_spec (unit : UnitState) :
    (solveConfig unit).exit = none ∧ Kept unit (solveConfig unit).state ∧
      ∀ effect ∈ (solveConfig unit).effects, effect.OfCommand := by
  unfold solveConfig
  cases unit.inbox.flags.configRequestFlag with
  | false => exact skip_spec unit
  | true =>
    refine ⟨rfl, ⟨rfl, rfl, rfl, rfl, rfl, rfl, rfl, rfl, rfl⟩, ?_⟩
    simp only [if_true, configWrites]
    split <;> simp [Effect.OfCommand]

theorem ofCommand_dumpChunks (logRam : List Byte) (buf : Buffer 64) :
    ∀ effect ∈ (dumpChunks logRam buf).2, effect.OfCommand := by
  induction logRam, buf using dumpChunks.induct with
  | case1 logRam buf hne stored ih =>
    rw [dumpChunks, if_pos hne]
    intro effect heffect
    cases List.mem_cons.mp heffect with
    | inl hfirst =>
      rw [hfirst]
      trivial
    | inr hrest => exact ih effect hrest
  | case2 logRam buf hnil =>
    rw [dumpChunks, if_neg hnil]
    intro effect heffect
    cases heffect

theorem dumpLog_spec (unit : UnitState) :
    (dumpLog unit).exit = none ∧ Kept unit (dumpLog unit).state ∧
      (dumpLog unit).state.settings = unit.settings ∧
      ∀ effect ∈ (dumpLog unit).effects, effect.OfCommand := by
  unfold dumpLog
  cases unit.inbox.flags.dumpLogFlag with
  | false => exact ⟨rfl, Kept.refl unit, rfl, (skip_spec unit).2.2⟩
  | true =>
    exact ⟨rfl, ⟨rfl, rfl, rfl, rfl, rfl, rfl, rfl, rfl, rfl⟩, rfl, ofCommand_dumpChunks _ _⟩

/-! ## The blocks behind the commands -/

/-- The procedure from the reset block on. -/
def afterCommands (env : PollEnv) (unit : UnitState) : Call :=
  (triggerReset unit).andThen fun unit ↦
  (skipInit unit).andThen fun unit ↦
  (aliveTimeout unit).andThen fun unit ↦
  (sendAlive unit).andThen fun unit ↦
  (sendData env.send unit).andThen autoReset

/-- A call that passes the event bits solves its commands and goes on behind them. -/
theorem mqttPoolingProcedure_of_succeeds (h : env.Succeeds) (unit : UnitState) :
    ∃ other effects, Kept (delivered env unit).1 other ∧
      other.settings = (solveConfig (delivered env unit).1).state.settings ∧
      (∀ effect ∈ effects, effect.OfCommand) ∧
      mqttPoolingProcedure env unit =
        { afterCommands env other with effects :=
          (delivered env unit).2 ++ (effects ++ (afterCommands env other).effects) } := by
  have hreceive : (receive env unit).exit = none := by rw [receive_of_succeeds h]
  have hconfig := solveConfig_spec (delivered env unit).1
  have hdump := dumpLog_spec (solveConfig (delivered env unit).1).state
  refine ⟨_, (solveConfig (delivered env unit).1).effects ++
    (dumpLog (solveConfig (delivered env unit).1).state).effects, hconfig.2.1.trans hdump.2.1,
    hdump.2.2.1, ?_, ?_⟩
  · intro effect heffect
    cases List.mem_append.mp heffect with
    | inl hfirst => exact hconfig.2.2 effect hfirst
    | inr hsecond => exact hdump.2.2.2 effect hsecond
  · rw [mqttPoolingProcedure, Progress.andThen_of_continues hreceive, receive_of_succeeds h,
      Progress.andThen_of_continues hconfig.1, Progress.andThen_of_continues hdump.1,
      List.append_assoc]
    rfl

/-- A call that does not pass them returns minus one, with nothing but the inbox changed. -/
theorem mqttPoolingProcedure_of_fails (h : ¬ env.Succeeds) (unit : UnitState) :
    ∃ inbox effects, (effects = [] ∨ effects = [.mqttDisconnect]) ∧
      (inbox.firstAliveFlag = unit.inbox.firstAliveFlag ∨ inbox.firstAliveFlag = 0) ∧
      mqttPoolingProcedure env unit = ⟨{ unit with inbox := inbox }, effects, some .minusOne⟩ := by
  rcases delivered_cases env unit with ⟨inbox, hinbox, heffects, halive⟩
  cases receive_of_fails h unit with
  | inl hfirst =>
    refine ⟨unit.inbox, [], Or.inl rfl, Or.inl rfl, ?_⟩
    rw [mqttPoolingProcedure, hfirst]
    exact Progress.andThen_of_returned rfl
  | inr hlater =>
    refine ⟨inbox, _, heffects, halive.imp_right And.right, ?_⟩
    rw [mqttPoolingProcedure, hlater, ← hinbox]
    exact Progress.andThen_of_returned rfl

theorem afterCommands_of_reset (env : PollEnv) (h : unit.inbox.flags.mqttTriggerReset = true) :
    afterCommands env unit = leaveNetwork .reboot { unit with
      inbox := { unit.inbox with
        flags := { unit.inbox.flags with mqttTriggerReset := false } } } := by
  rw [afterCommands, triggerReset, if_pos h]
  exact Progress.andThen_of_returned rfl

theorem triggerReset_of_clear (h : unit.inbox.flags.mqttTriggerReset = false) :
    triggerReset unit = .skip unit := by
  simp [triggerReset, h]

theorem afterCommands_of_skip (env : PollEnv) (hreset : unit.inbox.flags.mqttTriggerReset = false)
    (h : unit.inbox.flags.mqttSkipInitProcedure = true) :
    afterCommands env unit = leaveNetwork .minusOne { unit with
      inbox := { unit.inbox with
        flags := { unit.inbox.flags with mqttSkipInitProcedure := false } } } := by
  rw [afterCommands, triggerReset_of_clear hreset, Progress.skip_andThen, skipInit, if_pos h]
  exact Progress.andThen_of_returned rfl

theorem skipInit_of_clear (h : unit.inbox.flags.mqttSkipInitProcedure = false) :
    skipInit unit = .skip unit := by
  simp [skipInit, h]

/-- The blocks from the alive message on. -/
def sendAndCount (env : PollEnv) (unit : UnitState) : Call :=
  (sendAlive unit).andThen fun unit ↦ (sendData env.send unit).andThen autoReset

theorem afterCommands_of_clear (env : PollEnv)
    (hreset : unit.inbox.flags.mqttTriggerReset = false)
    (hskip : unit.inbox.flags.mqttSkipInitProcedure = false) :
    afterCommands env unit = (aliveTimeout unit).andThen (sendAndCount env) := by
  rw [afterCommands, triggerReset_of_clear hreset, Progress.skip_andThen, skipInit_of_clear hskip,
    Progress.skip_andThen]
  rfl

theorem aliveTimeout_of_ne (h : unit.inbox.firstAliveFlag ≠ 2) :
    aliveTimeout unit = .skip unit :=
  if_neg h

theorem aliveTimeout_of_eq (h : unit.inbox.firstAliveFlag = 2) :
    aliveTimeout unit =
      if unit.initialStageTimeoutCounter + 1 = 2 then
        leaveNetwork .minusOne
          { unit with initialStageTimeoutCounter := unit.initialStageTimeoutCounter + 1 }
      else .skip { unit with initialStageTimeoutCounter := unit.initialStageTimeoutCounter + 1 } :=
  if_pos h

/-- A turn of the timeout counter that does not leave. -/
structure CounterPasses (unit : UnitState) (counter : UInt32) : Prop where
  alive : unit.inbox.firstAliveFlag = 2 →
    counter = unit.initialStageTimeoutCounter + 1 ∧ counter ≠ 2
  other : unit.inbox.firstAliveFlag ≠ 2 → counter = unit.initialStageTimeoutCounter

/-- Behind the commands a call leaves the network, for a reset, a skip or the alive timeout, or it
sends and counts. -/
theorem afterCommands_cases (env : PollEnv) (unit : UnitState) :
    (∃ exit inbox counter, inbox.firstAliveFlag = unit.inbox.firstAliveFlag ∧
      (unit.inbox.flags.mqttTriggerReset = true ∨ unit.inbox.flags.mqttSkipInitProcedure = true ∨
        unit.inbox.firstAliveFlag = 2) ∧
      afterCommands env unit = leaveNetwork exit
        { unit with inbox := inbox, initialStageTimeoutCounter := counter }) ∨
    unit.inbox.flags.mqttTriggerReset = false ∧ unit.inbox.flags.mqttSkipInitProcedure = false ∧
      ∃ counter, CounterPasses unit counter ∧
        afterCommands env unit =
          sendAndCount env { unit with initialStageTimeoutCounter := counter } := by
  cases hreset : unit.inbox.flags.mqttTriggerReset with
  | true =>
    refine Or.inl ⟨.reboot, { unit.inbox with
      flags := { unit.inbox.flags with mqttTriggerReset := false } },
      unit.initialStageTimeoutCounter, rfl, Or.inl rfl, ?_⟩
    exact afterCommands_of_reset env hreset
  | false =>
    cases hskip : unit.inbox.flags.mqttSkipInitProcedure with
    | true =>
      refine Or.inl ⟨.minusOne, { unit.inbox with
        flags := { unit.inbox.flags with mqttSkipInitProcedure := false } },
        unit.initialStageTimeoutCounter, rfl, Or.inr (Or.inl rfl), ?_⟩
      exact afterCommands_of_skip env hreset hskip
    | false =>
      rw [afterCommands_of_clear env hreset hskip]
      by_cases halive : unit.inbox.firstAliveFlag = 2
      · rw [aliveTimeout_of_eq halive]
        by_cases hcounter : unit.initialStageTimeoutCounter + 1 = 2
        · rw [if_pos hcounter]
          exact Or.inl ⟨.minusOne, unit.inbox, unit.initialStageTimeoutCounter + 1, rfl,
            Or.inr (Or.inr halive), rfl⟩
        · rw [if_neg hcounter]
          exact Or.inr ⟨rfl, rfl, unit.initialStageTimeoutCounter + 1,
            ⟨fun _ ↦ ⟨rfl, hcounter⟩, fun hne ↦ absurd halive hne⟩, rfl⟩
      · rw [aliveTimeout_of_ne halive]
        exact Or.inr ⟨rfl, rfl, unit.initialStageTimeoutCounter,
          ⟨fun heq ↦ absurd heq halive, fun _ ↦ rfl⟩, rfl⟩

/-! ## Sending and counting -/

/-- The state behind the alive message. -/
def aliveSent (unit : UnitState) : UnitState :=
  { unit with
    inbox := { unit.inbox with
      firstAliveFlag := if unit.inbox.firstAliveFlag = 1 then 2 else unit.inbox.firstAliveFlag } }

/-- The state behind the transmission. -/
def dataSent (env : PollEnv) (unit : UnitState) : UnitState := (sendData env.send unit).state

theorem sendAlive_eq (unit : UnitState) :
    sendAlive unit = ⟨aliveSent unit,
      if unit.inbox.firstAliveFlag = 1 then [.alivePublish] else [], none⟩ := by
  unfold sendAlive aliveSent
  by_cases h : unit.inbox.firstAliveFlag = 1
  · simp only [if_pos h]
  · simp only [if_neg h]
    rfl

theorem exit_sendData (send : SendEnv) (unit : UnitState) : (sendData send unit).exit = none := by
  unfold sendData
  split <;> rfl

theorem sendAndCount_eq (env : PollEnv) (unit : UnitState) :
    sendAndCount env unit =
      { autoReset (dataSent env (aliveSent unit)) with
        effects := (sendAlive unit).effects ++ ((sendData env.send (aliveSent unit)).effects ++
          (autoReset (dataSent env (aliveSent unit))).effects) } := by
  have halive : (sendAlive unit).exit = none := by rw [sendAlive_eq]
  have hstate : (sendAlive unit).state = aliveSent unit := by rw [sendAlive_eq]
  rw [sendAndCount, Progress.andThen_of_continues halive, hstate,
    Progress.andThen_of_continues (exit_sendData env.send _)]
  rfl

/-- The automatic reset counts down, and leaves at zero. -/
theorem autoReset_of_pos (h : unit.autoResetCounterAfterSuccesfulMeasurement > 0) :
    autoReset unit =
      if unit.autoResetCounterAfterSuccesfulMeasurement - 1 = 0 then
        leaveNetwork .reboot { unit with
          autoResetCounterAfterSuccesfulMeasurement :=
            unit.autoResetCounterAfterSuccesfulMeasurement - 1 }
      else .skip { unit with
        autoResetCounterAfterSuccesfulMeasurement :=
          unit.autoResetCounterAfterSuccesfulMeasurement - 1 } :=
  if_pos h

theorem autoReset_of_zero (h : ¬ unit.autoResetCounterAfterSuccesfulMeasurement > 0) :
    autoReset unit = .skip unit :=
  if_neg h

end NrfExamples.MqttWorking
