import NrfExamples.MqttWorking.Program
import NrfExamples.MqttWorking.Transmission

/-!
# A recording that waits to be sent

The transmission is the last but one block of a polling call. The blocks in front of it that leave
the network, for a reset or a skip, leave it without the transmission. The flag of the pending
recording is cleared in front of the transmission and the ring flag within its first packet, so a
transmission that fails leaves neither.
-/

namespace NrfExamples.MqttWorking

open Procedure

variable {env : PollEnv} {unit : UnitState}

/-! ## The blocks that send -/

/-- The automatic reset changes no data. -/
theorem autoReset_data (unit : UnitState) :
    (autoReset unit).state.dataReadyToSend = unit.dataReadyToSend ∧
      (autoReset unit).state.recorder = unit.recorder := by
  by_cases hpos : unit.autoResetCounterAfterSuccesfulMeasurement > 0
  · rw [autoReset_of_pos hpos]
    split <;> exact ⟨rfl, rfl⟩
  · rw [autoReset_of_zero hpos]
    exact ⟨rfl, rfl⟩

/-- Behind the transmission no recording is pending. -/
theorem dataReadyToSend_sendAndCount (env : PollEnv) (unit : UnitState) :
    (sendAndCount env unit).state.dataReadyToSend = false := by
  rw [sendAndCount_eq]
  simp only [(autoReset_data _).1, dataSent, sendData]
  cases hready : (aliveSent unit).dataReadyToSend with
  | true => rfl
  | false => exact hready

/-- A pending recording is sent from the recorder as it is. -/
theorem recorder_sendAndCount (hready : unit.dataReadyToSend = true) :
    (sendAndCount env unit).state.recorder =
      (sendMeasuredTrainDataWithMultiplePacketsFromFlash env.send unit.recorder).recorder := by
  have hsent : (aliveSent unit).dataReadyToSend = true := hready
  rw [sendAndCount_eq]
  simp only [(autoReset_data _).2, dataSent, sendData, hsent, if_true]
  rfl

theorem effects_sendAndCount (env : PollEnv) (unit : UnitState)
    (halive : unit.inbox.firstAliveFlag ≠ 1) (hready : unit.dataReadyToSend = true) :
    ∃ published after, (sendAndCount env unit).effects =
      .telemetry :: .transmission published :: after := by
  have hsent : (aliveSent unit).dataReadyToSend = true := hready
  refine ⟨(sendMeasuredTrainDataWithMultiplePacketsFromFlash env.send unit.recorder).published,
    (autoReset (dataSent env (aliveSent unit))).effects, ?_⟩
  rw [sendAndCount_eq, sendAlive_eq, if_neg halive, sendData, if_pos hsent]
  rfl

/-! ## Sending first -/

/-- A transmission is among the effects, and no disconnect comes before it. A reboot and the return
come behind all effects. -/
def SentFirst (effects : List Effect) : Prop :=
  ∃ before published after, effects = before ++ .transmission published :: after ∧
    .mqttDisconnect ∉ before

theorem SentFirst.exists_transmission {effects : List Effect} (h : SentFirst effects) :
    ∃ published, .transmission published ∈ effects := by
  rcases h with ⟨before, published, after, heffects, _⟩
  exact ⟨published, heffects ▸ List.mem_append_right before List.mem_cons_self⟩

theorem not_sentFirst_of_not_transmission {effects : List Effect}
    (h : ∀ published, .transmission published ∉ effects) : ¬ SentFirst effects := by
  intro hsent
  rcases hsent.exists_transmission with ⟨published, hmem⟩
  exact h published hmem

theorem not_sentFirst_disconnect (effects : List Effect) :
    ¬ SentFirst (.mqttDisconnect :: effects) := by
  rintro ⟨before, published, after, heffects, hnone⟩
  cases before with
  | nil => cases heffects
  | cons effect before =>
    injection heffects with heffect
    exact hnone (heffect ▸ List.mem_cons_self)

theorem not_transmission_of_command {effects : List Effect}
    (h : ∀ effect ∈ effects, effect.OfCommand) (published : List SeedPacket) :
    .transmission published ∉ effects :=
  fun hmem ↦ h _ hmem

/-- Leaving the network sends nothing. -/
theorem not_transmission_leaveNetwork (exit : Exit) (unit : UnitState)
    (published : List SeedPacket) : .transmission published ∉ (leaveNetwork exit unit).effects := by
  simp [leaveNetwork]

theorem not_transmission_autoReset (unit : UnitState) (published : List SeedPacket) :
    .transmission published ∉ (autoReset unit).effects := by
  by_cases hpos : unit.autoResetCounterAfterSuccesfulMeasurement > 0
  · rw [autoReset_of_pos hpos]
    split
    · exact not_transmission_leaveNetwork _ _ published
    · exact List.not_mem_nil
  · rw [autoReset_of_zero hpos]
    exact List.not_mem_nil

/-- Without a pending recording nothing is transmitted. -/
theorem not_transmission_sendAndCount (hready : unit.dataReadyToSend = false)
    (published : List SeedPacket) :
    .transmission published ∉ (sendAndCount env unit).effects := by
  have hnone : (aliveSent unit).dataReadyToSend = false := hready
  rw [sendAndCount_eq, sendAlive_eq, sendData, hnone]
  intro hmem
  rcases List.mem_append.mp hmem with halive | hrest
  · split at halive <;> simp at halive
  · rcases List.mem_append.mp hrest with hdata | hauto
    · cases hdata
    · exact not_transmission_autoReset _ published hauto

/-- What is transmitted are the packets that the sender makes of the recorder. -/
theorem published_of_sendAndCount {env : PollEnv} {unit : UnitState} {published : List SeedPacket}
    (h : .transmission published ∈ (sendAndCount env unit).effects) : published =
      (sendMeasuredTrainDataWithMultiplePacketsFromFlash env.send unit.recorder).published := by
  rw [sendAndCount_eq, sendAlive_eq, sendData] at h
  rcases List.mem_append.mp h with halive | hrest
  · split at halive
    · exact absurd halive (by simp)
    · exact absurd halive List.not_mem_nil
  · rcases List.mem_append.mp hrest with hdata | hauto
    · split at hdata
      · have hlast := (List.mem_cons.mp hdata).resolve_left Effect.noConfusion
        exact Effect.transmission.inj (List.mem_singleton.mp hlast)
      · exact absurd hdata List.not_mem_nil
    · exact absurd hauto (not_transmission_autoReset _ published)

/-- The state behind `mqtt_input` lets the pending recording be sent: no error bit is set, the
handler did not disconnect, and neither a reset nor a skip is requested. -/
structure ReachesTransmission (env : PollEnv) (unit : UnitState) : Prop where
  pollErr : env.pollErr = false
  pollNval : env.pollNval = false
  connected : (delivered env unit).2 = []
  reset : (delivered env unit).1.inbox.flags.mqttTriggerReset = false
  skip : (delivered env unit).1.inbox.flags.mqttSkipInitProcedure = false

/-- Where the transmission is reached, no block in front of it leaves the network. -/
theorem ReachesTransmission.not_leaves (h : ReachesTransmission env unit) {other : UnitState}
    (hkept : Kept (delivered env unit).1 other) (halive : other.inbox.firstAliveFlag ≠ 2) :
    ¬ (other.inbox.flags.mqttTriggerReset = true ∨
      other.inbox.flags.mqttSkipInitProcedure = true ∨ other.inbox.firstAliveFlag = 2) := by
  rintro (hreset | hskip | htwo)
  · rw [hkept.reset, h.reset] at hreset
    cases hreset
  · rw [hkept.skip, h.skip] at hskip
    cases hskip
  · exact halive htwo

/-- Before the transmission block nothing is transmitted. -/
theorem not_transmission_delivered (env : PollEnv) (unit : UnitState)
    (published : List SeedPacket) : .transmission published ∉ (delivered env unit).2 := by
  rcases delivered_cases env unit with ⟨inbox, _, hnone | hdisconnect, _⟩
  · simp [hnone]
  · simp [hdisconnect]

/-- A call with a failing step transmits nothing. -/
theorem not_transmission_of_fails (hfails : ¬ env.Succeeds) (unit : UnitState)
    (published : List SeedPacket) :
    .transmission published ∉ (mqttPoolingProcedure env unit).effects := by
  rcases mqttPoolingProcedure_of_fails hfails unit with ⟨inbox, effects, heffects, _, hcall⟩
  rw [hcall]
  cases heffects with
  | inl hnone => simp [hnone]
  | inr hdisconnect => simp [hdisconnect]

/-- Neither does a call that leaves the network behind the commands. -/
theorem not_transmission_leaving (env : PollEnv) (unit : UnitState) {effects : List Effect}
    (hcommands : ∀ effect ∈ effects, effect.OfCommand) (exit : Exit) (left : UnitState)
    (published : List SeedPacket) :
    .transmission published ∉
      (delivered env unit).2 ++ (effects ++ (leaveNetwork exit left).effects) := by
  intro hmem
  rcases List.mem_append.mp hmem with hdelivered | hrest
  · exact not_transmission_delivered env unit published hdelivered
  · rcases List.mem_append.mp hrest with hcommand | hafter
    · exact not_transmission_of_command hcommands published hcommand
    · exact not_transmission_leaveNetwork exit left published hafter

/-- Commands do not disconnect in front of the transmission. -/
theorem sentFirst_commands {effects : List Effect}
    (hcommands : ∀ effect ∈ effects, effect.OfCommand) (published : List SeedPacket)
    (after : List Effect) :
    SentFirst (effects ++ .telemetry :: .transmission published :: after) := by
  refine ⟨effects ++ [.telemetry], published, after, by simp, fun hmem ↦ ?_⟩
  rcases List.mem_append.mp hmem with hcommand | htelemetry
  · exact hcommands _ hcommand
  · cases List.mem_singleton.mp htelemetry

/-- A call that transmits has passed the blocks in front of the transmission. -/
theorem cases_of_transmission {published : List SeedPacket}
    (h : .transmission published ∈ (mqttPoolingProcedure env unit).effects) :
    ∃ other, other.dataReadyToSend = unit.dataReadyToSend ∧ other.recorder = unit.recorder ∧
      .transmission published ∈ (sendAndCount env other).effects ∧
      (mqttPoolingProcedure env unit).state = (sendAndCount env other).state := by
  by_cases hsucceeds : env.Succeeds
  · rcases mqttPoolingProcedure_of_succeeds hsucceeds unit with
      ⟨other, effects, hkept, _, hcommands, hcall⟩
    rw [hcall] at h
    rcases List.mem_append.mp h with hdelivered | hrest
    · exact absurd hdelivered (not_transmission_delivered env unit published)
    · rcases List.mem_append.mp hrest with hcommand | hafter
      · exact absurd hcommand (not_transmission_of_command hcommands published)
      · rcases afterCommands_cases env other with
          ⟨exit, inbox, counter, _, _, heq⟩ | ⟨_, _, counter, _, heq⟩
        · rw [heq] at hafter
          exact absurd hafter (not_transmission_leaveNetwork _ _ published)
        · rcases delivered_cases env unit with ⟨inbox, hinbox, _⟩
          rw [hinbox] at hkept
          rw [heq] at hafter
          refine ⟨{ other with initialStageTimeoutCounter := counter }, hkept.ready,
            hkept.recorder, hafter, ?_⟩
          rw [hcall, heq]
  · exact absurd h (not_transmission_of_fails hsucceeds unit published)

/-- Only a pending recording is transmitted. -/
theorem ready_of_transmission {published : List SeedPacket}
    (h : .transmission published ∈ (mqttPoolingProcedure env unit).effects) :
    unit.dataReadyToSend = true := by
  rcases cases_of_transmission h with ⟨other, hready, _, hsent, _⟩
  rw [← hready]
  cases hother : other.dataReadyToSend with
  | true => rfl
  | false => exact absurd hsent (not_transmission_sendAndCount hother published)

/-- Where nothing is pending the recording is kept. -/
theorem recorder_sendAndCount_of_idle (env : PollEnv) {unit : UnitState}
    (hidle : unit.dataReadyToSend = false) :
    (sendAndCount env unit).state.recorder = unit.recorder := by
  have hnone : (aliveSent unit).dataReadyToSend = false := hidle
  rw [sendAndCount_eq]
  simp only [(autoReset_data _).2, dataSent, sendData, hnone, if_neg Bool.false_ne_true]
  rfl

/-- A call keeps the recording as it is, or sends the pending one. -/
theorem recorder_of_call (env : PollEnv) (unit : UnitState) :
    (mqttPoolingProcedure env unit).state.dataReadyToSend = unit.dataReadyToSend ∧
        (mqttPoolingProcedure env unit).state.recorder = unit.recorder ∨
      unit.dataReadyToSend = true ∧
        (mqttPoolingProcedure env unit).state.dataReadyToSend = false := by
  by_cases hsucceeds : env.Succeeds
  · obtain ⟨other, effects, hkept, _, _, hcall⟩ := mqttPoolingProcedure_of_succeeds hsucceeds unit
    obtain ⟨inbox, hinbox, _⟩ := delivered_cases env unit
    rw [hinbox] at hkept
    rw [hcall]
    rcases afterCommands_cases env other with
      ⟨exit, inbox', counter, _, _, heq⟩ | ⟨_, _, counter, _, heq⟩
    · rw [heq]
      exact Or.inl ⟨hkept.ready, hkept.recorder⟩
    · rw [heq]
      have hcleared := dataReadyToSend_sendAndCount env
        { other with initialStageTimeoutCounter := counter }
      cases hready : unit.dataReadyToSend with
      | true => exact Or.inr ⟨rfl, hcleared⟩
      | false =>
        have hidle : other.dataReadyToSend = false := hkept.ready.trans hready
        have hidle' : { other with initialStageTimeoutCounter := counter }.dataReadyToSend =
            false := hidle
        exact Or.inl ⟨hcleared, (recorder_sendAndCount_of_idle env hidle').trans hkept.recorder⟩
  · obtain ⟨inbox, effects, _, _, hcall⟩ := mqttPoolingProcedure_of_fails hsucceeds unit
    rw [hcall]
    exact Or.inl ⟨rfl, rfl⟩

/-! ## Order of transmission and commands -/

/-- A pending recording is sent first exactly when the call reaches the transmission. -/
theorem sentFirst_iff_of_ready (hready : unit.dataReadyToSend = true)
    (halive : unit.inbox.firstAliveFlag = 0) (hsteps : env.StepsSucceed) :
    SentFirst (mqttPoolingProcedure env unit).effects ↔ ReachesTransmission env unit := by
  by_cases hsucceeds : env.Succeeds
  · rcases mqttPoolingProcedure_of_succeeds hsucceeds unit with
      ⟨other, effects, hkept, _, hcommands, hcall⟩
    rcases delivered_cases env unit with ⟨inbox, hinbox, hdisconnect, hflag⟩
    have hzero : other.inbox.firstAliveFlag = 0 := by
      rw [hkept.alive, hinbox]
      cases hflag with
      | inl hsame => exact hsame.trans halive
      | inr hreset => exact hreset.2
    have hotherready : other.dataReadyToSend = true := by
      rw [hkept.ready, hinbox]
      exact hready
    -- Either a block in front of the transmission leaves the network, or all of them are passed.
    rcases afterCommands_cases env other with
      ⟨exit, inbox', counter, _, hleaves, heq⟩ | ⟨hreset, hskip, counter, _, heq⟩
    · have hnottwo : other.inbox.firstAliveFlag ≠ 2 := by
        rw [hzero]
        decide
      apply iff_of_false
      · rw [hcall, heq]
        exact not_sentFirst_of_not_transmission
          (not_transmission_leaving env unit hcommands exit _)
      · exact fun hreaches ↦ hreaches.not_leaves hkept hnottwo hleaves
    · have hne : other.inbox.firstAliveFlag ≠ 1 := by
        rw [hzero]
        decide
      rcases effects_sendAndCount env { other with initialStageTimeoutCounter := counter } hne
        hotherready with ⟨published, after, hsent⟩
      cases hdisconnect with
      | inl hnone =>
        apply iff_of_true
        · rw [hcall, heq, hsent, hnone]
          exact sentFirst_commands hcommands published after
        · exact
            { pollErr := hsucceeds.pollErr
              pollNval := hsucceeds.pollNval
              connected := hnone
              reset := hkept.reset.symm.trans hreset
              skip := hkept.skip.symm.trans hskip }
      | inr hleft =>
        apply iff_of_false
        · rw [hcall, hleft]
          exact not_sentFirst_disconnect _
        · intro hreaches
          have hconnected := hreaches.connected
          rw [hleft] at hconnected
          cases hconnected
  · apply iff_of_false
    · exact not_sentFirst_of_not_transmission (not_transmission_of_fails hsucceeds unit)
    · intro hreaches
      exact hsucceeds ⟨hsteps, hreaches.pollErr, hreaches.pollNval⟩

namespace Program

/-- In every state of the program the alive flag is clear while a recording is pending. -/
def AliveClear (program : Program) : Prop :=
  program.unit.dataReadyToSend = true → program.unit.inbox.firstAliveFlag = 0

/-- A call that leaves a recording pending found it pending, and clears the alive flag at most. -/
theorem ready_of_call (h : (mqttPoolingProcedure env unit).state.dataReadyToSend = true) :
    unit.dataReadyToSend = true ∧
      ((mqttPoolingProcedure env unit).state.inbox.firstAliveFlag = unit.inbox.firstAliveFlag ∨
        (mqttPoolingProcedure env unit).state.inbox.firstAliveFlag = 0) := by
  by_cases hsucceeds : env.Succeeds
  · rcases mqttPoolingProcedure_of_succeeds hsucceeds unit with
      ⟨other, effects, hkept, _, _, hcall⟩
    rcases delivered_cases env unit with ⟨inbox, hinbox, _, hflag⟩
    rw [hinbox] at hkept
    rcases afterCommands_cases env other with
      ⟨exit, inbox', counter, hsame, _, heq⟩ | ⟨_, _, counter, _, heq⟩
    · rw [hcall, heq] at h ⊢
      refine ⟨hkept.ready.symm.trans h, ?_⟩
      have halive : inbox'.firstAliveFlag = inbox.firstAliveFlag := hsame.trans hkept.alive
      simp only [leaveNetwork, halive]
      exact hflag.imp_right And.right
    · rw [hcall, heq] at h
      have hsent := dataReadyToSend_sendAndCount env
        { other with initialStageTimeoutCounter := counter }
      exact absurd (hsent.symm.trans h) (by decide)
  · rcases mqttPoolingProcedure_of_fails hsucceeds unit with ⟨inbox, effects, _, hflag, hcall⟩
    rw [hcall] at h ⊢
    exact ⟨h, hflag⟩

theorem initModemAndMqtt_data (libInit : ℤ) (unit : UnitState) :
    (initModemAndMqtt libInit unit).dataReadyToSend = unit.dataReadyToSend ∧
      (initModemAndMqtt libInit unit).inbox = unit.inbox := by
  unfold initModemAndMqtt
  split <;> exact ⟨rfl, rfl⟩

theorem aliveClear_step (program : Program) (event : Event) (next : Program)
    (hclear : AliveClear program) (hstep : step program event = some next) : AliveClear next := by
  intro hready
  cases event with
  | initModem libInit =>
    have hdata := initModemAndMqtt_data libInit program.unit
    rcases step_initModem hstep with ⟨_, hnext⟩ | ⟨_, hnext⟩
    · rw [hnext] at hready ⊢
      rw [hdata.2]
      exact hclear (hdata.1.symm.trans hready)
    · rw [hnext] at hready ⊢
      simp only [hdata.2]
      exact hclear (hdata.1.symm.trans hready)
  | poll env =>
    have hpoll := step_poll hstep
    rw [hpoll.2.1] at hready ⊢
    have hcall := ready_of_call hready
    cases hcall.2 with
    | inl hsame => exact hsame.trans (hclear hcall.1)
    | inr hzero => exact hzero
  | measure now frames =>
    rcases (step_measure hstep).2 with ⟨recorder, hnext⟩
    rw [hnext]
    rfl

theorem aliveClear_of_run {settings : Settings} {psram : Memory.Store} {logRam : List Memory.Byte}
    {events : List Event} {program : Program}
    (hrun : Trace.run step (boot settings psram logRam) events = some program) :
    AliveClear program :=
  Trace.run_invariant aliveClear_step (fun hready ↦ by cases hready) hrun

/-- In every state that a run reaches, a call with a pending recording whose `poll`, `mqtt_live` and
`mqtt_input` succeed sends the recording first exactly when it reaches the transmission. -/
theorem sentFirst_iff {settings : Settings} {psram : Memory.Store} {logRam : List Memory.Byte}
    {events : List Event} {program : Program}
    (hrun : Trace.run step (boot settings psram logRam) events = some program) (env : PollEnv)
    (hready : program.unit.dataReadyToSend = true) (hsteps : env.StepsSucceed) :
    SentFirst (mqttPoolingProcedure env program.unit).effects ↔
      ReachesTransmission env program.unit :=
  sentFirst_iff_of_ready hready (aliveClear_of_run hrun hready) hsteps

/-- In every state that a run reaches, a call with a pending recording whose `poll`, `mqtt_live` and
`mqtt_input` succeed transmits before it disconnects or ends, unless an error bit is set, the
handler disconnected, or a reset or skip is requested behind `mqtt_input`. -/
theorem sentFirst_of_reachesTransmission {settings : Settings} {psram : Memory.Store}
    {logRam : List Memory.Byte} {events : List Event} {program : Program}
    (hrun : Trace.run step (boot settings psram logRam) events = some program) (env : PollEnv)
    (hready : program.unit.dataReadyToSend = true) (hsteps : env.StepsSucceed)
    (hreaches : ReachesTransmission env program.unit) :
    SentFirst (mqttPoolingProcedure env program.unit).effects :=
  (sentFirst_iff hrun env hready hsteps).mpr hreaches

theorem stepsSucceed_quiet (send : SendEnv) : (PollEnv.quiet send).StepsSucceed where
  poll := show ¬ (0 : ℤ) < 0 by decide
  mqttLive := fun h ↦ h.1 rfl
  mqttInput := fun h ↦ h.2 rfl

theorem run_failingPoll :
    Trace.run step (boot ⟨0, 2, 0, 0⟩ (fun _ ↦ 0) []) (shortRun failingPoll) =
      some (dataStageWith Inbox.boot) :=
  run_shortRun rfl

theorem reachesTransmission_quiet (send : SendEnv) :
    ReachesTransmission (PollEnv.quiet send) (dataStageWith Inbox.boot).unit :=
  ⟨rfl, rfl, rfl, rfl, rfl⟩

/-- A quiet call that receives a dump request as well. -/
def receivingDump : PollEnv := PollEnv.receiving ldm (workingEnv fun _ ↦ 0)

theorem reachesTransmission_receivingDump {unit : UnitState}
    (hflags : unit.inbox.flags = CommandFlags.clear) :
    ReachesTransmission receivingDump unit := by
  obtain ⟨inbox, hinbox, hset, _, _⟩ := delivered_of_command
    (commandDelivered_receiving (by decide) (List.prefix_refl ldm) (by decide)
      (workingEnv fun _ ↦ 0)) unit
  have hdelivered : delivered receivingDump unit = ({ unit with inbox := inbox }, []) := hinbox
  rw [hflags] at hset
  exact
    { pollErr := rfl
      pollNval := rfl
      connected := by rw [hdelivered]
      reset := by
        rw [hdelivered, hset]
        decide
      skip := by
        rw [hdelivered, hset]
        decide }

theorem sentFirst_receivingDump :
    SentFirst (mqttPoolingProcedure receivingDump (dataStageWith Inbox.boot).unit).effects :=
  sentFirst_of_reachesTransmission run_failingPoll receivingDump rfl
    (PollEnv.succeeds_receiving _ _).toStepsSucceed (reachesTransmission_receivingDump rfl)

/-- A delivered skip request sets its flag. -/
theorem skip_requested (inbox : Inbox) :
    (mqttEvtHandler inbox (Delivery.complete skp)).1.flags.mqttSkipInitProcedure = true := by
  have haccepted : (Delivery.complete skp).Accepted := ⟨by decide, rfl⟩
  rw [mqttEvtHandler_of_accepted haccepted, handleCommand_eq,
    recognised_of_prefix haccepted (by decide) (List.prefix_refl skp)]
  exact Bool.or_true _

/-- The outcomes of a call that receives a skip request and finds an error bit set. -/
def skipWithError : PollEnv :=
  { PollEnv.receiving skp (workingEnv fun _ ↦ 0) with pollErr := true }

/-- The inbox that the skip request leaves behind. -/
def skipInbox : Inbox := (mqttEvtHandler Inbox.boot (Delivery.complete skp)).1

theorem run_skipWithError :
    Trace.run step (boot ⟨0, 2, 0, 0⟩ (fun _ ↦ 0) []) (shortRun skipWithError) =
      some (dataStageWith skipInbox) :=
  run_shortRun (by
    rw [mqttPoolingProcedure]
    exact Progress.andThen_of_returned rfl)

/-- A skip request in the inbox of the data stage stops a quiet call before the transmission. -/
theorem not_sentFirst_of_skip {inbox : Inbox} (hskip : inbox.flags.mqttSkipInitProcedure = true)
    (send : SendEnv) :
    ¬ SentFirst (mqttPoolingProcedure (PollEnv.quiet send) (dataStageWith inbox).unit).effects := by
  rw [sentFirst_iff_of_ready rfl rfl (stepsSucceed_quiet send)]
  intro hreaches
  have hclear : inbox.flags.mqttSkipInitProcedure = false := hreaches.skip
  rw [hskip] at hclear
  cases hclear

/-- A skip request that the first stage left behind takes the place of the transmission. -/
theorem skip_before_transmission :
    Trace.run step (boot ⟨0, 2, 0, 0⟩ (fun _ ↦ 0) []) (shortRun skipWithError) =
        some (dataStageWith skipInbox) ∧
      (dataStageWith skipInbox).unit.dataReadyToSend = true ∧
      (PollEnv.quiet (workingEnv fun _ ↦ 0)).Succeeds ∧
      ¬ SentFirst (mqttPoolingProcedure (PollEnv.quiet (workingEnv fun _ ↦ 0))
        (dataStageWith skipInbox).unit).effects :=
  ⟨run_skipWithError, rfl, ⟨stepsSucceed_quiet _, rfl, rfl⟩,
    not_sentFirst_of_skip (skip_requested Inbox.boot) _⟩

end Program

/-! ## A transmission that fails -/

/-- The state still describes the complete recording as unsent. -/
structure StillPending (unit other : UnitState) : Prop where
  ready : other.dataReadyToSend = true
  overflow : other.recorder.ring.circBuffOverflow = true
  ring_eq : other.recorder.ring = unit.recorder.ring
  psram_eq : other.recorder.psram = unit.recorder.psram
  trainCounter_eq : other.recorder.trainCounter = unit.recorder.trainCounter

/-- The recording is still stored, but both flags that ask to send it are clear. -/
structure KeptNotPending (unit other : UnitState) : Prop where
  ready : other.dataReadyToSend = false
  ring_eq : other.recorder.ring = { unit.recorder.ring with circBuffOverflow := false }
  psram_eq : other.recorder.psram = unit.recorder.psram
  trainCounter_eq : other.recorder.trainCounter = unit.recorder.trainCounter

/-- A call that transmits clears the pending flag. -/
theorem dataReadyToSend_of_transmission {published : List SeedPacket}
    (h : .transmission published ∈ (mqttPoolingProcedure env unit).effects) :
    (mqttPoolingProcedure env unit).state.dataReadyToSend = false := by
  rcases cases_of_transmission h with ⟨other, _, _, _, hstate⟩
  rw [hstate]
  exact dataReadyToSend_sendAndCount env other

/-- A failed publish leaves the recording without its ring flag and without its count. -/
theorem sameRecording_of_failed (send : SendEnv) {recorder : Recorder}
    (hflag : recorder.ring.circBuffOverflow = true) {k : ℕ} (hk : 1 ≤ k)
    (hkt : k ≤ totalPacketToSend recorder) (hfailed : send.publish k ≠ 0) :
    recorder.withoutFlag.SameRecording
      (sendMeasuredTrainDataWithMultiplePacketsFromFlash send recorder).recorder := by
  have hbegin : recorder.beginSending.ring.circBuffOverflow = true := hflag
  rcases transmitted_sendPackets send (totalPacketToSend recorder) hbegin rfl (hk.trans hkt) with
    ⟨packets, hsent⟩
  cases hsent.loopEnd with
  | inl hend => exact Recorder.SameRecording.trans ⟨_, _, _, _, rfl⟩ hend.2
  | inr hend => exact absurd (hend.1 k hk hkt) hfailed

/-- When a publish of the transmission fails, the recording is kept but no longer pending, and no
later call transmits it. -/
theorem keptNotPending_of_failed (env : PollEnv) (unit : UnitState) {published : List SeedPacket}
    (htransmits : .transmission published ∈ (mqttPoolingProcedure env unit).effects)
    (hoverflow : unit.recorder.ring.circBuffOverflow = true) {k : ℕ} (hk : 1 ≤ k)
    (hkt : k ≤ totalPacketToSend unit.recorder) (hfailed : env.send.publish k ≠ 0) :
    KeptNotPending unit (mqttPoolingProcedure env unit).state ∧
      ∀ later published, .transmission published ∉
        (mqttPoolingProcedure later (mqttPoolingProcedure env unit).state).effects := by
  have hcleared := dataReadyToSend_of_transmission htransmits
  have hready : unit.dataReadyToSend = true := ready_of_transmission htransmits
  rcases cases_of_transmission htransmits with ⟨other, hother, hrecorder, _, hstate⟩
  have hsame : unit.recorder.withoutFlag.SameRecording
      (mqttPoolingProcedure env unit).state.recorder := by
    rw [hstate, recorder_sendAndCount (hother.trans hready), hrecorder]
    exact sameRecording_of_failed env.send hoverflow hk hkt hfailed
  constructor
  · rcases hsame with ⟨packet, address, errors, failed, heq⟩
    exact
      { ready := hcleared
        ring_eq := by rw [heq]; rfl
        psram_eq := by rw [heq]; rfl
        trainCounter_eq := by rw [heq]; rfl }
  · intro later published hlater
    rw [ready_of_transmission hlater] at hcleared
    cases hcleared

/-- A broker that takes no packet. -/
def refusingEnv : SendEnv := { workingEnv (fun _ ↦ 0) with publish := fun _ ↦ -1 }

theorem transmission_refused :
    ∃ published, Effect.transmission published ∈
      (mqttPoolingProcedure (PollEnv.quiet refusingEnv)
        (Program.dataStageWith Inbox.boot).unit).effects := by
  apply SentFirst.exists_transmission
  rw [sentFirst_iff_of_ready rfl rfl (Program.stepsSucceed_quiet _)]
  exact Program.reachesTransmission_quiet _

theorem keptNotPending_refused :
    KeptNotPending (Program.dataStageWith Inbox.boot).unit
        (mqttPoolingProcedure (PollEnv.quiet refusingEnv)
          (Program.dataStageWith Inbox.boot).unit).state ∧
      ∀ later published, .transmission published ∉ (mqttPoolingProcedure later
        (mqttPoolingProcedure (PollEnv.quiet refusingEnv)
          (Program.dataStageWith Inbox.boot).unit).state).effects := by
  have hrecorded := Program.recorded_shortRecorder
  have hoverflow :
      (Program.dataStageWith Inbox.boot).unit.recorder.ring.circBuffOverflow = true := by
    rw [Program.recorder_dataStageWith]
    exact hrecorded.overflow
  have hone : 1 ≤ totalPacketToSend (Program.dataStageWith Inbox.boot).unit.recorder := by
    rw [Program.recorder_dataStageWith, totalPacketToSend_eq hrecorded (by decide)]
    decide
  have hfailed : refusingEnv.publish 1 ≠ 0 := show (-1 : ℤ) ≠ 0 by decide
  rcases transmission_refused with ⟨published, htransmits⟩
  exact keptNotPending_of_failed (PollEnv.quiet refusingEnv)
    (Program.dataStageWith Inbox.boot).unit htransmits hoverflow le_rfl hone hfailed

/-- The publish of the first packet fails: the recording is not pending any more. -/
theorem refused_not_pending :
    (Program.dataStageWith Inbox.boot).unit.dataReadyToSend = true ∧
      refusingEnv.publish 1 ≠ 0 ∧
      (∃ published, Effect.transmission published ∈
        (mqttPoolingProcedure (PollEnv.quiet refusingEnv)
          (Program.dataStageWith Inbox.boot).unit).effects) ∧
      ¬ StillPending (Program.dataStageWith Inbox.boot).unit
        (mqttPoolingProcedure (PollEnv.quiet refusingEnv)
          (Program.dataStageWith Inbox.boot).unit).state := by
  refine ⟨rfl, show (-1 : ℤ) ≠ 0 by decide, transmission_refused, fun hpending ↦ ?_⟩
  rcases transmission_refused with ⟨published, htransmits⟩
  have hcleared := dataReadyToSend_of_transmission htransmits
  rw [hpending.ready] at hcleared
  cases hcleared

end NrfExamples.MqttWorking
