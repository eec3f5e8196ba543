import NrfExamples.MqttWorking.Program

/-!
# The settings in force

A configuration message is copied over the front of `cfg_buff` without a terminating NUL, and the
polling procedure scans the whole buffer. The settings are those of the latest message alone when
the scan cannot run past the end of that message: when it ends at a NUL, or at a character that
does not match, or with a fourth number that no digit continues.
-/

namespace NrfExamples.MqttWorking

open Memory Procedure Scanf

variable {env : PollEnv} {unit : UnitState}

/-! ## Receiving a configuration -/

/-- The call receives a configuration message of at most 255 bytes. -/
structure ConfigDelivered (env : PollEnv) (message : List Byte) : Prop where
  pollIn : env.pollIn = true
  delivery : ∃ delivery, env.delivery = some delivery ∧ delivery.Accepted ∧
    delivery.payload = message
  command : cfg <+: message
  length_le : message.length ≤ 255

theorem ConfigDelivered.commandDelivered {message : List Byte} (h : ConfigDelivered env message) :
    CommandDelivered env cfg message where
  pollIn := h.pollIn
  delivery := h.delivery
  mem_commands := by decide
  command := h.command

/-- The handler copies the message to the front of the configuration buffer and requests its
processing, and nothing else. -/
theorem delivered_of_config {message : List Byte} (h : ConfigDelivered env message)
    (unit : UnitState) :
    ∃ inbox, (delivered env unit).1 = { unit with inbox := inbox } ∧
      inbox.flags = unit.inbox.flags.union ⟨false, false, false, true⟩ ∧
      inbox.firstAliveFlag = unit.inbox.firstAliveFlag ∧
      inbox.cfgBuff.1 = message ++ unit.inbox.cfgBuff.1.drop message.length := by
  obtain ⟨inbox, hinbox, hflags, halive, hbuff⟩ := delivered_of_command h.commandDelivered unit
  have hlength : message.length ≤ cfgBuffSize := h.length_le.trans (by decide)
  have hfront : (unit.inbox.payloadBuf.store message message.length).1 =
      message ++ unit.inbox.payloadBuf.1.drop message.length := by
    rw [Buffer.store_eq _ le_rfl (hlength.trans (by decide)), List.take_length]
  have hsource : message.length ≤
      (unit.inbox.payloadBuf.store message message.length).1.length := by
    rw [hfront, List.length_append]
    exact Nat.le_add_right _ _
  refine ⟨inbox, by rw [hinbox], hflags, halive, ?_⟩
  rw [hbuff, if_pos rfl]
  apply (Buffer.store_eq unit.inbox.cfgBuff hsource hlength).trans
  rw [hfront, List.take_left]

/-! ## Solving it -/

theorem settings_sendAndCount (env : PollEnv) (unit : UnitState) :
    (sendAndCount env unit).state.settings = unit.settings := by
  have hdata : (dataSent env (aliveSent unit)).settings = unit.settings := by
    unfold dataSent sendData
    split <;> rfl
  rw [sendAndCount_eq]
  by_cases hpos :
      (dataSent env (aliveSent unit)).autoResetCounterAfterSuccesfulMeasurement > 0
  · rw [autoReset_of_pos hpos]
    split <;> exact hdata
  · rw [autoReset_of_zero hpos]
    exact hdata

theorem settings_afterCommands (env : PollEnv) (unit : UnitState) :
    (afterCommands env unit).state.settings = unit.settings := by
  rcases afterCommands_cases env unit with ⟨_, _, _, _, _, heq⟩ | ⟨_, _, _, _, heq⟩
  · rw [heq]
    rfl
  · rw [heq]
    exact settings_sendAndCount env _

/-- A call that receives a configuration scans the message together with the old bytes behind it. -/
theorem settings_of_config {message : List Byte} (h : ConfigDelivered env message)
    (hsucceeds : env.Succeeds) (unit : UnitState) :
    (mqttPoolingProcedure env unit).state.settings =
      configured (message ++ unit.inbox.cfgBuff.1.drop message.length) unit.settings := by
  rcases delivered_of_config h unit with ⟨inbox, hinbox, hflags, _, hbuff⟩
  rcases mqttPoolingProcedure_of_succeeds hsucceeds unit with
    ⟨other, effects, _, hsettings, _, hcall⟩
  have hrequested : inbox.flags.configRequestFlag = true := by
    rw [hflags]
    exact Bool.or_true _
  calc
    (mqttPoolingProcedure env unit).state.settings = other.settings := by
      rw [hcall]
      exact settings_afterCommands env other
    _ = configured inbox.cfgBuff.1 unit.settings := by
      rw [hsettings, hinbox, solveConfig, if_pos hrequested]
    _ = configured (message ++ unit.inbox.cfgBuff.1.drop message.length) unit.settings := by
      rw [hbuff]

theorem cfgBuff_sendAndCount (env : PollEnv) (unit : UnitState)
    (hauto : ¬ unit.autoResetCounterAfterSuccesfulMeasurement > 0) :
    (sendAndCount env unit).exit = none ∧
      (sendAndCount env unit).state.inbox.cfgBuff = unit.inbox.cfgBuff := by
  have hsent : ¬ (dataSent env (aliveSent unit)).autoResetCounterAfterSuccesfulMeasurement > 0 ∧
      (dataSent env (aliveSent unit)).inbox.cfgBuff = unit.inbox.cfgBuff := by
    unfold dataSent sendData
    split <;> exact ⟨hauto, rfl⟩
  rw [sendAndCount_eq, autoReset_of_zero hsent.1]
  exact ⟨rfl, hsent.2⟩

/-- A call that receives nothing but a configuration in the remote configuration stage returns one
and keeps the configuration buffer. -/
theorem continues_of_config {message : List Byte} (h : ConfigDelivered env message)
    (hsucceeds : env.Succeeds) (unit : UnitState)
    (hflags : unit.inbox.flags = CommandFlags.clear) (halive : unit.inbox.firstAliveFlag ≠ 2)
    (hauto : ¬ unit.autoResetCounterAfterSuccesfulMeasurement > 0) :
    (mqttPoolingProcedure env unit).exit = none ∧
      (mqttPoolingProcedure env unit).state.inbox.cfgBuff.1 =
        message ++ unit.inbox.cfgBuff.1.drop message.length := by
  rcases delivered_of_config h unit with ⟨inbox, hinbox, hset, hsame, hbuff⟩
  rcases mqttPoolingProcedure_of_succeeds hsucceeds unit with
    ⟨other, effects, hkept, _, _, hcall⟩
  rw [hflags] at hset
  rw [hinbox] at hkept
  have hreset : other.inbox.flags.mqttTriggerReset = false := by
    rw [hkept.reset, hset]
    rfl
  have hskip : other.inbox.flags.mqttSkipInitProcedure = false := by
    rw [hkept.skip, hset]
    rfl
  have hne : other.inbox.firstAliveFlag ≠ 2 := by
    rw [hkept.alive, hsame]
    exact halive
  have hsent := cfgBuff_sendAndCount env other (hkept.auto.symm ▸ hauto)
  rw [hcall, afterCommands_of_clear env hreset hskip, aliveTimeout_of_ne hne,
    Progress.skip_andThen]
  exact ⟨hsent.1, by rw [hsent.2, hkept.cfgBuff, hbuff]⟩

theorem configured_of_four {text : List Byte} {v1 v2 v3 v4 : UInt16}
    (h : sscanf text (cfgFormat ++ [.hu]) = [v1, v2, v3, v4]) (settings : Settings) :
    configured text settings = ⟨v1, v2, v3, v4⟩ := by
  simp only [configured, h]

/-- Bytes behind a message that settles the scan do not matter. -/
theorem configured_append {message tail : List Byte} (h : Settled cfgFormat .hu message tail)
    (settings : Settings) :
    configured (message ++ tail) settings = configured message settings := by
  unfold configured
  rw [sscanf_append rfl h]

namespace Program

/-! ## Runs -/

/-- A call that processes a configuration leaves the four numbers of its message, or the old
settings where the message has no four numbers. -/
def LatestInForce (program : Program) (event : Event) : Prop :=
  ∀ env message, event = .poll env → ConfigDelivered env message → env.Succeeds →
    (mqttPoolingProcedure env program.unit).state.settings =
      configured message program.unit.settings

/-- The message of a call that processes a configuration settles the scan before the bytes that
earlier messages left behind its end. -/
def MessageSettles (program : Program) (event : Event) : Prop :=
  ∀ env message, event = .poll env → ConfigDelivered env message → env.Succeeds →
    Settled cfgFormat .hu message (program.unit.inbox.cfgBuff.1.drop message.length)

/-- In every run whose configuration messages settle the scan the settings in force are those of
the latest message alone. -/
theorem latestInForce_along (settings : Settings) (psram : Store) (logRam : List Byte)
    (events : List Event)
    (h : Trace.Along step MessageSettles (boot settings psram logRam) events) :
    Trace.Along step LatestInForce (boot settings psram logRam) events := by
  apply Trace.Along.mono _ h
  intro program event hsettles env message hevent hdelivered hsucceeds
  rw [settings_of_config hdelivered hsucceeds]
  exact configured_append (hsettles env message hevent hdelivered hsucceeds) _

/-- The text `CFG 55 35 400 1` with the given digits of the third number. -/
def configText (digits : List Char) : List Byte :=
  ascii (['C', 'F', 'G', ' ', '5', '5', ' ', '3', '5', ' '] ++ digits ++ [' ', '1'])

theorem configDelivered_receiving (message : List Byte) (hcommand : cfg <+: message)
    (hlength : message.length ≤ 255) (send : SendEnv) :
    ConfigDelivered (PollEnv.receiving message send) message where
  pollIn := rfl
  delivery := ⟨Delivery.complete message, rfl, ⟨hlength.trans (by decide), rfl⟩, rfl⟩
  command := hcommand
  length_le := hlength

/-- The call that receives the text. -/
def receivingConfig (digits : List Char) : PollEnv :=
  PollEnv.receiving (configText digits) (workingEnv fun _ ↦ 0)

/-- The unit behind the first modem initialisation. -/
def defaultUnit : UnitState :=
  initModemAndMqtt 0 (UnitState.boot ⟨55, 35, 4000, 0⟩ (fun _ ↦ 0) [])

theorem inbox_defaultUnit : defaultUnit.inbox = Inbox.boot := rfl

/-- The scan of the shorter text behind the longer one reads the last digit of the longer one. -/
theorem sscanf_stale_digit :
    sscanf (configText ['4', '0', '0'] ++ (configText ['4', '0', '0', '0'] ++
      Inbox.boot.cfgBuff.1.drop (configText ['4', '0', '0', '0']).length).drop
        (configText ['4', '0', '0']).length) (cfgFormat ++ [.hu]) = [55, 35, 400, 11] := by
  decide

theorem sscanf_own_digits :
    sscanf (configText ['4', '0', '0']) (cfgFormat ++ [.hu]) = [55, 35, 400, 1] := by
  decide

theorem configDelivered_longer : ConfigDelivered (receivingConfig ['4', '0', '0', '0'])
    (configText ['4', '0', '0', '0']) :=
  configDelivered_receiving _ (by decide) (by decide) _

theorem configDelivered_shorter : ConfigDelivered (receivingConfig ['4', '0', '0'])
    (configText ['4', '0', '0']) :=
  configDelivered_receiving _ (by decide) (by decide) _

/-- With the longer text in the buffer, the shorter one leaves other settings than its own. -/
theorem not_latestInForce_shorter (stage : Stage) (unit : UnitState)
    (hbuff : unit.inbox.cfgBuff.1 = configText ['4', '0', '0', '0'] ++
      Inbox.boot.cfgBuff.1.drop (configText ['4', '0', '0', '0']).length) :
    ¬ LatestInForce ⟨stage, unit⟩ (.poll (receivingConfig ['4', '0', '0'])) := by
  intro hlatest
  have hsucceeds := PollEnv.succeeds_receiving (configText ['4', '0', '0']) (workingEnv fun _ ↦ 0)
  have hown : (⟨55, 35, 400, 11⟩ : Settings) = ⟨55, 35, 400, 1⟩ := calc
    (⟨55, 35, 400, 11⟩ : Settings)
      = configured (configText ['4', '0', '0'] ++
          unit.inbox.cfgBuff.1.drop (configText ['4', '0', '0']).length) unit.settings := by
        rw [hbuff, configured_of_four sscanf_stale_digit]
    _ = (mqttPoolingProcedure (receivingConfig ['4', '0', '0']) unit).state.settings :=
        (settings_of_config configDelivered_shorter hsucceeds unit).symm
    _ = configured (configText ['4', '0', '0']) unit.settings :=
        hlatest _ _ rfl configDelivered_shorter hsucceeds
    _ = ⟨55, 35, 400, 1⟩ := configured_of_four sscanf_own_digits _
  exact absurd hown (by decide)

/-- The call of the remote configuration stage that receives the longer text. -/
theorem continues_longer :
    (mqttPoolingProcedure (receivingConfig ['4', '0', '0', '0']) defaultUnit).exit = none ∧
      (mqttPoolingProcedure (receivingConfig ['4', '0', '0', '0'])
          defaultUnit).state.inbox.cfgBuff.1 = configText ['4', '0', '0', '0'] ++
        defaultUnit.inbox.cfgBuff.1.drop (configText ['4', '0', '0', '0']).length :=
  continues_of_config configDelivered_longer (PollEnv.succeeds_receiving _ _) defaultUnit rfl (by decide)
    (by decide)

theorem messageSettles_receiving {program : Program} {message : List Byte} (send : SendEnv)
    (h : Settled cfgFormat .hu message (program.unit.inbox.cfgBuff.1.drop message.length)) :
    MessageSettles program (.poll (PollEnv.receiving message send)) := by
  intro env other hevent hdelivered _
  cases hevent
  obtain ⟨delivery, hdelivery, _, hpayload⟩ := hdelivered.delivery
  have hmessage : message = other := by
    rw [← hpayload, ← Option.some.inj hdelivery]
    rfl
  rw [← hmessage]
  exact h

/-- A shorter text with a blank behind its last number. -/
def blankText : List Byte := configText ['4', '0'] ++ ascii [' ']

def receivingBlank : PollEnv := PollEnv.receiving blankText (workingEnv fun _ ↦ 0)

theorem settled_blankText (tail : List Byte) : Settled cfgFormat .hu blankText tail := by
  have hscan : (scan (cfgFormat ++ [.hu]) blankText).2.toOption = some [0x20] := by decide
  cases hrest : (scan (cfgFormat ++ [.hu]) blankText).2 with
  | error failure =>
    rw [hrest] at hscan
    cases hscan
  | ok rest =>
    rw [hrest] at hscan
    obtain rfl : rest = [0x20] := Option.some.inj hscan
    exact Or.inr (Or.inr (Or.inr ⟨_, hrest, Or.inl (List.cons_ne_nil _ _)⟩))

/-- Behind the longer text its last digit stands behind the end of the shorter one. -/
theorem head?_behind_blankText :
    ∃ program, Trace.run step (boot ⟨55, 35, 4000, 0⟩ (fun _ ↦ 0) [])
        [.initModem 0, .poll (receivingConfig ['4', '0', '0', '0'])] = some program ∧
      (program.unit.inbox.cfgBuff.1.drop blankText.length).head? = some 0x31 := by
  have hbooted : step (boot ⟨55, 35, 4000, 0⟩ (fun _ ↦ 0) []) (.initModem 0) =
      some ⟨.remoteConfig, defaultUnit⟩ := rfl
  have hlonger : ∃ unit : UnitState, step ⟨.remoteConfig, defaultUnit⟩
      (.poll (receivingConfig ['4', '0', '0', '0'])) = some ⟨.remoteConfig, unit⟩ ∧
      unit.inbox.cfgBuff.1 = configText ['4', '0', '0', '0'] ++
        defaultUnit.inbox.cfgBuff.1.drop (configText ['4', '0', '0', '0']).length :=
    ⟨_, step_remoteConfig_continues continues_longer.1, continues_longer.2⟩
  have hlast : (configText ['4', '0', '0', '0']).drop blankText.length = [0x31] := by decide
  obtain ⟨unit, hstep, hbuff⟩ := hlonger
  refine ⟨⟨.remoteConfig, unit⟩, ?_, ?_⟩
  · rw [Trace.run_cons, hbooted, Option.bind_some, Trace.run_cons, hstep]
    rfl
  · rw [hbuff, List.drop_append_of_le_length (by decide), hlast]
    rfl

/-- The last digit of the longer text stands behind the shorter one, whose blank ends the scan. -/
theorem latestInForce_along_blank :
    (∃ program, Trace.run step (boot ⟨55, 35, 4000, 0⟩ (fun _ ↦ 0) [])
        [.initModem 0, .poll (receivingConfig ['4', '0', '0', '0'])] = some program ∧
      (program.unit.inbox.cfgBuff.1.drop blankText.length).head? = some 0x31) ∧
    Trace.Along step LatestInForce (boot ⟨55, 35, 4000, 0⟩ (fun _ ↦ 0) [])
      [.initModem 0, .poll (receivingConfig ['4', '0', '0', '0']), .poll receivingBlank] := by
  constructor
  · exact head?_behind_blankText
  · apply latestInForce_along
    refine ⟨?_, fun next hnext ↦ ⟨?_, fun last _ ↦ ⟨?_, fun _ _ ↦ trivial⟩⟩⟩
    · intro env message hevent
      cases hevent
    · rw [← Option.some.inj hnext]
      exact messageSettles_receiving _ (Or.inr (Or.inl (by decide)))
    · exact messageSettles_receiving _ (settled_blankText _)

/-- From an empty buffer, the longer text followed by the shorter one. -/
theorem not_along_shorter (unit : UnitState)
    (hexit : (mqttPoolingProcedure (receivingConfig ['4', '0', '0', '0']) unit).exit = none)
    (hbuff : (mqttPoolingProcedure (receivingConfig ['4', '0', '0', '0'])
        unit).state.inbox.cfgBuff.1 = configText ['4', '0', '0', '0'] ++
      unit.inbox.cfgBuff.1.drop (configText ['4', '0', '0', '0']).length)
    (hboot : unit.inbox = Inbox.boot) :
    ¬ Trace.Along step LatestInForce ⟨.remoteConfig, unit⟩
      [.poll (receivingConfig ['4', '0', '0', '0']), .poll (receivingConfig ['4', '0', '0'])] := by
  intro halong
  rw [hboot] at hbuff
  exact not_latestInForce_shorter .remoteConfig _ hbuff
    (halong.2 _ (step_remoteConfig_continues hexit)).1

/-- A configuration with the third number 4000, followed by one with 400: the last digit of the
longer text is taken for a digit of the shorter one. -/
theorem stale_digit_in_force :
    ¬ Trace.Along step LatestInForce (boot ⟨55, 35, 4000, 0⟩ (fun _ ↦ 0) [])
      [.initModem 0, .poll (receivingConfig ['4', '0', '0', '0']),
        .poll (receivingConfig ['4', '0', '0'])] := by
  intro halong
  exact not_along_shorter defaultUnit continues_longer.1 continues_longer.2 inbox_defaultUnit
    (halong.2 _ rfl)

end Program

end NrfExamples.MqttWorking
