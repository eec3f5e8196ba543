import NrfExamples.MqttWorking.Configuration

/-!
# The configuration buffer

A configuration message is copied to `cfg_buff` with its own length, which was compared with the
size of the receive buffer only, and no NUL is added. What the buffer shows at a position is the
byte of the latest configuration message that reaches it. The copies stay inside the buffer exactly
while no configuration message is longer than 256 bytes, and a scan finds a NUL exactly if the
latest bytes do not cover the whole buffer with other values.
-/

namespace NrfExamples.MqttWorking

open Memory Procedure

/-! ## Copies and scans -/

/-- The message that a call hands to the handler. -/
def PollEnv.received (env : PollEnv) : Option Delivery :=
  if env.poll < 0 ∨ (env.mqttLive ≠ 0 ∧ env.mqttLive ≠ -eagain) then none
  else if env.pollIn then env.delivery
  else none

/-- The number of bytes that the handler copies to `cfg_buff`, in the configuration branch. -/
def cfgCopy (inbox : Inbox) (delivery : Delivery) : Option ℕ :=
  let received := getReceivedPayload delivery inbox.payloadBuf
  if received.2 ≥ 0 ∧ compareBufferToText received.1.payloadBuf cfg then
    some delivery.payload.length
  else none

/-- The buffer that a call gives to `sscanf`. -/
def scannedBuffer (env : PollEnv) (unit : UnitState) : Option (Buffer cfgBuffSize) :=
  let received := receive env unit
  if received.exit = none ∧ received.state.inbox.flags.configRequestFlag then
    some received.state.inbox.cfgBuff
  else none

/-- `mqtt_readall_publish_payload` returns zero or a negative error. -/
def Delivery.Documented (delivery : Delivery) : Prop := delivery.readall ≤ 0

instance (delivery : Delivery) : Decidable delivery.Accepted := inferInstanceAs (Decidable (_ ∧ _))

/-- A configuration message: accepted, and with the text `CFG` in front of the receive buffer. -/
def cfgMessage (inbox : Inbox) (delivery : Delivery) : Option (List Byte) :=
  if delivery.Accepted ∧ compareBufferToText
      (inbox.payloadBuf.store delivery.payload delivery.payload.length) cfg then
    some delivery.payload
  else none

/-- The configuration message that a call receives. -/
def PollEnv.cfgMessage (env : PollEnv) (inbox : Inbox) : Option (List Byte) :=
  env.received.bind (MqttWorking.cfgMessage inbox)

/-! ## The handler -/

theorem truncatePayload_le (delivery : Delivery) (n : ℕ) (receiving : Receiving) :
    (truncatePayload delivery n receiving).2 ≤ 0 := by
  fun_induction truncatePayload delivery n receiving with
  | case1 =>
    change -eio ≤ 0
    decide
  | case2 n receiving length hlong ret requested hne hneg => exact hneg.le
  | case3 n receiving length hlong ret requested hne hneg ih => exact ih
  | case4 => exact le_rfl

theorem getReceivedPayload_of_not_accepted {delivery : Delivery} (hdocumented : delivery.Documented)
    (h : ¬ delivery.Accepted) (payloadBuf : Buffer mqttBufferSize) :
    (getReceivedPayload delivery payloadBuf).2 < 0 := by
  unfold getReceivedPayload
  by_cases htruncated : (truncatePayload delivery 0 ⟨payloadBuf, delivery.payload, []⟩).2 = 0
  · rw [if_neg (not_not.mpr htruncated)]
    by_cases hreadall : delivery.readall = 0
    · have hlong : delivery.payload.length > mqttBufferSize :=
        not_le.mp fun hlength ↦ h ⟨hlength, hreadall⟩
      rw [if_neg (not_not.mpr hreadall), if_pos hlong]
      change -emsgsize < 0
      decide
    · rw [if_pos hreadall]
      exact lt_of_le_of_ne hdocumented hreadall
  · rw [if_pos htruncated]
    exact lt_of_le_of_ne (truncatePayload_le ..) htruncated

/-- The copied length is the length of the message. -/
theorem cfgCopy_eq (inbox : Inbox) {delivery : Delivery} (h : delivery.Documented) :
    cfgCopy inbox delivery = (cfgMessage inbox delivery).map List.length := by
  unfold cfgCopy cfgMessage
  by_cases haccepted : delivery.Accepted
  · simp only [getReceivedPayload_of_accepted haccepted, haccepted, true_and, ge_iff_le, le_refl]
    split <;> rfl
  · have hneg := getReceivedPayload_of_not_accepted h haccepted inbox.payloadBuf
    rw [if_neg fun hbranch ↦ absurd hbranch.1 (not_le.mpr hneg),
      if_neg fun hbranch ↦ haccepted hbranch.1, Option.map_none]

/-- A copy from the receive buffer is a copy of the message it has just taken. -/
theorem store_received (cfgBuff : Buffer cfgBuffSize) (payloadBuf : Buffer mqttBufferSize)
    {payload : List Byte} (h : payload.length ≤ mqttBufferSize) :
    cfgBuff.store (payloadBuf.store payload payload.length).1 payload.length =
      cfgBuff.store payload payload.length := by
  have hfront : (payloadBuf.store payload payload.length).1.take payload.length = payload := by
    rw [Buffer.store_eq _ le_rfl h, List.take_length, List.take_left]
  rw [← Buffer.store_take, hfront]

/-- The handler copies a configuration message with its own length and requests its processing. -/
theorem mqttEvtHandler_cfg (inbox : Inbox) {delivery : Delivery} (h : delivery.Documented) :
    (mqttEvtHandler inbox delivery).1.cfgBuff =
        (cfgMessage inbox delivery).elim inbox.cfgBuff
          (fun message ↦ inbox.cfgBuff.store message message.length) ∧
      (mqttEvtHandler inbox delivery).1.flags.configRequestFlag =
        (inbox.flags.configRequestFlag || (cfgMessage inbox delivery).isSome) := by
  unfold cfgMessage
  by_cases haccepted : delivery.Accepted
  · rw [mqttEvtHandler_of_accepted haccepted, handleCommand_eq]
    cases hcfg : compareBufferToText
      (inbox.payloadBuf.store delivery.payload delivery.payload.length) cfg with
    | false => simp [hcfg, CommandFlags.union, recognised]
    | true =>
      simp [haccepted, hcfg, CommandFlags.union, recognised, store_received _ _ haccepted.1]
  · have hneg := getReceivedPayload_of_not_accepted h haccepted inbox.payloadBuf
    unfold mqttEvtHandler
    simp only [if_neg (not_le.mpr hneg), haccepted, false_and, if_false]
    split <;> simp

/-! ## One call -/

variable {env : PollEnv} {unit : UnitState}

theorem receive_exit_iff (env : PollEnv) (unit : UnitState) :
    (receive env unit).exit = none ↔ env.Succeeds := by
  by_cases h : env.Succeeds
  · exact iff_of_true (by rw [receive_of_succeeds h]) h
  · refine iff_of_false ?_ h
    rcases receive_of_fails h unit with heq | heq <;> simp [heq]

/-- A call that passes the first two steps keeps what the delivery leaves. -/
theorem receive_state (env : PollEnv) (unit : UnitState) :
    (receive env unit).state =
      if env.poll < 0 ∨ (env.mqttLive ≠ 0 ∧ env.mqttLive ≠ -eagain) then unit
      else (delivered env unit).1 := by
  unfold receive
  by_cases hpoll : env.poll < 0
  · rw [if_pos hpoll, if_pos (Or.inl hpoll)]
  · rw [if_neg hpoll]
    by_cases hlive : env.mqttLive ≠ 0 ∧ env.mqttLive ≠ -eagain
    · rw [if_pos hlive, if_pos (Or.inr hlive)]
    · have hdelivered : (if env.pollIn then deliver env.delivery unit else (unit, [])) =
          delivered env unit := rfl
      rw [if_neg hlive, if_neg (not_or.mpr ⟨hpoll, hlive⟩), hdelivered]
      by_cases hinput : env.pollIn = true ∧ env.mqttInput ≠ 0
      · simp only [if_pos hinput]
      · simp only [if_neg hinput]
        split
        · rfl
        · split <;> rfl

theorem inbox_receive (env : PollEnv) (unit : UnitState) :
    (receive env unit).state.inbox =
      env.received.elim unit.inbox fun delivery ↦ (mqttEvtHandler unit.inbox delivery).1 := by
  rw [receive_state, PollEnv.received]
  split
  · rfl
  · rw [delivered]
    cases env.pollIn with
    | false => rfl
    | true => cases env.delivery <;> rfl

/-- The buffer and the request behind the receiving block. -/
theorem receive_cfg (h : ∀ delivery ∈ env.received, delivery.Documented) (unit : UnitState) :
    (receive env unit).state.inbox.cfgBuff =
        (env.cfgMessage unit.inbox).elim unit.inbox.cfgBuff
          (fun message ↦ unit.inbox.cfgBuff.store message message.length) ∧
      (receive env unit).state.inbox.flags.configRequestFlag =
        (unit.inbox.flags.configRequestFlag || (env.cfgMessage unit.inbox).isSome) := by
  rw [inbox_receive, PollEnv.cfgMessage]
  cases hreceived : env.received with
  | none => exact ⟨rfl, (Bool.or_false _).symm⟩
  | some delivery => exact mqttEvtHandler_cfg unit.inbox (h delivery hreceived)

theorem cfgBuff_leaveNetwork_ite (condition : Prop) [Decidable condition] (exit : Exit)
    {left right : UnitState} (hleft : left.inbox.cfgBuff = unit.inbox.cfgBuff)
    (hright : right.inbox.cfgBuff = unit.inbox.cfgBuff) :
    (if condition then leaveNetwork exit left else .skip right).state.inbox.cfgBuff =
      unit.inbox.cfgBuff := by
  split
  · exact hleft
  · exact hright

theorem cfgBuff_aliveTimeout (unit : UnitState) :
    (aliveTimeout unit).state.inbox.cfgBuff = unit.inbox.cfgBuff := by
  unfold aliveTimeout
  split
  · exact cfgBuff_leaveNetwork_ite _ _ rfl rfl
  · rfl

theorem cfgBuff_sendData (send : SendEnv) (unit : UnitState) :
    (sendData send unit).state.inbox.cfgBuff = unit.inbox.cfgBuff := by
  unfold sendData
  split <;> rfl

theorem cfgBuff_autoReset (unit : UnitState) :
    (autoReset unit).state.inbox.cfgBuff = unit.inbox.cfgBuff := by
  unfold autoReset
  split
  · exact cfgBuff_leaveNetwork_ite _ _ rfl rfl
  · rfl

/-- The blocks behind the receiving block keep the buffer. -/
theorem cfgBuff_mqttPoolingProcedure (env : PollEnv) (unit : UnitState) :
    (mqttPoolingProcedure env unit).state.inbox.cfgBuff =
      (receive env unit).state.inbox.cfgBuff := by
  let cfgBuff := fun unit : UnitState ↦ unit.inbox.cfgBuff
  unfold mqttPoolingProcedure
  refine Progress.state_andThen cfgBuff rfl fun unit ↦ ?_
  refine Progress.state_andThen cfgBuff (solveConfig_spec unit).2.1.cfgBuff fun unit ↦ ?_
  refine Progress.state_andThen cfgBuff (dumpLog_spec unit).2.1.cfgBuff fun unit ↦ ?_
  refine Progress.state_andThen cfgBuff (cfgBuff_leaveNetwork_ite _ _ rfl rfl)
    fun unit ↦ ?_
  refine Progress.state_andThen cfgBuff (cfgBuff_leaveNetwork_ite _ _ rfl rfl)
    fun unit ↦ ?_
  refine Progress.state_andThen cfgBuff (cfgBuff_aliveTimeout unit) fun unit ↦ ?_
  refine Progress.state_andThen cfgBuff (by rw [sendAlive_eq]; rfl) fun unit ↦ ?_
  exact Progress.state_andThen cfgBuff (cfgBuff_sendData env.send unit) cfgBuff_autoReset

/-- A scan reads the old bytes overwritten by the message of the call. -/
theorem mem_scannedBuffer (h : ∀ delivery ∈ env.received, delivery.Documented) (unit : UnitState)
    (buffer : Buffer cfgBuffSize) :
    buffer ∈ scannedBuffer env unit ↔
      (env.Succeeds ∧
        (unit.inbox.flags.configRequestFlag || (env.cfgMessage unit.inbox).isSome)) ∧
        buffer = (env.cfgMessage unit.inbox).elim unit.inbox.cfgBuff
          fun message ↦ unit.inbox.cfgBuff.store message message.length := by
  rw [scannedBuffer, ← (receive_cfg h unit).1, ← (receive_cfg h unit).2,
    ← receive_exit_iff env unit]
  simp only [Option.mem_def, Option.ite_none_right_eq_some, Option.some.injEq]
  exact and_congr Iff.rfl eq_comm

namespace Program

/-! ## Runs -/

/-- Every copy stays inside `cfg_buff`, and a scan of it finds a NUL. -/
def CfgSafe (program : Program) (event : Event) : Prop :=
  ∀ env, event = .poll env →
    (∀ delivery ∈ env.received, ∀ count ∈ cfgCopy program.unit.inbox delivery,
      count ≤ cfgBuffSize) ∧
    ∀ buffer ∈ scannedBuffer env program.unit, 0 ∈ buffer.1

/-- The configuration messages of one step. -/
def cfgMessages (program : Program) (event : Event) : List (List Byte) :=
  match event with
  | .poll env => (env.cfgMessage program.unit.inbox).toList
  | .initModem _ | .measure _ _ => []

/-- The latest bytes of some position are a NUL, or no message has reached it. -/
def Terminated (history : List (List Byte)) : Prop :=
  ∃ position < cfgBuffSize, (latest history position).getD 0 = 0

/-- No message of the step is longer than `cfg_buff`, and where the step scans, the messages so far
leave a NUL. -/
def CfgFits (program : Program × List (List Byte)) (event : Event) : Prop :=
  ∀ env, event = .poll env →
    (∀ message ∈ env.cfgMessage program.1.unit.inbox, message.length ≤ cfgBuffSize) ∧
    (env.Succeeds ∧ (program.1.unit.inbox.flags.configRequestFlag ||
        (env.cfgMessage program.1.unit.inbox).isSome) →
      Terminated (program.2 ++ cfgMessages program.1 event))

/-- The reads of a delivery end as documented. -/
def Documented (event : Event) : Prop :=
  ∀ env, event = .poll env → ∀ delivery ∈ env.received, delivery.Documented

/-- A step stores its configuration messages and keeps the other bytes. -/
theorem cfgBuff_step {program next : Program} {event : Event} (h : Documented event)
    (hstep : step program event = some next) :
    next.unit.inbox.cfgBuff = (cfgMessages program event).foldl
      (fun buffer message ↦ buffer.store message message.length) program.unit.inbox.cfgBuff := by
  cases event with
  | initModem libInit =>
    have hkept : (initModemAndMqtt libInit program.unit).inbox = program.unit.inbox := by
      unfold initModemAndMqtt
      split <;> rfl
    rcases step_initModem hstep with ⟨_, rfl⟩ | ⟨_, rfl⟩ <;> exact congrArg Inbox.cfgBuff hkept
  | poll env =>
    rw [(step_poll hstep).2.1, cfgBuff_mqttPoolingProcedure, (receive_cfg (h env rfl) _).1,
      cfgMessages]
    cases env.cfgMessage program.unit.inbox <;> rfl
  | measure now frames =>
    obtain ⟨_, recorder, rfl⟩ := step_measure hstep
    rfl

/-- The configuration buffer shows the latest messages. -/
theorem shows_recording {program next : Program × List (List Byte)} {event : Event}
    (hshows : program.1.unit.inbox.cfgBuff.Shows program.2) (h : Documented event)
    (hstep : Trace.recording step cfgMessages program event = some next) :
    next.1.unit.inbox.cfgBuff.Shows next.2 := by
  obtain ⟨after, hafter, rfl⟩ := Option.map_eq_some_iff.mp hstep
  simp only [cfgBuff_step h hafter]
  cases event with
  | initModem libInit | measure now frames => rwa [cfgMessages, List.append_nil]
  | poll env =>
    rw [cfgMessages]
    cases env.cfgMessage program.1.unit.inbox with
    | none => rwa [Option.toList_none, List.append_nil]
    | some message => exact hshows.store message

/-- The buffer that a call scans shows the messages up to the call. -/
theorem shows_received {program : Program} {history : List (List Byte)}
    (hshows : program.unit.inbox.cfgBuff.Shows history) (env : PollEnv) :
    ((env.cfgMessage program.unit.inbox).elim program.unit.inbox.cfgBuff
      fun message ↦ program.unit.inbox.cfgBuff.store message message.length).Shows
        (history ++ cfgMessages program (.poll env)) := by
  rw [cfgMessages]
  cases env.cfgMessage program.unit.inbox with
  | none => rwa [Option.toList_none, List.append_nil]
  | some message => exact hshows.store message

theorem cfgSafe_iff {program : Program × List (List Byte)} {event : Event}
    (hshows : program.1.unit.inbox.cfgBuff.Shows program.2) (h : Documented event) :
    CfgSafe program.1 event ↔ CfgFits program event := by
  unfold CfgSafe CfgFits
  refine forall₂_congr fun env hevent ↦ and_congr ?_ ?_
  · subst hevent
    rw [PollEnv.cfgMessage]
    cases hreceived : env.received with
    | none => simp
    | some delivery => simp [cfgCopy_eq _ (h env rfl delivery hreceived)]
  · subst hevent
    rw [Terminated, ← (shows_received hshows env).zero_mem_iff]
    constructor
    · intro hsafe hscans
      exact hsafe _ ((mem_scannedBuffer (h env rfl) _ _).mpr ⟨hscans, rfl⟩)
    · intro hfits buffer hbuffer
      obtain ⟨hscans, rfl⟩ := (mem_scannedBuffer (h env rfl) _ _).mp hbuffer
      exact hfits hscans

/-- A run never writes outside `cfg_buff` and never scans it without a NUL, if and only if no
configuration message is longer than the buffer and the latest bytes leave a NUL at every scan. -/
theorem cfgSafe_along_iff (settings : Settings) (psram : Store) (logRam : List Byte)
    (events : List Event) (h : ∀ event ∈ events, Documented event) :
    Trace.Along step CfgSafe (boot settings psram logRam) events ↔
      Trace.Along (Trace.recording step cfgMessages) CfgFits (boot settings psram logRam, [])
        events := by
  let invariant : Program × List (List Byte) → Prop :=
    fun program ↦ program.1.unit.inbox.cfgBuff.Shows program.2
  have hstep : ∀ program event next, invariant program → Documented event →
      Trace.recording step cfgMessages program event = some next → invariant next :=
    fun _ _ _ hshows hdocumented ↦ shows_recording hshows hdocumented
  have hiff : ∀ (program : Program × List (List Byte)) event, invariant program →
      Documented event → (CfgSafe program.1 event ↔ CfgFits program event) :=
    fun _ _ ↦ cfgSafe_iff
  have hboot : invariant (boot settings psram logRam, []) := Buffer.shows_zero cfgBuffSize
  exact Trace.along_recording_iff hstep hiff hboot h

/-! ## Short messages -/

/-- The payload that a step receives leaves the last byte of `cfg_buff` alone. -/
def Short (event : Event) : Prop :=
  ∀ env, event = .poll env → ∀ delivery ∈ env.received, delivery.payload.length < cfgBuffSize

theorem length_of_mem_cfgMessages {program : Program} {event : Event} (h : Short event) :
    ∀ message ∈ cfgMessages program event, message.length < cfgBuffSize := by
  cases event with
  | initModem libInit | measure now frames => exact fun _ hmem ↦ absurd hmem List.not_mem_nil
  | poll env =>
    intro message hmem
    obtain ⟨delivery, hreceived, hmessage⟩ :=
      Option.bind_eq_some_iff.mp (Option.mem_toList.mp hmem)
    unfold MqttWorking.cfgMessage at hmessage
    rw [← Option.some.inj (Option.ite_none_right_eq_some.mp hmessage).2]
    exact h env rfl delivery hreceived

theorem terminated_of_short {history : List (List Byte)}
    (h : ∀ message ∈ history, message.length < cfgBuffSize) : Terminated history := by
  refine ⟨cfgBuffSize - 1, by decide, ?_⟩
  have hnone : latest history (cfgBuffSize - 1) = none := by
    rw [latest, List.findSome?_eq_none_iff]
    intro message hmem
    exact List.getElem?_eq_none (Nat.le_sub_one_of_lt (h message (List.mem_reverse.mp hmem)))
  rw [hnone, Option.getD_none]

/-- Messages of at most 255 bytes leave the NUL at the end of the buffer. -/
theorem cfgFits_of_short (settings : Settings) (psram : Store) (logRam : List Byte)
    {events : List Event} (h : ∀ event ∈ events, Short event) :
    Trace.Along (Trace.recording step cfgMessages) CfgFits (boot settings psram logRam, [])
      events := by
  let invariant : Program × List (List Byte) → Prop :=
    fun program ↦ ∀ message ∈ program.2, message.length < cfgBuffSize
  have happend : ∀ program event, invariant program → Short event →
      ∀ message ∈ program.2 ++ cfgMessages program.1 event, message.length < cfgBuffSize := by
    intro program event hinvariant hshort message hmem
    cases List.mem_append.mp hmem with
    | inl hold => exact hinvariant message hold
    | inr hnew => exact length_of_mem_cfgMessages hshort message hnew
  have hstep : ∀ program event next, invariant program → Short event →
      Trace.recording step cfgMessages program event = some next → invariant next := by
    intro program event next hinvariant hshort hnext
    obtain ⟨after, _, rfl⟩ := Option.map_eq_some_iff.mp hnext
    exact happend program event hinvariant hshort
  have hfits : ∀ program event, invariant program → Short event → CfgFits program event := by
    intro program event hinvariant hshort env hevent
    subst hevent
    refine ⟨fun message hmem ↦ ?_, fun _ ↦ ?_⟩
    · exact (length_of_mem_cfgMessages hshort message (Option.mem_toList.mpr hmem)).le
    · exact terminated_of_short (happend program _ hinvariant hshort)
  have hboot : invariant (boot settings psram logRam, []) :=
    fun _ hmem ↦ absurd hmem List.not_mem_nil
  exact Trace.along_of_along hstep hfits hboot (Trace.along_of_forall h)

theorem cfgMessage_of_prefix {inbox : Inbox} {delivery : Delivery} (h : delivery.Accepted)
    (hcommand : cfg <+: delivery.payload) :
    MqttWorking.cfgMessage inbox delivery = some delivery.payload := by
  have hlong : 3 ≤ delivery.payload.length := hcommand.length_le
  have hthree : (inbox.payloadBuf.store delivery.payload delivery.payload.length).1.take 3 =
      cfg := by
    rw [take_three_store h, Nat.sub_eq_zero_of_le hlong, List.take_zero, List.append_nil]
    exact (List.prefix_iff_eq_take.mp hcommand).symm
  have hcompare := (compareBufferToText_command
    (inbox.payloadBuf.store delivery.payload delivery.payload.length) (by decide)).mpr hthree
  rw [MqttWorking.cfgMessage, if_pos ⟨h, hcompare⟩]

/-- A boot, and one call for each message, which receives it and nothing else. -/
def receivingMessages (messages : List (List Byte)) : List Event :=
  .initModem 0 ::
    messages.map fun message ↦ .poll (PollEnv.receiving message (workingEnv fun _ ↦ 0))

theorem forall_receivingMessages {property : Event → Prop} {messages : List (List Byte)}
    (hinit : property (.initModem 0)) (hpoll : ∀ message ∈ messages,
      property (.poll (PollEnv.receiving message (workingEnv fun _ ↦ 0)))) :
    ∀ event ∈ receivingMessages messages, property event :=
  List.forall_mem_cons.mpr ⟨hinit, List.forall_mem_map.mpr hpoll⟩

theorem documented_receivingMessages (messages : List (List Byte)) :
    ∀ event ∈ receivingMessages messages, Documented event := by
  apply forall_receivingMessages
  · intro env hevent
    cases hevent
  · intro message _ env hevent delivery hdelivery
    cases hevent
    rw [← Option.some.inj hdelivery]
    exact le_rfl

theorem short_receivingMessages {messages : List (List Byte)}
    (h : ∀ message ∈ messages, message.length < cfgBuffSize) :
    ∀ event ∈ receivingMessages messages, Short event := by
  apply forall_receivingMessages
  · intro env hevent
    cases hevent
  · intro message hmem env hevent delivery hdelivery
    cases hevent
    rw [← Option.some.inj hdelivery]
    exact h message hmem

/-- The longest text that leaves a NUL behind it, and a short one. -/
def fillingTexts : List (List Byte) :=
  [configText ['4', '0', '0', '0'] ++ List.replicate 239 0x20, configText ['4', '0']]

theorem length_fillingTexts : fillingTexts.map List.length = [255, 14] := by
  simp only [fillingTexts, List.map_cons, List.map_nil, List.length_append, List.length_replicate]
  rfl

theorem isSome_run_fillingTexts :
    (Trace.run step (boot ⟨55, 35, 4000, 0⟩ (fun _ ↦ 0) [])
      (receivingMessages fillingTexts)).isSome = true := by
  have hbooted : step (boot ⟨55, 35, 4000, 0⟩ (fun _ ↦ 0) []) (.initModem 0) =
      some ⟨.remoteConfig, defaultUnit⟩ := rfl
  have hlength : (configText ['4', '0', '0', '0'] ++ List.replicate 239 (0x20 : Byte)).length ≤
      255 := by
    rw [List.length_append, List.length_replicate]
    decide
  have hdelivered := configDelivered_receiving _
    (show cfg <+: configText ['4', '0', '0', '0'] ++ List.replicate 239 0x20 from
      List.prefix_append _ _) hlength (workingEnv fun _ ↦ 0)
  have hexit := (continues_of_config hdelivered (PollEnv.succeeds_receiving _ _) defaultUnit rfl
    (by decide) (by decide)).1
  have hsecond (env : PollEnv) (unit : UnitState) :
      (step ⟨.remoteConfig, unit⟩ (.poll env)).isSome = true := by
    simp only [step]
    split <;> rfl
  rw [receivingMessages, fillingTexts, List.map_cons, List.map_cons, List.map_nil, Trace.run_cons,
    hbooted, Option.bind_some, Trace.run_cons, step_remoteConfig_continues hexit,
    Option.bind_some, Trace.run_cons]
  obtain ⟨next, hnext⟩ := Option.isSome_iff_exists.mp (hsecond _ _)
  rw [hnext]
  rfl

theorem cfgSafe_along_iff_short :
    (Trace.run step (boot ⟨55, 35, 4000, 0⟩ (fun _ ↦ 0) [])
        (receivingMessages fillingTexts)).isSome = true ∧
      Trace.Along step CfgSafe (boot ⟨55, 35, 4000, 0⟩ (fun _ ↦ 0) [])
        (receivingMessages fillingTexts) := by
  have hlengths : ∀ length ∈ fillingTexts.map List.length, length < cfgBuffSize := by
    rw [length_fillingTexts]
    decide
  have hshort : ∀ message ∈ fillingTexts, message.length < cfgBuffSize :=
    fun message hmem ↦ hlengths _ (List.mem_map.mpr ⟨message, hmem, rfl⟩)
  refine ⟨isSome_run_fillingTexts, ?_⟩
  exact (cfgSafe_along_iff ⟨55, 35, 4000, 0⟩ (fun _ ↦ 0) [] _
    (documented_receivingMessages _)).mpr (cfgFits_of_short _ _ _ (short_receivingMessages hshort))

/-- A configuration text with 297 letters behind it. -/
def longConfig : List Byte := cfg ++ List.replicate 297 65

/-- The handler copies 300 bytes to the 256 bytes of `cfg_buff`. -/
theorem not_cfgSafe_along_long :
    ¬ Trace.Along step CfgSafe (boot ⟨55, 35, 4000, 0⟩ (fun _ ↦ 0) [])
      (receivingMessages [longConfig]) := by
  intro halong
  have hlength : longConfig.length = 300 := by
    rw [longConfig, List.length_append, List.length_replicate]
    rfl
  have haccepted : (Delivery.complete longConfig).Accepted :=
    ⟨hlength.trans_le (by decide), rfl⟩
  have hmessage : MqttWorking.cfgMessage defaultUnit.inbox (Delivery.complete longConfig) =
      some longConfig :=
    cfgMessage_of_prefix haccepted (List.prefix_append _ _)
  have hcopy : cfgCopy defaultUnit.inbox (Delivery.complete longConfig) = some 300 := by
    rw [cfgCopy_eq _ le_rfl, hmessage, Option.map_some, hlength]
  have hsafe := (halong.2 ⟨.remoteConfig, defaultUnit⟩ rfl).1 _ rfl
  exact absurd (hsafe.1 _ rfl 300 hcopy) (by decide)

end Program

end NrfExamples.MqttWorking
