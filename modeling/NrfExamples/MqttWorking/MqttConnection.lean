import NrfExamples.Library.Memory
import NrfExamples.MqttWorking.Errno

/-!
# Receiving a published message

`get_received_payload` and the `MQTT_EVT_PUBLISH` case of `mqtt_evt_handler`. The receive buffer
and the configuration buffer are static: a message overwrites them from the front and leaves the
bytes behind its end. A delivery is a published message together with the results of the reads
that fetch its payload.
-/

namespace NrfExamples.MqttWorking

open Memory

def mqttBufferSize : ℕ := 2048

def cfgBuffSize : ℕ := 256

/-! ## Reading the payload -/

structure Delivery where
  payload : List Byte
  /-- Result of the blocking read with this number, counted from zero. -/
  blocking : ℕ → ℤ
  /-- Result of `mqtt_readall_publish_payload`. -/
  readall : ℤ
  /-- The bytes that a failing `mqtt_readall_publish_payload` stores before it fails. -/
  stored : ℕ

/-- The receive buffer, the part of the payload that is still to be read, and the lengths of the
blocking reads requested so far. -/
structure Receiving where
  payloadBuf : Buffer mqttBufferSize
  remaining : List Byte
  requested : List ℕ

/-- The loop that reads a payload until the rest fits. A result other than zero returns. -/
def truncatePayload (delivery : Delivery) (n : ℕ) (receiving : Receiving) : Receiving × ℤ :=
  let length := receiving.remaining.length
  if length > mqttBufferSize then
    let ret := delivery.blocking n
    let requested := receiving.requested ++ [length - mqttBufferSize]
    if ret = 0 then ({ receiving with requested := requested }, -eio)
    else if ret < 0 then ({ receiving with requested := requested }, ret)
    else truncatePayload delivery (n + 1)
      { payloadBuf := receiving.payloadBuf.store receiving.remaining ret.toNat
        remaining := receiving.remaining.drop ret.toNat
        requested := requested }
  else (receiving, 0)
termination_by receiving.remaining.length
decreasing_by
  have : length > 2048 := by assumption
  simp only [List.length_drop]
  omega

/-- `mqtt_readall_publish_payload` for the rest of the payload. -/
def readallPayload (delivery : Delivery) (receiving : Receiving) : Receiving :=
  let rest := receiving.remaining
  if delivery.readall ≠ 0 then
    { receiving with
      payloadBuf := receiving.payloadBuf.store rest (min delivery.stored rest.length) }
  else
    { receiving with
      payloadBuf := receiving.payloadBuf.store rest rest.length
      remaining := [] }

def getReceivedPayload (delivery : Delivery) (payloadBuf : Buffer mqttBufferSize) :
    Receiving × ℤ :=
  let err := if delivery.payload.length > mqttBufferSize then -emsgsize else 0
  let truncated := truncatePayload delivery 0 ⟨payloadBuf, delivery.payload, []⟩
  if truncated.2 ≠ 0 then truncated
  else
    let receiving := readallPayload delivery truncated.1
    if delivery.readall ≠ 0 then (receiving, delivery.readall) else (receiving, err)

/-- The delivery of a message whose reads succeed. -/
def Delivery.complete (payload : List Byte) : Delivery := ⟨payload, fun _ ↦ 0, 0, 0⟩

/-- The messages that `getReceivedPayload` accepts. -/
def Delivery.Accepted (delivery : Delivery) : Prop :=
  delivery.payload.length ≤ mqttBufferSize ∧ delivery.readall = 0

/-- An accepted message is stored at the front of the receive buffer. -/
theorem getReceivedPayload_of_accepted {delivery : Delivery} (h : delivery.Accepted)
    (payloadBuf : Buffer mqttBufferSize) :
    getReceivedPayload delivery payloadBuf =
      (⟨payloadBuf.store delivery.payload delivery.payload.length, [], []⟩, 0) := by
  have hlength : ¬ delivery.payload.length > mqttBufferSize := not_lt.mpr h.1
  have htruncated : truncatePayload delivery 0 ⟨payloadBuf, delivery.payload, []⟩ =
      (⟨payloadBuf, delivery.payload, []⟩, 0) := by
    rw [truncatePayload]
    exact if_neg hlength
  simp [getReceivedPayload, htruncated, readallPayload, h.2, hlength]

/-! ## Commands -/

/-- The command flags of `main.c` that the handler sets. -/
structure CommandFlags where
  mqttTriggerReset : Bool
  dumpLogFlag : Bool
  mqttSkipInitProcedure : Bool
  configRequestFlag : Bool
deriving DecidableEq

def CommandFlags.clear : CommandFlags := ⟨false, false, false, false⟩

/-- The variables shared by the handler and the polling procedure. -/
structure Inbox where
  payloadBuf : Buffer mqttBufferSize
  cfgBuff : Buffer cfgBuffSize
  flags : CommandFlags
  firstAliveFlag : UInt8

def Inbox.boot : Inbox where
  payloadBuf := Buffer.zero mqttBufferSize
  cfgBuff := Buffer.zero cfgBuffSize
  flags := CommandFlags.clear
  firstAliveFlag := 1

/-- The bytes of a string literal. -/
def ascii (text : List Char) : List Byte := text.map fun character ↦ BitVec.ofNat 8 character.toNat

def rst : List Byte := ascii ['R', 'S', 'T']

def ldm : List Byte := ascii ['L', 'D', 'M']

def skp : List Byte := ascii ['S', 'K', 'P']

def cfg : List Byte := ascii ['C', 'F', 'G']

/-- `strcmp` of the first three bytes, with a NUL behind them, and the text. -/
def compareBufferToText (buffer : Buffer mqttBufferSize) (staticText : List Byte) : Bool :=
  cString (buffer.1.take 3 ++ [0]) == staticText

/-- The four comparisons made on a received message of the given length. -/
def handleCommand (length : ℕ) (inbox : Inbox) : Inbox :=
  let inbox :=
    if compareBufferToText inbox.payloadBuf rst then
      { inbox with flags := { inbox.flags with mqttTriggerReset := true }, firstAliveFlag := 0 }
    else inbox
  let inbox :=
    if compareBufferToText inbox.payloadBuf ldm then
      { inbox with flags := { inbox.flags with dumpLogFlag := true } }
    else inbox
  let inbox :=
    if compareBufferToText inbox.payloadBuf skp then
      { inbox with flags := { inbox.flags with mqttSkipInitProcedure := true } }
    else inbox
  if compareBufferToText inbox.payloadBuf cfg then
    { inbox with
      cfgBuff := inbox.cfgBuff.store inbox.payloadBuf.1 length
      flags := { inbox.flags with configRequestFlag := true } }
  else inbox

/-- The `MQTT_EVT_PUBLISH` case, and whether it disconnects the client. -/
def mqttEvtHandler (inbox : Inbox) (delivery : Delivery) : Inbox × Bool :=
  let received := getReceivedPayload delivery inbox.payloadBuf
  let inbox := { inbox with payloadBuf := received.1.payloadBuf }
  if received.2 ≥ 0 then (handleCommand delivery.payload.length inbox, false)
  else if received.2 = -emsgsize then (inbox, false)
  else (inbox, true)

/-! ## What a message sets -/

/-- The flags set by a message in the receive buffer. -/
def recognised (payloadBuf : Buffer mqttBufferSize) : CommandFlags where
  mqttTriggerReset := compareBufferToText payloadBuf rst
  dumpLogFlag := compareBufferToText payloadBuf ldm
  mqttSkipInitProcedure := compareBufferToText payloadBuf skp
  configRequestFlag := compareBufferToText payloadBuf cfg

def CommandFlags.union (flags other : CommandFlags) : CommandFlags where
  mqttTriggerReset := flags.mqttTriggerReset || other.mqttTriggerReset
  dumpLogFlag := flags.dumpLogFlag || other.dumpLogFlag
  mqttSkipInitProcedure := flags.mqttSkipInitProcedure || other.mqttSkipInitProcedure
  configRequestFlag := flags.configRequestFlag || other.configRequestFlag

/-- The handler adds the recognised flags, clears the alive flag on a reset request and copies a
configuration request. -/
theorem handleCommand_eq (length : ℕ) (inbox : Inbox) :
    handleCommand length inbox =
      { payloadBuf := inbox.payloadBuf
        cfgBuff := if compareBufferToText inbox.payloadBuf cfg then
          inbox.cfgBuff.store inbox.payloadBuf.1 length else inbox.cfgBuff
        flags := inbox.flags.union (recognised inbox.payloadBuf)
        firstAliveFlag :=
          if compareBufferToText inbox.payloadBuf rst then 0 else inbox.firstAliveFlag } := by
  cases hrst : compareBufferToText inbox.payloadBuf rst <;>
    cases hldm : compareBufferToText inbox.payloadBuf ldm <;>
      cases hskp : compareBufferToText inbox.payloadBuf skp <;>
        cases hcfg : compareBufferToText inbox.payloadBuf cfg <;>
          simp [handleCommand, recognised, CommandFlags.union, hrst, hldm, hskp, hcfg]

/-- The receive buffer behind an accepted message. -/
theorem mqttEvtHandler_of_accepted {delivery : Delivery} (h : delivery.Accepted) (inbox : Inbox) :
    mqttEvtHandler inbox delivery = (handleCommand delivery.payload.length { inbox with
      payloadBuf := inbox.payloadBuf.store delivery.payload delivery.payload.length }, false) := by
  simp [mqttEvtHandler, getReceivedPayload_of_accepted h]

/-- A request for a reset clears the alive flag, and nothing else changes it. -/
theorem firstAliveFlag_mqttEvtHandler (inbox : Inbox) (delivery : Delivery) :
    (mqttEvtHandler inbox delivery).1.firstAliveFlag = inbox.firstAliveFlag ∨
      (mqttEvtHandler inbox delivery).1.flags.mqttTriggerReset = true ∧
        (mqttEvtHandler inbox delivery).1.firstAliveFlag = 0 := by
  unfold mqttEvtHandler
  simp only
  by_cases haccepted : (getReceivedPayload delivery inbox.payloadBuf).2 ≥ 0
  · rw [if_pos haccepted, handleCommand_eq]
    cases hrst : compareBufferToText
      (getReceivedPayload delivery inbox.payloadBuf).1.payloadBuf rst with
    | false => exact Or.inl rfl
    | true => exact Or.inr ⟨by simp [CommandFlags.union, recognised, hrst], rfl⟩
  · rw [if_neg haccepted]
    split <;> exact Or.inl rfl

/-- A text of three characters is compared with the first three bytes. -/
theorem compareBufferToText_iff (buffer : Buffer mqttBufferSize) {text : List Byte}
    (hlength : text.length = 3) (hnul : ∀ byte ∈ text, byte ≠ 0) :
    compareBufferToText buffer text = true ↔ buffer.1.take 3 = text := by
  have hthree : (buffer.1.take 3).length = 3 := by
    rw [List.length_take, buffer.2]
    rfl
  rw [compareBufferToText, beq_iff_eq]
  constructor
  · intro htext
    have hbegin : text <+: buffer.1.take 3 ++ [0] := htext ▸ List.takeWhile_prefix _
    have hwithin : text <+: buffer.1.take 3 :=
      List.prefix_of_prefix_length_le hbegin (List.prefix_append _ _)
        (hlength.trans hthree.symm).le
    exact (hwithin.eq_of_length (hlength.trans hthree.symm)).symm
  · intro htext
    have hnone : (0 : Byte) ∉ text := fun hmem ↦ hnul 0 hmem rfl
    rw [htext, cString_append_of_no_nul hnone]
    exact List.append_nil text

end NrfExamples.MqttWorking
