import NrfExamples.Library.Procedure
import NrfExamples.Library.Scanf
import NrfExamples.MqttWorking.Measurement
import NrfExamples.MqttWorking.MqttConnection
import NrfExamples.MqttWorking.Sender

/-!
# The polling procedure

`mqtt_pooling_procedure` as a chain of blocks in the order of the source. The results of `poll`,
`mqtt_live`, `mqtt_input`, the event bits, a delivered message, the PSRAM reads and the publishes
are inputs of a call. The calls that leave the unit are listed as effects in their order; a call
returns one, returns minus one, or ends in `sys_reboot`.
-/

namespace NrfExamples.MqttWorking

open Memory Procedure Scanf

/-! ## State, inputs and effects -/

/-- The variables of the unit that a polling call reads or writes. -/
structure UnitState where
  inbox : Inbox
  settings : Settings
  initialStageTimeoutCounter : UInt32
  autoResetCounterAfterSuccesfulMeasurement : UInt16
  dataReadyToSend : Bool
  recorder : Recorder
  logRam : List Byte
  buf : Buffer 64
  /-- Whether the modem library is initialised. -/
  modemLib : Bool

/-- The variables at boot. The settings come from the emulated EEPROM, and the log survives a warm
reset. -/
def UnitState.boot (settings : Settings) (psram : Store) (logRam : List Byte) : UnitState where
  inbox := Inbox.boot
  settings := settings
  initialStageTimeoutCounter := 0
  autoResetCounterAfterSuccesfulMeasurement := 0
  dataReadyToSend := false
  recorder := Recorder.boot psram
  logRam := logRam
  buf := Buffer.zero 64
  modemLib := false

/-- The outcomes of the calls that one polling call makes. -/
structure PollEnv where
  poll : ℤ
  mqttLive : ℤ
  pollIn : Bool
  pollErr : Bool
  pollNval : Bool
  mqttInput : ℤ
  /-- The published message that `mqtt_input` hands to the handler. -/
  delivery : Option Delivery
  send : SendEnv

/-- A call in which every step succeeds and nothing is received. -/
def PollEnv.quiet (send : SendEnv) : PollEnv where
  poll := 0
  mqttLive := 0
  pollIn := false
  pollErr := false
  pollNval := false
  mqttInput := 0
  delivery := none
  send := send

/-- A quiet call in which a message is received as well. -/
def PollEnv.receiving (payload : List Byte) (send : SendEnv) : PollEnv :=
  { PollEnv.quiet send with pollIn := true, delivery := some (Delivery.complete payload) }

inductive EepromKey where
  | trigStart
  | trigEnd
  | endTrigDuration
  | bme280Ena
deriving DecidableEq

inductive Effect where
  | mqttDisconnect
  | lteOffline
  | modemShutdown
  | eepromWrite (key : EepromKey) (value : UInt16)
  | logPublish (bytes : List Byte)
  | alivePublish
  | telemetry
  | transmission (published : List SeedPacket)

inductive Exit where
  | minusOne
  | reboot
deriving DecidableEq

abbrev Call := Progress UnitState Effect Exit

/-! ## Receiving -/

/-- Hand a delivered message to the handler. -/
def deliver (delivery : Option Delivery) (unit : UnitState) : UnitState × List Effect :=
  match delivery with
  | none => (unit, [])
  | some delivery =>
      let handled := mqttEvtHandler unit.inbox delivery
      ({ unit with inbox := handled.1 }, if handled.2 then [.mqttDisconnect] else [])

/-- The block up to the tests of the event bits. -/
def receive (env : PollEnv) (unit : UnitState) : Call :=
  if env.poll < 0 then ⟨unit, [], some .minusOne⟩
  else if env.mqttLive ≠ 0 ∧ env.mqttLive ≠ -eagain then ⟨unit, [], some .minusOne⟩
  else
    let delivered := if env.pollIn then deliver env.delivery unit else (unit, [])
    if env.pollIn ∧ env.mqttInput ≠ 0 then ⟨delivered.1, delivered.2, some .minusOne⟩
    else if env.pollErr then ⟨delivered.1, delivered.2, some .minusOne⟩
    else if env.pollNval then ⟨delivered.1, delivered.2, some .minusOne⟩
    else ⟨delivered.1, delivered.2, none⟩

/-! ## Commands -/

/-- The text `CFG` and three numbers of the format. The last number follows it. -/
def cfgFormat : List Directive :=
  cfg.map .literal ++ [.space, .hu, .space, .hu, .space, .hu, .space]

/-- The settings behind a configuration text: four numbers replace them. -/
def configured (text : List Byte) (settings : Settings) : Settings :=
  match sscanf text (cfgFormat ++ [.hu]) with
  | [v1, v2, v3, v4] => ⟨v1, v2, v3, v4⟩
  | _ => settings

/-- What is written to the emulated EEPROM for a configuration text. -/
def configWrites (text : List Byte) : List Effect :=
  match sscanf text (cfgFormat ++ [.hu]) with
  | [v1, v2, v3, v4] =>
      [.eepromWrite .trigStart v1, .eepromWrite .trigEnd v2, .eepromWrite .endTrigDuration v3,
        .eepromWrite .bme280Ena v4]
  | _ => []

def solveConfig (unit : UnitState) : Call :=
  if unit.inbox.flags.configRequestFlag then
    { state := { unit with
        inbox := { unit.inbox with
          flags := { unit.inbox.flags with configRequestFlag := false } }
        settings := configured unit.inbox.cfgBuff.1 unit.settings }
      effects := configWrites unit.inbox.cfgBuff.1
      exit := none }
  else .skip unit

/-- The dump loop: every turn publishes the whole of `buf`. -/
def dumpChunks (logRam : List Byte) (buf : Buffer 64) : Buffer 64 × List Effect :=
  if logRam ≠ [] then
    let buf := buf.store logRam (min 64 logRam.length)
    let rest := dumpChunks (logRam.drop 64) buf
    (rest.1, .logPublish buf.1 :: rest.2)
  else (buf, [])
termination_by logRam.length
decreasing_by
  have := List.length_pos_iff.mpr (by assumption)
  simp only [List.length_drop]
  omega

def dumpLog (unit : UnitState) : Call :=
  if unit.inbox.flags.dumpLogFlag then
    let dumped := dumpChunks unit.logRam unit.buf
    { state := { unit with
        inbox := { unit.inbox with flags := { unit.inbox.flags with dumpLogFlag := false } }
        logRam := []
        buf := dumped.1 }
      effects := dumped.2
      exit := none }
  else .skip unit

/-- Disconnect, go offline and shut the modem library down. -/
def leaveNetwork (exit : Exit) (unit : UnitState) : Call where
  state := { unit with modemLib := false }
  effects := [.mqttDisconnect, .lteOffline, .modemShutdown]
  exit := some exit

def triggerReset (unit : UnitState) : Call :=
  if unit.inbox.flags.mqttTriggerReset then
    leaveNetwork .reboot { unit with
      inbox := { unit.inbox with flags := { unit.inbox.flags with mqttTriggerReset := false } } }
  else .skip unit

def skipInit (unit : UnitState) : Call :=
  if unit.inbox.flags.mqttSkipInitProcedure then
    leaveNetwork .minusOne { unit with
      inbox := { unit.inbox with
        flags := { unit.inbox.flags with mqttSkipInitProcedure := false } } }
  else .skip unit

/-! ## Alive message -/

def aliveTimeout (unit : UnitState) : Call :=
  if unit.inbox.firstAliveFlag = 2 then
    let unit := { unit with initialStageTimeoutCounter := unit.initialStageTimeoutCounter + 1 }
    if unit.initialStageTimeoutCounter = 2 then leaveNetwork .minusOne unit else .skip unit
  else .skip unit

def sendAlive (unit : UnitState) : Call :=
  if unit.inbox.firstAliveFlag = 1 then
    { state := { unit with inbox := { unit.inbox with firstAliveFlag := 2 } }
      effects := [.alivePublish]
      exit := none }
  else .skip unit

/-! ## Data and automatic reset -/

def sendData (env : SendEnv) (unit : UnitState) : Call :=
  if unit.dataReadyToSend then
    let sent := sendMeasuredTrainDataWithMultiplePacketsFromFlash env unit.recorder
    { state := { unit with dataReadyToSend := false, recorder := sent.recorder }
      effects := [.telemetry, .transmission sent.published]
      exit := none }
  else .skip unit

def autoReset (unit : UnitState) : Call :=
  if unit.autoResetCounterAfterSuccesfulMeasurement > 0 then
    let unit := { unit with
      autoResetCounterAfterSuccesfulMeasurement :=
        unit.autoResetCounterAfterSuccesfulMeasurement - 1 }
    if unit.autoResetCounterAfterSuccesfulMeasurement = 0 then leaveNetwork .reboot unit
    else .skip unit
  else .skip unit

/-- A call without an exit returns one. -/
def mqttPoolingProcedure (env : PollEnv) (unit : UnitState) : Call :=
  (receive env unit).andThen fun unit ↦
  (solveConfig unit).andThen fun unit ↦
  (dumpLog unit).andThen fun unit ↦
  (triggerReset unit).andThen fun unit ↦
  (skipInit unit).andThen fun unit ↦
  (aliveTimeout unit).andThen fun unit ↦
  (sendAlive unit).andThen fun unit ↦
  (sendData env.send unit).andThen autoReset

end NrfExamples.MqttWorking
