import NrfExamples.MqttWorking.Configuration
import NrfExamples.MqttWorking.EepromEmul
import NrfExamples.MqttWorking.Program

/-!
# Settings that a call stores

A configuration command changes the settings and writes them to the emulated EEPROM, one key after
the other, without a look at the results. What is stored under a key is the newest value whose write
succeeded; the settings in force are all values that were written.
-/

namespace NrfExamples.MqttWorking

open Memory Procedure Scanf Trace

/-! ## Writes of a call -/

/-- A write to the emulated EEPROM. -/
abbrev SettingWrite := EepromKey × UInt16

def Effect.settingWrite : Effect → Option SettingWrite
  | .eepromWrite key value => some (key, value)
  | _ => none

def settingWrites (effects : List Effect) : List SettingWrite :=
  effects.filterMap Effect.settingWrite

/-- The values under the keys behind a sequence of writes. -/
def written (values : EepromKey → UInt16) (writes : List SettingWrite) : EepromKey → UInt16 :=
  writes.foldl (fun values write ↦ Function.update values write.1 write.2) values

/-- The settings as values under keys. -/
def Settings.get (settings : Settings) : EepromKey → UInt16
  | .trigStart => settings.rmsTrigStart
  | .trigEnd => settings.rmsTrigEnd
  | .endTrigDuration => settings.rmsTrigEndDuration
  | .bme280Ena => settings.bme280Enabled

@[simp]
theorem Settings.ofKeys_get (settings : Settings) : Settings.ofKeys settings.get = settings := rfl

@[simp]
theorem Settings.get_ofKeys (values : EepromKey → UInt16) :
    (Settings.ofKeys values).get = values := by
  ext1 key
  cases key <;> rfl

theorem settingWrites_append (first second : List Effect) :
    settingWrites (first ++ second) = settingWrites first ++ settingWrites second :=
  List.filterMap_append

theorem written_append (values : EepromKey → UInt16) (first second : List SettingWrite) :
    written values (first ++ second) = written (written values first) second :=
  List.foldl_append

/-- A block that leaves the settings alone. -/
structure KeepsSettings (unit : UnitState) (call : Call) : Prop where
  settings_eq : call.state.settings = unit.settings
  writes_eq : settingWrites call.effects = []

namespace KeepsSettings

variable {unit : UnitState} {call : Call}

theorem skip (unit : UnitState) : KeepsSettings unit (.skip unit) := ⟨rfl, rfl⟩

theorem andThen {next : UnitState → Call} (h : KeepsSettings unit call)
    (hnext : ∀ unit, KeepsSettings unit (next unit)) :
    KeepsSettings unit (call.andThen next) := by
  cases hexit : call.exit with
  | some exit =>
    rw [Progress.andThen_of_returned hexit]
    exact h
  | none =>
    rw [Progress.andThen_of_continues hexit]
    constructor
    · exact (hnext call.state).settings_eq.trans h.settings_eq
    · rw [settingWrites_append, h.writes_eq, (hnext call.state).writes_eq, List.nil_append]

theorem deliver (delivery : Option Delivery) (unit : UnitState) :
    (deliver delivery unit).1.settings = unit.settings ∧
      settingWrites (MqttWorking.deliver delivery unit).2 = [] := by
  unfold MqttWorking.deliver
  split
  · exact ⟨rfl, rfl⟩
  · dsimp only
    split
    · exact ⟨rfl, rfl⟩
    · exact ⟨rfl, rfl⟩

theorem receive (env : PollEnv) (unit : UnitState) : KeepsSettings unit (receive env unit) := by
  have hdelivered :
      (if env.pollIn then MqttWorking.deliver env.delivery unit else (unit, [])).1.settings =
        unit.settings ∧
      settingWrites
        (if env.pollIn then MqttWorking.deliver env.delivery unit else (unit, [])).2 = [] := by
    split
    · exact deliver env.delivery unit
    · exact ⟨rfl, rfl⟩
  have hreturned (exit : Option Exit) : KeepsSettings unit
      ⟨(if env.pollIn then MqttWorking.deliver env.delivery unit else (unit, [])).1,
        (if env.pollIn then MqttWorking.deliver env.delivery unit else (unit, [])).2, exit⟩ :=
    ⟨hdelivered.1, hdelivered.2⟩
  unfold MqttWorking.receive
  split
  · exact ⟨rfl, rfl⟩
  · split
    · exact ⟨rfl, rfl⟩
    · dsimp only
      split
      · exact hreturned _
      · split
        · exact hreturned _
        · split
          · exact hreturned _
          · exact hreturned _

theorem dumpLog (unit : UnitState) : KeepsSettings unit (dumpLog unit) := by
  have hsilent (logRam : List Byte) (buf : Buffer 64) :
      settingWrites (dumpChunks logRam buf).2 = [] := by
    induction logRam, buf using dumpChunks.induct with
    | case1 logRam buf hne stored ih =>
      rw [dumpChunks, if_pos hne]
      exact ih
    | case2 logRam buf hnil =>
      rw [dumpChunks, if_neg hnil]
      rfl
  unfold MqttWorking.dumpLog
  split
  · exact ⟨rfl, hsilent unit.logRam unit.buf⟩
  · exact skip unit

theorem triggerReset (unit : UnitState) : KeepsSettings unit (triggerReset unit) := by
  unfold MqttWorking.triggerReset
  split
  · exact ⟨rfl, rfl⟩
  · exact skip unit

theorem skipInit (unit : UnitState) : KeepsSettings unit (skipInit unit) := by
  unfold MqttWorking.skipInit
  split
  · exact ⟨rfl, rfl⟩
  · exact skip unit

theorem aliveTimeout (unit : UnitState) : KeepsSettings unit (aliveTimeout unit) := by
  unfold MqttWorking.aliveTimeout
  split
  · dsimp only
    split
    · exact ⟨rfl, rfl⟩
    · exact ⟨rfl, rfl⟩
  · exact skip unit

theorem sendAlive (unit : UnitState) : KeepsSettings unit (sendAlive unit) := by
  unfold MqttWorking.sendAlive
  split
  · exact ⟨rfl, rfl⟩
  · exact skip unit

theorem sendData (send : SendEnv) (unit : UnitState) : KeepsSettings unit (sendData send unit) := by
  unfold MqttWorking.sendData
  split
  · exact ⟨rfl, rfl⟩
  · exact skip unit

theorem autoReset (unit : UnitState) : KeepsSettings unit (autoReset unit) := by
  unfold MqttWorking.autoReset
  split
  · dsimp only
    split
    · exact ⟨rfl, rfl⟩
    · exact ⟨rfl, rfl⟩
  · exact skip unit

end KeepsSettings

/-- The writes of the configuration block, in its order. -/
def Settings.writes (settings : Settings) : List SettingWrite :=
  [(.trigStart, settings.rmsTrigStart), (.trigEnd, settings.rmsTrigEnd),
    (.endTrigDuration, settings.rmsTrigEndDuration), (.bme280Ena, settings.bme280Enabled)]

/-- A call leaves the settings alone, or replaces all of them and writes them in order. -/
inductive Configures (unit : UnitState) (call : Call) : Prop where
  | keeps (h : KeepsSettings unit call)
  | replaces (writes_eq : settingWrites call.effects = call.state.settings.writes)

theorem Configures.andThen {unit : UnitState} {call : Call} {next : UnitState → Call}
    (h : Configures unit call) (hnext : ∀ unit, KeepsSettings unit (next unit)) :
    Configures unit (call.andThen next) := by
  cases h with
  | keeps hkeeps => exact .keeps (hkeeps.andThen hnext)
  | replaces hwrites =>
    apply Configures.replaces
    cases hexit : call.exit with
    | some exit =>
      rw [Progress.andThen_of_returned hexit]
      exact hwrites
    | none =>
      rw [Progress.andThen_of_continues hexit, settingWrites_append, hwrites,
        (hnext call.state).writes_eq, List.append_nil, ← (hnext call.state).settings_eq]

theorem configures_solveConfig (unit : UnitState) : Configures unit (solveConfig unit) := by
  unfold solveConfig
  split
  · unfold configured configWrites
    split
    · exact .replaces rfl
    · exact .keeps ⟨rfl, rfl⟩
  · exact .keeps (.skip unit)

/-- A block in front of the configuration leaves the settings alone. -/
theorem KeepsSettings.andThen_configures {unit : UnitState} {call : Call}
    {next : UnitState → Call} (h : KeepsSettings unit call)
    (hnext : ∀ unit, Configures unit (next unit)) : Configures unit (call.andThen next) := by
  cases hexit : call.exit with
  | some exit =>
    rw [Progress.andThen_of_returned hexit]
    exact .keeps h
  | none =>
    rw [Progress.andThen_of_continues hexit]
    cases hnext call.state with
    | keeps hkeeps =>
      refine .keeps ⟨hkeeps.settings_eq.trans h.settings_eq, ?_⟩
      rw [settingWrites_append, h.writes_eq, hkeeps.writes_eq, List.nil_append]
    | replaces hwrites =>
      apply Configures.replaces
      rw [settingWrites_append, h.writes_eq, List.nil_append, hwrites]

/-- Behind the configuration block the settings stay. -/
theorem KeepsSettings.behindConfig (env : PollEnv) (unit : UnitState) :
    KeepsSettings unit ((MqttWorking.dumpLog unit).andThen (afterCommands env)) := by
  refine (KeepsSettings.dumpLog unit).andThen fun unit ↦ ?_
  refine (KeepsSettings.triggerReset unit).andThen fun unit ↦ ?_
  refine (KeepsSettings.skipInit unit).andThen fun unit ↦ ?_
  refine (KeepsSettings.aliveTimeout unit).andThen fun unit ↦ ?_
  refine (KeepsSettings.sendAlive unit).andThen fun unit ↦ ?_
  exact (KeepsSettings.sendData env.send unit).andThen KeepsSettings.autoReset

theorem configures_mqttPoolingProcedure (env : PollEnv) (unit : UnitState) :
    Configures unit (mqttPoolingProcedure env unit) :=
  (KeepsSettings.receive env unit).andThen_configures fun unit ↦
    (configures_solveConfig unit).andThen (KeepsSettings.behindConfig env)

/-- A call that passes the event bits writes what its configuration block writes. -/
theorem settingWrites_of_succeeds {env : PollEnv} (h : env.Succeeds) (unit : UnitState) :
    settingWrites (mqttPoolingProcedure env unit).effects =
      settingWrites (solveConfig (delivered env unit).1).effects := by
  have hreceive : (receive env unit).exit = none := by rw [receive_of_succeeds h]
  have hsolve (unit : UnitState) : (solveConfig unit).exit = none := by
    unfold solveConfig
    split
    · rfl
    · rfl
  have hstate : (receive env unit).state = (delivered env unit).1 := by rw [receive_of_succeeds h]
  rw [mqttPoolingProcedure, Progress.andThen_of_continues hreceive, settingWrites_append,
    (KeepsSettings.receive env unit).writes_eq, List.nil_append,
    Progress.andThen_of_continues (hsolve _), settingWrites_append, hstate]
  have hbehind := (KeepsSettings.behindConfig env (solveConfig (delivered env unit).1).state)
  calc
    _ = settingWrites (solveConfig (delivered env unit).1).effects ++ [] :=
      congrArg (settingWrites (solveConfig (delivered env unit).1).effects ++ ·) hbehind.writes_eq
    _ = settingWrites (solveConfig (delivered env unit).1).effects := List.append_nil _

/-- A configuration with four numbers writes them. -/
theorem settingWrites_of_config {env : PollEnv} {message : List Byte}
    (h : ConfigDelivered env message) (hsucceeds : env.Succeeds) {unit : UnitState}
    {v1 v2 v3 v4 : UInt16}
    (hscan : sscanf (message ++ unit.inbox.cfgBuff.1.drop message.length)
      (cfgFormat ++ [.hu]) = [v1, v2, v3, v4]) :
    settingWrites (mqttPoolingProcedure env unit).effects =
      (⟨v1, v2, v3, v4⟩ : Settings).writes := by
  obtain ⟨inbox, hinbox, hflags, _, hbuff⟩ := delivered_of_config h unit
  have hrequested : inbox.flags.configRequestFlag = true := by
    rw [hflags]
    exact Bool.or_true _
  rw [settingWrites_of_succeeds hsucceeds, hinbox, solveConfig, if_pos hrequested]
  simp only [configWrites, hbuff, hscan]
  rfl

/-! ## Interrupted writes -/

/-- The position of a key among the writes. -/
def EepromKey.order : EepromKey → ℕ
  | .trigStart => 0
  | .trigEnd => 1
  | .endTrigDuration => 2
  | .bme280Ena => 3

/-- The first settings in the order of the writes are the new ones. -/
def Settings.partly (count : ℕ) (old new : Settings) : Settings :=
  Settings.ofKeys fun key ↦ if key.order < count then new.get key else old.get key

theorem Settings.partly_self (count : ℕ) (settings : Settings) :
    Settings.partly count settings settings = settings := by
  unfold Settings.partly
  simp only [ite_self]
  rfl

/-- Behind the first writes the first settings are the new ones. -/
theorem written_take_writes (count : ℕ) (old new : Settings) :
    written old.get (new.writes.take count) = (Settings.partly count old new).get := by
  rw [Settings.partly, Settings.get_ofKeys]
  ext1 key
  match count with
  | 0 => rfl
  | 1 | 2 | 3 => cases key <;> rfl
  | count + 4 =>
    have hall : new.writes.take (count + 4) = new.writes :=
      List.take_of_length_le (Nat.le_add_left 4 count)
    have hlt : key.order < count + 4 := by
      cases key <;> simp [EepromKey.order]
    rw [hall, if_pos hlt]
    cases key <;> rfl

theorem written_writes (old new : Settings) : written old.get new.writes = new.get := by
  have hall := written_take_writes 4 old new
  rw [List.take_of_length_le (by rfl)] at hall
  rw [hall]
  ext1 key
  cases key <;> rfl

/-- What the first writes of a call leave. -/
theorem Configures.written_take {unit : UnitState} {call : Call} (h : Configures unit call)
    (count : ℕ) : written unit.settings.get ((settingWrites call.effects).take count) =
      (Settings.partly count unit.settings call.state.settings).get := by
  cases h with
  | keeps hkeeps =>
    rw [hkeeps.writes_eq, hkeeps.settings_eq, Settings.partly_self, List.take_nil]
    rfl
  | replaces hwrites => rw [hwrites, written_take_writes]

/-- A call writes what it changes. -/
theorem Configures.written_eq {unit : UnitState} {call : Call} (h : Configures unit call) :
    written unit.settings.get (settingWrites call.effects) = call.state.settings.get := by
  cases h with
  | keeps hkeeps =>
    rw [hkeeps.writes_eq, hkeeps.settings_eq]
    rfl
  | replaces hwrites => rw [hwrites, written_writes]

/-! ## Writes of a boot -/

namespace Program

/-- The writes of a step. -/
def settingWrites (program : Program) : Event → List SettingWrite
  | .poll env => MqttWorking.settingWrites (mqttPoolingProcedure env program.unit).effects
  | .initModem _ | .measure _ _ => []

variable {program final next : Program} {event : Event} {events : List Event}

theorem settings_initModemAndMqtt (libInit : ℤ) (unit : UnitState) :
    (initModemAndMqtt libInit unit).settings = unit.settings := by
  unfold initModemAndMqtt
  split
  · rfl
  · rfl

theorem settings_of_step (hstep : program.step event = some next) :
    next.unit.settings.get = written program.unit.settings.get (program.settingWrites event) := by
  cases event with
  | initModem libInit =>
    have hkept := settings_initModemAndMqtt libInit program.unit
    rcases step_initModem hstep with ⟨_, rfl⟩ | ⟨_, rfl⟩
    · exact congrArg Settings.get hkept
    · exact congrArg Settings.get hkept
  | poll env =>
    rw [(step_poll hstep).2.1]
    exact (configures_mqttPoolingProcedure env program.unit).written_eq.symm
  | measure now frames =>
    obtain ⟨_, recorder, rfl⟩ := step_measure hstep
    rfl

/-- The settings of a boot are those that it has written so far. -/
theorem settings_of_run (hrun : run step program events = some final) :
    final.unit.settings.get =
      written program.unit.settings.get (outputs step settingWrites program events) := by
  induction events generalizing program with
  | nil => rw [← Option.some.inj hrun]; rfl
  | cons event events ih =>
    obtain ⟨next, hstep, hrest⟩ := Option.bind_eq_some_iff.mp hrun
    rw [ih hrest, settings_of_step hstep, outputs, hstep, written_append]
    rfl

end Program

/-! ## The EEPROM over a life of boots -/

section

variable {nvs : EntryStore}

/-- The writes in their order. No caller looks at the result of one. -/
def applyWrites (eeprom : Eeprom nvs) (writes : List SettingWrite) : Eeprom nvs :=
  writes.foldl (fun eeprom write ↦ (eepromEmulWriteU16 eeprom write.1 write.2).2) eeprom

/-- The writes that succeed. -/
def accepted (eeprom : Eeprom nvs) : List SettingWrite → List SettingWrite
  | [] => []
  | write :: writes =>
      let result := eepromEmulWriteU16 eeprom write.1 write.2
      if 0 ≤ result.1 then write :: accepted result.2 writes else accepted result.2 writes

/-- What is stored behind the writes, whether or not some of them fail. -/
theorem stored_applyWrites (eeprom : Eeprom nvs) (writes : List SettingWrite) :
    stored (applyWrites eeprom writes).fs =
      written (stored eeprom.fs) (accepted eeprom writes) := by
  induction writes generalizing eeprom with
  | nil => rfl
  | cons write writes ih =>
    calc
      stored (applyWrites eeprom (write :: writes)).fs =
          written (stored (eepromEmulWriteU16 eeprom write.1 write.2).2.fs)
            (accepted (eepromEmulWriteU16 eeprom write.1 write.2).2 writes) := ih _
      _ = written (stored eeprom.fs) (accepted eeprom (write :: writes)) := by
        rw [stored_eepromEmulWriteU16, accepted]
        by_cases hsucceeds : 0 ≤ (eepromEmulWriteU16 eeprom write.1 write.2).1
        · rw [if_pos hsucceeds, if_pos hsucceeds]
          rfl
        · rw [if_neg hsucceeds, if_neg hsucceeds]

/-- A file system that is not mounted refuses every write. -/
theorem accepted_of_not_ready {eeprom : Eeprom nvs} (hready : eeprom.ready = false)
    (writes : List SettingWrite) : accepted eeprom writes = [] := by
  induction writes with
  | nil => rfl
  | cons write writes ih =>
    have hrefused : eepromEmulWriteU16 eeprom write.1 write.2 = (-eacces, eeprom) := by
      rw [eepromEmulWriteU16, nvsWrite, hready, if_neg Bool.false_ne_true]
    rw [accepted, hrefused, if_neg (show ¬ 0 ≤ -eacces by decide)]
    exact ih

end

end NrfExamples.MqttWorking
