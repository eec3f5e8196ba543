import NrfExamples.MqttWorking.ConfigText
import NrfExamples.MqttWorking.StoredSettings
import NrfExamples.MqttWorking.UnitLife

/-!
# Settings that outlive a reboot

What a boot finds under a key is the newest value whose write succeeded; a boot whose file system is
not mounted writes nothing and runs with the defaults. Where no write fails, the EEPROM therefore
keeps the settings of the last mounted boot. If the power fails between two writes, the next boot
runs with the first ones of the new settings and the others as they were. A received text leaves its
four numbers for the next boot exactly if each of them was stored or had been stored before.
-/

namespace NrfExamples.MqttWorking

open Memory Scanf Trace

section

variable {nvs : EntryStore}

/-- The calls that mount the file system succeed. -/
structure MountEnv.Mounts (env : MountEnv) : Prop where
  deviceReady : env.deviceReady = true
  pageInfo : env.flashGetPageInfo = 0
  nvsMount : env.nvsMount = 0

instance (env : MountEnv) : Decidable env.Mounts :=
  decidable_of_iff (env.deviceReady = true ∧ env.flashGetPageInfo = 0 ∧ env.nvsMount = 0)
    ⟨fun h ↦ ⟨h.1, h.2.1, h.2.2⟩, fun h ↦ ⟨h.deviceReady, h.pageInfo, h.nvsMount⟩⟩

/-- The initialisation touches no entry, and it mounts the file system if its calls succeed. -/
theorem eepromEmulInit_eq (env : MountEnv) (fs : nvs.State) :
    (eepromEmulInit env fs).2 = ⟨fs, decide env.Mounts⟩ := by
  unfold eepromEmulInit
  split
  · rw [decide_eq_false fun hmounts ↦ ‹¬ _› hmounts.deviceReady]
  · split
    · rw [decide_eq_false fun hmounts ↦ ‹_ ≠ (0 : ℤ)› hmounts.pageInfo]
    · split
      · rw [decide_eq_false fun hmounts ↦ ‹_ ≠ (0 : ℤ)› hmounts.nvsMount]
      · rw [decide_eq_true ⟨not_not.mp ‹_›, not_not.mp ‹¬ env.flashGetPageInfo ≠ 0›,
          not_not.mp ‹_›⟩]

/-- One boot: whether the file system can be mounted, and the events of the program. -/
structure Powered where
  mount : MountEnv
  events : List Event

variable (nvs) in
/-- What outlives a reboot. -/
structure EepromLife where
  fs : nvs.State
  psram : Store
  logRam : List Byte
  recordings : List (List SeedPacket)

namespace EepromLife

/-- The EEPROM behind the load of a boot, and the settings it loads. -/
def load (life : EepromLife nvs) (mount : MountEnv) : Settings × Eeprom nvs :=
  loadSettings (eepromEmulInit mount life.fs).2

/-- The program behind the load. -/
def program (life : EepromLife nvs) (mount : MountEnv) : Program :=
  Program.boot (life.load mount).1 life.psram life.logRam

/-- The writes of a boot. -/
def writes (life : EepromLife nvs) (powered : Powered) : List SettingWrite :=
  outputs Program.step Program.settingWrites (life.program powered.mount) powered.events

/-- The writes of a boot that succeed. -/
def accepted (life : EepromLife nvs) (powered : Powered) : List SettingWrite :=
  MqttWorking.accepted (life.load powered.mount).2 (life.writes powered)

/-- A boot that ends in the reboot. -/
def boot (life : EepromLife nvs) (powered : Powered) : Option (EepromLife nvs) :=
  let program := life.program powered.mount
  (run Program.step program powered.events).bind fun final ↦
    if final.stage = .ended then
      some
        { fs := (applyWrites (life.load powered.mount).2 (life.writes powered)).fs
          psram := final.unit.recorder.psram
          logRam := final.unit.logRam
          recordings := life.recordings ++
            outputs Program.step Program.transmissions program powered.events }
    else none

/-- No write of a boot with a mounted file system fails. -/
def NoWriteFails (life : EepromLife nvs) (powered : Powered) : Prop :=
  powered.mount.Mounts → life.accepted powered = life.writes powered

/-- The life with the settings that its EEPROM stores. -/
def life (life : EepromLife nvs) : Life :=
  ⟨Settings.ofKeys (stored life.fs), life.psram, life.logRam, life.recordings⟩

end EepromLife

def Settings.default : Settings := Settings.ofKeys EepromKey.default

/-- A boot without its file system runs with the defaults and keeps the settings for later. -/
def Life.powered (life : Life) (powered : Powered) : Option Life :=
  if powered.mount.Mounts then life.boot powered.events
  else (Life.boot { life with settings := .default } powered.events).map fun next ↦
    { next with settings := life.settings }

namespace EepromLife

variable {life : EepromLife nvs} {mount : MountEnv}

theorem load_of_mounts (h : mount.Mounts) : (life.load mount).1 = life.life.settings ∧
    stored (life.load mount).2.fs = stored life.fs := by
  rw [load, eepromEmulInit_eq, decide_eq_true h]
  have hready : (⟨life.fs, true⟩ : Eeprom nvs).ready = true := rfl
  exact ⟨(loadSettings_of_ready hready).1, (loadSettings_of_ready hready).2.1⟩

theorem load_of_not_mounts (h : ¬ mount.Mounts) :
    life.load mount = (.default, ⟨life.fs, false⟩) := by
  rw [load, eepromEmulInit_eq, decide_eq_false h]
  exact loadSettings_of_not_ready rfl

theorem ready_load (h : mount.Mounts) : (life.load mount).2.ready = true := by
  rw [load, eepromEmulInit_eq, decide_eq_true h]
  exact (loadSettings_of_ready rfl).2.2

/-- A load stores nothing that a later boot would find different. -/
theorem stored_load (life : EepromLife nvs) (mount : MountEnv) :
    stored (life.load mount).2.fs = stored life.fs := by
  by_cases h : mount.Mounts
  · exact (load_of_mounts h).2
  · rw [load_of_not_mounts h]

/-- A mounted boot loads what is stored. -/
theorem load_of_stored {eeprom : Eeprom nvs} (h : mount.Mounts) :
    (loadSettings (eepromEmulInit mount eeprom.fs).2).1 = Settings.ofKeys (stored eeprom.fs) := by
  rw [eepromEmulInit_eq, decide_eq_true h]
  exact (loadSettings_of_ready rfl).1

/-- In a mounted boot the settings in force are those stored before, overwritten by the writes. -/
theorem settings_of_run (h : mount.Mounts) {events : List Event} {program : Program}
    (hrun : run Program.step (life.program mount) events = some program) :
    program.unit.settings.get = written (stored life.fs)
      (outputs Program.step Program.settingWrites (life.program mount) events) := by
  have hboot : (life.program mount).unit.settings.get = stored life.fs := by
    calc
      (life.program mount).unit.settings.get = (life.load mount).1.get := rfl
      _ = stored life.fs := by rw [(load_of_mounts h).1, EepromLife.life, Settings.get_ofKeys]
  rw [Program.settings_of_run hrun, hboot]

/-- What the writes of a boot leave stored. -/
theorem stored_writes (life : EepromLife nvs) (mount : MountEnv) (writes : List SettingWrite) :
    stored (applyWrites (life.load mount).2 writes).fs =
      written (stored life.fs) (MqttWorking.accepted (life.load mount).2 writes) := by
  rw [stored_applyWrites, stored_load]

theorem accepted_of_not_mounts {powered : Powered} (h : ¬ powered.mount.Mounts) :
    life.accepted powered = [] := by
  rw [accepted, load_of_not_mounts h]
  exact accepted_of_not_ready rfl _

/-- What a boot adds to a life. -/
theorem map_life_boot (life : EepromLife nvs) (powered : Powered) :
    (life.boot powered).map EepromLife.life =
      (run Program.step (life.program powered.mount) powered.events).bind fun final ↦
        if final.stage = .ended then
          some ⟨Settings.ofKeys (written (stored life.fs) (life.accepted powered)),
            final.unit.recorder.psram, final.unit.logRam,
            life.recordings ++ outputs Program.step Program.transmissions
              (life.program powered.mount) powered.events⟩
        else none := by
  rw [boot, Option.map_bind]
  congr 1
  ext1 final
  rw [Function.comp_apply, apply_ite (Option.map EepromLife.life), accepted, ← stored_writes]
  rfl

/-- A boot in which no write fails is a boot of the life with kept settings. -/
theorem boot_refines (life : EepromLife nvs) (powered : Powered)
    (hnever : life.NoWriteFails powered) :
    (life.boot powered).map EepromLife.life = life.life.powered powered := by
  rw [map_life_boot]
  by_cases hmounts : powered.mount.Mounts
  · rw [Life.powered, if_pos hmounts]
    have hprogram : life.program powered.mount =
        Program.boot life.life.settings life.life.psram life.life.logRam := by
      rw [program, (load_of_mounts hmounts).1]
      rfl
    rw [Life.boot, ← hprogram]
    apply Option.bind_congr
    intro final hfinal
    rw [hnever hmounts, writes, ← settings_of_run hmounts (Option.mem_def.mp hfinal),
      Settings.ofKeys_get]
    rfl
  · rw [Life.powered, if_neg hmounts, Life.boot, Option.map_bind]
    have hprogram : life.program powered.mount =
        Program.boot .default life.life.psram life.life.logRam := by
      rw [program, load_of_not_mounts hmounts]
      rfl
    simp only [accepted_of_not_mounts hmounts, hprogram]
    congr 1
    ext1 final
    rw [Function.comp_apply, apply_ite (Option.map _)]
    rfl

/-- A boot leaves what was stored before it, overwritten by its writes that succeed. -/
theorem stored_of_boot {powered : Powered} {next : EepromLife nvs}
    (hboot : life.boot powered = some next) :
    stored next.fs = written (stored life.fs) (life.accepted powered) := by
  obtain ⟨final, _, hended⟩ := Option.bind_eq_some_iff.mp hboot
  obtain ⟨_, hnext⟩ := Option.ite_none_right_eq_some.mp hended
  rw [← Option.some.inj hnext]
  exact stored_writes life powered.mount _

/-- Over any number of boots, mounted or not, a boot finds under each key the newest value whose
write succeeded. Where no write fails, the EEPROM refines the kept settings. -/
theorem run_refines (life : EepromLife nvs) (boots : List Powered) :
    (∀ final, run boot life boots = some final →
      stored final.fs = written (stored life.fs) (outputs boot EepromLife.accepted life boots)) ∧
    (Along boot NoWriteFails life boots →
      (run boot life boots).map EepromLife.life = run Life.powered life.life boots) := by
  constructor
  · intro final hrun
    have hstep : ∀ (history : List SettingWrite) (state : EepromLife nvs) (powered : Powered)
        (next : EepromLife nvs), True → stored state.fs = written (stored life.fs) history →
        boot state powered = some next →
        stored next.fs = written (stored life.fs) (history ++ state.accepted powered) := by
      intro history state powered next _ hstored hboot
      rw [stored_of_boot hboot, hstored, written_append]
    have hinit : stored life.fs = written (stored life.fs) [] := rfl
    have hany : ∀ powered ∈ boots, True := fun _ _ ↦ trivial
    exact outputs_invariant hstep hinit (along_of_forall hany) hrun
  · exact run_map boot_refines

/-- If the power fails behind the first writes of a polling call, at any point of a boot, the next
boot finds under each key the newest value whose write succeeded. In a mounted boot in which no
write failed these are the first ones of the new settings and the others as they were. -/
theorem settings_after_cut {later : MountEnv} (hlater : later.Mounts) {events : List Event}
    {program : Program} (hrun : run Program.step (life.program mount) events = some program)
    (env : PollEnv) (count : ℕ) :
    let call := mqttPoolingProcedure env program.unit
    let eeprom := (life.load mount).2
    let writes := outputs Program.step Program.settingWrites (life.program mount) events ++
      (settingWrites call.effects).take count
    let next := (loadSettings (eepromEmulInit later (applyWrites eeprom writes).fs).2).1
    next = Settings.ofKeys (written (stored life.fs) (MqttWorking.accepted eeprom writes)) ∧
      (mount.Mounts → MqttWorking.accepted eeprom writes = writes →
        next = Settings.partly count program.unit.settings call.state.settings) := by
  intro call eeprom writes next
  have hnext : next =
      Settings.ofKeys (written (stored life.fs) (MqttWorking.accepted eeprom writes)) := by
    rw [← stored_writes]
    exact load_of_stored hlater
  refine ⟨hnext, fun hmounts haccepted ↦ ?_⟩
  calc
    next = Settings.ofKeys (written (stored life.fs) writes) := by rw [hnext, haccepted]
    _ = Settings.ofKeys (written program.unit.settings.get
        ((settingWrites call.effects).take count)) := by
      rw [written_append, ← settings_of_run hmounts hrun]
    _ = Settings.partly count program.unit.settings call.state.settings := by
      rw [(configures_mqttPoolingProcedure env program.unit).written_take, Settings.ofKeys_get]

/-- A call that receives the text writes its four numbers. -/
theorem settingWrites_of_text {env : PollEnv} {unit : UnitState} {settings : Settings}
    (h : TextReceived env unit settings) :
    settingWrites (mqttPoolingProcedure env unit).effects = settings.writes :=
  settingWrites_of_config h.delivered h.succeeds (sscanf_text settings h.stops)

def workingMount : MountEnv := ⟨true, 0, 0⟩

theorem mounts_workingMount : workingMount.Mounts := ⟨rfl, rfl, rfl⟩

/-- A unit that was never configured, with the given worn entries. -/
def newLife (worn : ℕ → Bool) : EepromLife (EntryStore.inMemory worn) :=
  ⟨fun _ ↦ none, fun _ ↦ 0, [], []⟩

theorem accepted_inMemory {worn : ℕ → Bool} (hworn : ∀ id, worn id = false)
    {eeprom : Eeprom (EntryStore.inMemory worn)} (hready : eeprom.ready = true)
    (writes : List SettingWrite) : MqttWorking.accepted eeprom writes = writes := by
  induction writes generalizing eeprom with
  | nil => rfl
  | cons write writes ih =>
    have hstored : 0 ≤ (eepromEmulWriteU16 eeprom write.1 write.2).1 := by
      simp only [eepromEmulWriteU16, nvsWrite, hready, EntryStore.inMemory, hworn]
      exact Int.natCast_nonneg _
    rw [MqttWorking.accepted, if_pos hstored]
    exact congrArg (write :: ·) (ih ((ready_eepromEmulWriteU16 _ _).trans hready))

/-- The settings of a first configuration. -/
def firstSettings : Settings := ⟨0, 2, 0, 1⟩

def receivingFirst : PollEnv := PollEnv.receiving firstSettings.text (workingEnv fun _ ↦ 0)

/-- A short recording, and the end of the boot with the next call. -/
def endOfBoot : List Event :=
  [.poll Program.failingPoll, Program.shortMeasurement, .initModem 0, .poll Program.failingPoll]

/-- A boot that is configured before it makes its recording. -/
def configuredBoot : List Event := .initModem 0 :: .poll receivingFirst :: endOfBoot

theorem run_endOfBoot (unit : UnitState) (hsettings : unit.settings = firstSettings) :
    ∃ final, run Program.step ⟨.remoteConfig, unit⟩ endOfBoot = some final ∧
      final.stage = .ended ∧ final.unit.settings = firstSettings := by
  obtain ⟨recorder, hmeasure⟩ := Program.step_shortMeasurement unit hsettings
  let again : UnitState :=
    { Program.initModemAndMqtt 0 (Program.dataReady recorder unit) with
      autoResetCounterAfterSuccesfulMeasurement := 6 }
  have hkept : again.settings = unit.settings := Program.settings_initModemAndMqtt 0 _
  refine ⟨⟨.ended, again⟩, ?_, rfl, hkept.trans hsettings⟩
  calc
    run Program.step ⟨.remoteConfig, unit⟩ endOfBoot =
        (Program.step ⟨.measuring, unit⟩ Program.shortMeasurement).bind
          (run Program.step · [.initModem 0, .poll Program.failingPoll]) := rfl
    _ = (Program.step ⟨.dataStage, again⟩ (.poll Program.failingPoll)).bind some := by
      rw [hmeasure]
      rfl
    _ = some ⟨.ended, again⟩ := by rw [Life.step_failingPoll, Option.bind_some]

/-- The configuration of a unit that has just booted. -/
theorem step_receivingFirst {unit : UnitState} (hinbox : unit.inbox = Inbox.boot)
    (hauto : unit.autoResetCounterAfterSuccesfulMeasurement = 0) :
    ∃ next : UnitState, Program.step ⟨.remoteConfig, unit⟩ (.poll receivingFirst) =
      some ⟨.remoteConfig, next⟩ ∧ next.settings = firstSettings := by
  have hreceived : TextReceived receivingFirst unit firstSettings :=
    textReceived_of_boot firstSettings hinbox _
  have hflags : unit.inbox.flags = CommandFlags.clear := congrArg Inbox.flags hinbox
  have halive : unit.inbox.firstAliveFlag ≠ 2 := by
    rw [hinbox]
    decide
  have hzero : ¬ unit.autoResetCounterAfterSuccesfulMeasurement > 0 := by
    rw [hauto]
    decide
  have hexit := continues_of_config hreceived.delivered hreceived.succeeds unit hflags halive hzero
  exact ⟨_, Program.step_remoteConfig_continues hexit.1, settings_of_text hreceived⟩

theorem run_configuredBoot (settings : Settings) (psram : Store) (logRam : List Byte) :
    ∃ final, run Program.step (Program.boot settings psram logRam) configuredBoot = some final ∧
      final.stage = .ended ∧ final.unit.settings = firstSettings := by
  let booted : UnitState := { UnitState.boot settings psram logRam with modemLib := true }
  have hbooted : Program.step (Program.boot settings psram logRam) (.initModem 0) =
      some ⟨.remoteConfig, booted⟩ := rfl
  have hinbox : booted.inbox = Inbox.boot := rfl
  obtain ⟨unit, hconfigured, hsettings⟩ := step_receivingFirst hinbox rfl
  rw [configuredBoot, run_cons, hbooted, Option.bind_some, run_cons, hconfigured]
  exact run_endOfBoot unit hsettings

theorem boot_configuredBoot (life : Life) :
    ∃ next, life.boot configuredBoot = some next ∧ next.settings = firstSettings := by
  obtain ⟨final, hrun, hended, hsettings⟩ :=
    run_configuredBoot life.settings life.psram life.logRam
  refine ⟨⟨final.unit.settings, final.unit.recorder.psram, final.unit.logRam,
    life.recordings ++ outputs Program.step Program.transmissions
      (Program.boot life.settings life.psram life.logRam) configuredBoot⟩, ?_, hsettings⟩
  rw [Life.boot, hrun, Option.bind_some, if_pos hended]

/-- The first boot is configured and stores the settings, the second one cannot. -/
def configuredLife : List Powered :=
  [⟨workingMount, configuredBoot⟩, ⟨⟨true, 0, -5⟩, configuredBoot⟩]

theorem run_configuredLife (life : Life) :
    ∃ final, run Life.powered life configuredLife = some final ∧
      final.settings = firstSettings := by
  obtain ⟨stored, hstored, hsettings⟩ := boot_configuredBoot life
  obtain ⟨refused, hrefused, _⟩ := boot_configuredBoot { stored with settings := .default }
  have hfirst : Life.powered life ⟨workingMount, configuredBoot⟩ = some stored :=
    (if_pos mounts_workingMount).trans hstored
  have hsecond : Life.powered stored ⟨⟨true, 0, -5⟩, configuredBoot⟩ =
      some { refused with settings := stored.settings } := by
    rw [Life.powered, if_neg (by decide), hrefused, Option.map_some]
  refine ⟨{ refused with settings := stored.settings }, ?_, hsettings⟩
  rw [configuredLife, run_cons, hfirst, Option.bind_some, run_cons, hsecond]
  rfl

theorem noWriteFails_newLife (boots : List Powered) :
    Along boot NoWriteFails (newLife fun _ ↦ false) boots := by
  have hany : ∀ powered ∈ boots, True := fun _ _ ↦ trivial
  have hkept : ∀ (life : EepromLife (EntryStore.inMemory fun _ ↦ false)) (powered : Powered),
      True → life.NoWriteFails powered :=
    fun _ _ _ hmounts ↦ accepted_inMemory (fun _ ↦ rfl) (ready_load hmounts) _
  exact (along_of_forall hany).mono hkept

theorem run_refines_configured :
    ∃ final, run boot (newLife fun _ ↦ false) configuredLife = some final ∧
      run Life.powered (newLife fun _ ↦ false).life configuredLife = some final.life ∧
      final.life.settings = firstSettings := by
  have hrefines := (run_refines (newLife fun _ ↦ false) configuredLife).2 (noWriteFails_newLife _)
  obtain ⟨kept, hrun, hsettings⟩ := run_configuredLife (newLife fun _ ↦ false).life
  rw [hrun] at hrefines
  obtain ⟨final, hfinal, rfl⟩ := Option.map_eq_some_iff.mp hrefines
  exact ⟨final, hfinal, hrun, hsettings⟩

/-- The EEPROM of a new unit whose call receives the first configuration, when the power fails
behind the second write. -/
def cutEeprom (worn : ℕ → Bool) : Eeprom (EntryStore.inMemory worn) :=
  applyWrites ((newLife worn).load workingMount).2
    (outputs Program.step Program.settingWrites ((newLife worn).program workingMount)
        [.initModem 0] ++
      (settingWrites (mqttPoolingProcedure receivingFirst Program.defaultUnit).effects).take 2)

theorem textReceived_first : TextReceived receivingFirst Program.defaultUnit firstSettings :=
  textReceived_of_boot firstSettings Program.inbox_defaultUnit _

theorem run_newLife (worn : ℕ → Bool) :
    run Program.step ((newLife worn).program workingMount) [.initModem 0] =
      some ⟨.remoteConfig, Program.defaultUnit⟩ := by
  rw [program, (load_of_mounts mounts_workingMount).1]
  rfl

/-- The next boot finds the first two numbers, or only the first one if the entry of the second one
is worn. -/
theorem settings_after_cut_second :
    (loadSettings (eepromEmulInit workingMount (cutEeprom fun _ ↦ false).fs).2).1 =
        ⟨0, 2, 4000, 0⟩ ∧
      (loadSettings (eepromEmulInit workingMount (cutEeprom (· = 2)).fs).2).1 =
        ⟨0, 35, 4000, 0⟩ := by
  constructor
  · refine ((settings_after_cut mounts_workingMount (run_newLife fun _ ↦ false)
      receivingFirst 2).2 mounts_workingMount ?_).trans ?_
    · exact accepted_inMemory (fun _ ↦ rfl) (ready_load mounts_workingMount) _
    · rw [settings_of_text textReceived_first]
      rfl
  · refine (settings_after_cut mounts_workingMount (run_newLife (· = 2))
      receivingFirst 2).1.trans ?_
    rw [settingWrites_of_text textReceived_first]
    rfl

end EepromLife

end

end NrfExamples.MqttWorking
