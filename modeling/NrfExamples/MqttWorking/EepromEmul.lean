import NrfExamples.Library.EntryStore
import NrfExamples.Library.Layout
import NrfExamples.MqttWorking.Polling

/-!
# The emulated EEPROM

`eeprom_emul.c` keeps the settings as two-byte entries of a flash file system, and `main` loads
them at boot, with a default for an entry that is not there. The file system is any store of
numbered entries; its writes may fail, and its mount may fail, which `main` does not look at.
-/

namespace NrfExamples.MqttWorking

open Memory

def eacces : ℤ := 13

def enodev : ℤ := 19

/-- `eeprom_key_t`. -/
def EepromKey.id : EepromKey → ℕ
  | .endTrigDuration => 0x00
  | .trigStart => 0x01
  | .trigEnd => 0x02
  | .bme280Ena => 0x04

theorem EepromKey.id_injective : Function.Injective EepromKey.id := by
  intro key other h
  cases key <;> cases other <;> first | rfl | cases h

/-- The initial value of the variable, which is also the default of `main`. -/
def EepromKey.default : EepromKey → UInt16
  | .trigStart => 55
  | .trigEnd => 35
  | .endTrigDuration => 4000
  | .bme280Ena => 0

/-! ## The file system -/

section

variable (nvs : EntryStore)

/-- The file system instance, and whether it is mounted. -/
structure Eeprom where
  fs : nvs.State
  ready : Bool

/-- The outcomes of the calls that mount the file system. -/
structure MountEnv where
  deviceReady : Bool
  flashGetPageInfo : ℤ
  nvsMount : ℤ

variable {nvs}

def eepromEmulInit (env : MountEnv) (fs : nvs.State) : ℤ × Eeprom nvs :=
  if ¬ env.deviceReady then (-enodev, ⟨fs, false⟩)
  else if env.flashGetPageInfo ≠ 0 then (env.flashGetPageInfo, ⟨fs, false⟩)
  else if env.nvsMount ≠ 0 then (env.nvsMount, ⟨fs, false⟩)
  else (0, ⟨fs, true⟩)

/-- A file system that is not mounted refuses. -/
def nvsWrite (eeprom : Eeprom nvs) (key : EepromKey) (bytes : List Byte) : ℤ × Eeprom nvs :=
  if eeprom.ready then
    let written := nvs.write eeprom.fs key.id bytes
    (written.1, { eeprom with fs := written.2 })
  else (-eacces, eeprom)

def nvsRead (eeprom : Eeprom nvs) (key : EepromKey) (length : ℕ) : ℤ × List Byte :=
  if eeprom.ready then nvs.read eeprom.fs key.id length else (-eacces, [])

def eepromEmulWriteU16 (eeprom : Eeprom nvs) (key : EepromKey) (value : UInt16) : ℤ × Eeprom nvs :=
  nvsWrite eeprom key (Layout.uint16.encode value)

/-- A variable whose first bytes are overwritten. -/
def overwriteU16 (value : UInt16) (bytes : List Byte) : UInt16 :=
  Layout.uint16.decode (bytes ++ (Layout.uint16.encode value).drop bytes.length)

/-- The result and the variable behind the read. -/
def eepromEmulReadU16 (eeprom : Eeprom nvs) (key : EepromKey) (value : UInt16) : ℤ × UInt16 :=
  let read := nvsRead eeprom key 2
  (if read.1 > 0 then 0 else read.1, overwriteU16 value read.2)

/-! ## Loading the settings -/

/-- One of the four blocks that load a setting or store its default. -/
def loadOrDefault (eeprom : Eeprom nvs) (key : EepromKey) : UInt16 × Eeprom nvs :=
  let read := eepromEmulReadU16 eeprom key key.default
  if read.1 ≠ 0 then (key.default, (eepromEmulWriteU16 eeprom key key.default).2)
  else (read.2, eeprom)

/-- The blocks in the order of `main`. -/
def loadSettings (eeprom : Eeprom nvs) : Settings × Eeprom nvs :=
  let endDuration := loadOrDefault eeprom .endTrigDuration
  let trigStart := loadOrDefault endDuration.2 .trigStart
  let trigEnd := loadOrDefault trigStart.2 .trigEnd
  let bme280 := loadOrDefault trigEnd.2 .bme280Ena
  (⟨trigStart.1, trigEnd.1, endDuration.1, bme280.1⟩, bme280.2)

/-! ## What is stored -/

/-- The value that a boot finds under a key. -/
def shown (key : EepromKey) : Option (List Byte) → UInt16
  | none => key.default
  | some bytes => overwriteU16 key.default (bytes.take 2)

/-- The values that a boot finds in a mounted file system. -/
def stored (fs : nvs.State) (key : EepromKey) : UInt16 := shown key (nvs.entry fs key.id)

/-- The settings with the given value under each key. -/
def Settings.ofKeys (values : EepromKey → UInt16) : Settings :=
  ⟨values .trigStart, values .trigEnd, values .endTrigDuration, values .bme280Ena⟩

theorem overwriteU16_encode (value other : UInt16) :
    overwriteU16 value ((Layout.uint16.encode other).take 2) = other := by
  have hlength : (Layout.uint16.encode other).length = 2 := Layout.uint16.length_encode other
  have hdrop : (Layout.uint16.encode value).drop 2 = [] :=
    List.drop_eq_nil_of_le (Layout.uint16.length_encode value).le
  rw [overwriteU16, List.take_of_length_le hlength.le, hlength, hdrop, List.append_nil]
  exact Layout.uint16.decode_encode other

theorem shown_encode (key : EepromKey) (value : UInt16) :
    shown key (some (Layout.uint16.encode value)) = value :=
  overwriteU16_encode key.default value

/-- A write that succeeds changes what is found under its key, and one that fails nothing. -/
theorem stored_eepromEmulWriteU16 {eeprom : Eeprom nvs} (key : EepromKey) (value : UInt16) :
    stored (eepromEmulWriteU16 eeprom key value).2.fs =
      if 0 ≤ (eepromEmulWriteU16 eeprom key value).1 then
        Function.update (stored eeprom.fs) key value
      else stored eeprom.fs := by
  unfold eepromEmulWriteU16 nvsWrite
  cases eeprom.ready with
  | false => exact (if_neg (show ¬ 0 ≤ -eacces by decide)).symm
  | true =>
    by_cases hstored : 0 ≤ (nvs.write eeprom.fs key.id (Layout.uint16.encode value)).1
    · ext1 other
      simp only [if_true, if_pos hstored, stored, nvs.write_stored hstored]
      by_cases hother : other = key
      · rw [hother, Function.update_self, Function.update_self, shown_encode]
      · rw [Function.update_of_ne (EepromKey.id_injective.ne hother),
          Function.update_of_ne hother, stored]
    · ext1 other
      simp only [if_true, if_neg hstored, stored, nvs.write_failed (Int.not_le.mp hstored)]

theorem ready_eepromEmulWriteU16 {eeprom : Eeprom nvs} (key : EepromKey) (value : UInt16) :
    (eepromEmulWriteU16 eeprom key value).2.ready = eeprom.ready := by
  unfold eepromEmulWriteU16 nvsWrite
  split
  · rfl
  · rfl

/-- A block finds what is stored, and stores nothing that a later boot would find different. -/
theorem loadOrDefault_spec {eeprom : Eeprom nvs} (hready : eeprom.ready = true)
    (key : EepromKey) :
    (loadOrDefault eeprom key).1 = stored eeprom.fs key ∧
      stored (loadOrDefault eeprom key).2.fs = stored eeprom.fs ∧
      (loadOrDefault eeprom key).2.ready = true := by
  have hread : nvsRead eeprom key 2 = nvs.read eeprom.fs key.id 2 := if_pos hready
  cases hentry : nvs.entry eeprom.fs key.id with
  | some bytes =>
    have hresult : eepromEmulReadU16 eeprom key key.default =
        (0, overwriteU16 key.default (bytes.take 2)) := by
      rw [eepromEmulReadU16, hread, nvs.read_some hentry]
      congr 1
      split
      · rfl
      · omega
    rw [loadOrDefault, hresult, if_neg (not_not.mpr rfl), stored, hentry]
    exact ⟨rfl, rfl, hready⟩
  | none =>
    obtain ⟨hnegative, hcopied⟩ := nvs.read_none hentry 2
    have hfails : (eepromEmulReadU16 eeprom key key.default).1 ≠ 0 := by
      rw [eepromEmulReadU16, hread, if_neg (Int.not_lt.mpr hnegative.le)]
      exact hnegative.ne
    have hdefault : stored eeprom.fs key = key.default := by
      rw [stored, hentry]
      rfl
    rw [loadOrDefault, if_pos hfails]
    refine ⟨hdefault.symm, ?_, (ready_eepromEmulWriteU16 _ _).trans hready⟩
    rw [stored_eepromEmulWriteU16]
    split
    · rw [← hdefault, Function.update_eq_self]
    · rfl

/-- A boot finds the stored settings and leaves them stored. -/
theorem loadSettings_of_ready {eeprom : Eeprom nvs} (hready : eeprom.ready = true) :
    (loadSettings eeprom).1 = Settings.ofKeys (stored eeprom.fs) ∧
      stored (loadSettings eeprom).2.fs = stored eeprom.fs ∧
      (loadSettings eeprom).2.ready = true := by
  obtain ⟨hduration, hfirst, hready₁⟩ := loadOrDefault_spec hready .endTrigDuration
  obtain ⟨hstart, hsecond, hready₂⟩ := loadOrDefault_spec hready₁ .trigStart
  obtain ⟨hend, hthird, hready₃⟩ := loadOrDefault_spec hready₂ .trigEnd
  obtain ⟨hbme, hfourth, hready₄⟩ := loadOrDefault_spec hready₃ .bme280Ena
  refine ⟨?_, ?_, hready₄⟩
  · simp only [loadSettings, Settings.ofKeys, hduration, hstart, hend, hbme, hfirst, hsecond,
      hthird]
  · simp only [loadSettings, hfirst, hsecond, hthird, hfourth]

/-- Without a mounted file system a boot takes the defaults. -/
theorem loadSettings_of_not_ready {eeprom : Eeprom nvs} (hready : eeprom.ready = false) :
    loadSettings eeprom = (Settings.ofKeys EepromKey.default, eeprom) := by
  have hload (key : EepromKey) : loadOrDefault eeprom key = (key.default, eeprom) := by
    simp only [loadOrDefault, eepromEmulReadU16, eepromEmulWriteU16, nvsRead, nvsWrite, hready]
    rfl
  simp only [loadSettings, hload]
  rfl

end

end NrfExamples.MqttWorking
