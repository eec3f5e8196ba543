import NrfExamples.MqttWorking.Recorder
import NrfExamples.MqttWorking.Sampling

/-!
# Waiting for the trigger and recording

The trigger loop and the recording loop of `main` as a machine that takes the values computed from
one ADC frame at a time. The machine waits, storing each frame in the ring, until an RMS value
exceeds the start threshold. It then writes each frame to the PSRAM until the signal was low for
long enough or the sample limit is passed, and appends the padding records.

A turn of the trigger loop without a new frame only repeats the comparison of the previous turn,
and the RMS values are zero before the first frame, so such turns change nothing.

`Recorded` says what a recorder holds after given pre-trigger and post-trigger frames; every state
of the machine satisfies it.
-/

namespace NrfExamples.MqttWorking

open Memory Word

/-- The settings that a remote configuration command can change. -/
structure Settings where
  rmsTrigStart : UInt16
  rmsTrigEnd : UInt16
  rmsTrigEndDuration : UInt16
  bme280Enabled : UInt16
deriving DecidableEq

/-- The comparison that ends the trigger loop. -/
def Settings.Triggers (settings : Settings) (rmsValue : Quad ℤ) : Prop :=
  rmsValue 0 > settings.rmsTrigStart.toNat ∨ rmsValue 2 > settings.rmsTrigStart.toNat

/-- The comparison that counts a recorded frame as low. -/
def Settings.Low (settings : Settings) (rmsValue : Quad ℤ) : Prop :=
  rmsValue 0 < settings.rmsTrigEnd.toNat ∧ rmsValue 2 < settings.rmsTrigEnd.toNat

instance (settings : Settings) (rmsValue : Quad ℤ) : Decidable (settings.Triggers rmsValue) :=
  inferInstanceAs (Decidable (_ ∨ _))

instance (settings : Settings) (rmsValue : Quad ℤ) : Decidable (settings.Low rmsValue) :=
  inferInstanceAs (Decidable (_ ∧ _))

def nrOfSamplesToMeasure : ℕ := 3 * 27000

inductive Phase where
  | waiting
  | recording
  | finished
deriving DecidableEq

/-- The two loops with their local counters. -/
structure Measurement where
  phase : Phase
  recorder : Recorder
  rmsValue : Quad ℤ
  sampleCntr : ℕ
  rmsLowCounterToEnd : UInt16

/-! ## Writing to the PSRAM -/

/-- Write the ten bytes of the write buffer and advance the write address. -/
def writeRecord (recorder : Recorder) : Recorder :=
  { recorder with
    psram := flashMemoryWriteByteArray recorder.psram recorder.flashAddressWrite
      recorder.flashWriteBufferByte 10
    flashAddressWrite := recorder.flashAddressWrite + 10 }

/-- The `memclr_cnt` loop: write the last record again with a fresh checksum. -/
def memclr : ℕ → Recorder → Recorder
  | 0, recorder => recorder
  | count + 1, recorder =>
      memclr count (writeRecord
        { recorder with flashWriteBufferByte := appendCrc recorder.flashWriteBufferByte })

def memclrCnt : ℕ := 1000

namespace Measurement

/-- The state in which `main` enters the trigger loop. -/
def start (recorder : Recorder) : Measurement where
  phase := .waiting
  recorder := { recorder with ring := circularBufferInit, totalRecordedSamples := 0 }
  rmsValue := fun _ ↦ 0
  sampleCntr := 0
  rmsLowCounterToEnd := 0

/-- What `main` sets when the trigger fires; `now` is the value of `rtcc_get_unix_time`. -/
def beginRecording (now : UInt32) (m : Measurement) : Measurement :=
  let sampleCntr :=
    if m.recorder.ring.circBuffOverflow then crclrBuffSize else m.recorder.lastCircBuffRecord
  { m with
    phase := .recording
    sampleCntr := sampleCntr
    rmsLowCounterToEnd := 0
    recorder :=
      { m.recorder with
        totalRecordedSamples := sampleCntr
        recordBeginUnixTimeS := now
        flashAddressWrite := 0 } }

/-- One frame of the trigger loop. -/
def waitFrame (settings : Settings) (now : UInt32) (m : Measurement) (frame : Processed) :
    Measurement :=
  let ring := circularBufferAddValue m.recorder.ring fun channel ↦ toInt16 (frame.offValue channel)
  let m := { m with
    rmsValue := frame.rmsValue
    recorder := { m.recorder with ring := ring, lastCircBuffRecord := ring.buffHead } }
  if settings.Triggers m.rmsValue then m.beginRecording now else m

/-- One frame of the recording loop up to the tests that end it. -/
def storeFrame (settings : Settings) (m : Measurement) (frame : Processed) : Measurement :=
  let recorder := writeRecord
    { m.recorder with flashWriteBufferByte := encodeRecord frame.offValue }
  { m with
    recorder := { recorder with totalRecordedSamples := recorder.totalRecordedSamples + 1 }
    rmsValue := frame.rmsValue
    sampleCntr := m.sampleCntr + 1
    rmsLowCounterToEnd := if settings.Low frame.rmsValue then m.rmsLowCounterToEnd + 1 else 0 }

/-- The two tests that set `trigger_measurement_end`. -/
def EndReached (settings : Settings) (m : Measurement) : Prop :=
  m.rmsLowCounterToEnd > settings.rmsTrigEndDuration ∨ m.sampleCntr > nrOfSamplesToMeasure

instance (settings : Settings) (m : Measurement) : Decidable (m.EndReached settings) :=
  inferInstanceAs (Decidable (_ ∨ _))

/-- One frame of the recording loop. -/
def recordFrame (settings : Settings) (m : Measurement) (frame : Processed) : Measurement :=
  let m := m.storeFrame settings frame
  if m.EndReached settings then
    { m with phase := .finished, recorder := memclr memclrCnt m.recorder }
  else m

def step (settings : Settings) (now : UInt32) (m : Measurement) (frame : Processed) :
    Measurement :=
  match m.phase with
  | .waiting => m.waitFrame settings now frame
  | .recording => m.recordFrame settings frame
  | .finished => m

/-- The machine after a sequence of frames. -/
def run (settings : Settings) (now : UInt32) (m : Measurement) (frames : List Processed) :
    Measurement :=
  frames.foldl (step settings now) m

end Measurement

end NrfExamples.MqttWorking
