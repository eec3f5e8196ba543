import NrfExamples.MqttWorking.UnitLib
import Mathlib.Data.Int.Sqrt

/-!
# From ADC frames to channel values

Each ADC frame enters a short averaging buffer. The trigger loop and the recording loop of `main`
both take the average, subtract the channel offsets, feed the differences to one running RMS
window for each channel and clamp them. `processFrame` is that common part; its results are the
only data the two loops use of a frame.
-/

namespace NrfExamples.MqttWorking

open Word

/-! ## Averaging buffer -/

/-- `buffer` with its write position `index`. -/
structure SampleBuffer where
  buffer : List (Quad ℤ)
  index : ℕ

/-- Store one frame in a buffer of `bufferLength` rows. -/
def addSamples (bufferLength : ℕ) (window : SampleBuffer) (samples : Quad ℤ) : SampleBuffer where
  buffer := window.buffer.set window.index samples
  index := if window.index + 1 = bufferLength then 0 else window.index + 1

/-- Average of each column over `bufferLength` rows, with the truncating C division. -/
def averageRows (bufferLength : ℕ) (rows : List (Quad ℤ)) : Quad ℤ := fun channel ↦
  toInt16 (((rows.map fun row : Quad ℤ ↦ row channel).sum).tdiv bufferLength)

def bufferLength : ℕ := 4

def addSamplesToBuffer : SampleBuffer → Quad ℤ → SampleBuffer := addSamples bufferLength

def averageOfVectors : List (Quad ℤ) → Quad ℤ := averageRows bufferLength

/-! ## Running RMS -/

def rmsBufferSize : ℕ := 100

/-- The arguments `buffer`, `indexx` and `sum_squares` that `update_rms` works on. -/
structure RmsWindow where
  buffer : List ℤ
  indexx : ℕ
  sumSquares : ℤ

/-- The root of a mean square below zero is not defined in C and is zero here. -/
def updateRms (window : RmsWindow) (newSample : ℤ) : RmsWindow × ℤ :=
  let oldSample := window.buffer.getD window.indexx 0
  let sumSquares := window.sumSquares - oldSample * oldSample + newSample * newSample
  let meanSquare := toInt32 (sumSquares.tdiv rmsBufferSize)
  ({ buffer := window.buffer.set window.indexx newSample
     indexx := (window.indexx + 1) % rmsBufferSize
     sumSquares := sumSquares }, Int.sqrt meanSquare)

/-! ## Frames -/

/-- The averaging buffer and the four RMS windows. -/
structure FrontEnd where
  samples : SampleBuffer
  rms : Quad RmsWindow

/-- The buffers at boot. -/
def FrontEnd.boot : FrontEnd where
  samples := ⟨List.replicate bufferLength fun _ ↦ 0, 0⟩
  rms := fun _ ↦ ⟨List.replicate rmsBufferSize 0, 0, 0⟩

/-- `ch0_off_value` to `ch3_off_value` after the clamp, and `rms_value`. -/
structure Processed where
  offValue : Quad ℤ
  rmsValue : Quad ℤ

/-- The average of the averaging buffer minus the channel offsets. -/
def newSample (offsets : Quad ℤ) (window : SampleBuffer) : Quad ℤ := fun channel ↦
  averageOfVectors window.buffer channel - offsets channel

def processFrame (offsets : Quad ℤ) (front : FrontEnd) (frame : Quad ℤ) : FrontEnd × Processed :=
  let samples := addSamplesToBuffer front.samples frame
  let updated : Quad (RmsWindow × ℤ) := fun channel ↦
    updateRms (front.rms channel) (newSample offsets samples channel)
  ({ samples := samples, rms := fun channel ↦ (updated channel).1 },
    { offValue := saturateChannelValues (newSample offsets samples)
      rmsValue := fun channel ↦ (updated channel).2 })

/-- The front end after a sequence of frames. -/
def frontEndAfter (offsets : Quad ℤ) (front : FrontEnd) (frames : List (Quad ℤ)) : FrontEnd :=
  frames.foldl (fun front frame ↦ (processFrame offsets front frame).1) front

/-- The values computed from each frame of a sequence. -/
def processFrames (offsets : Quad ℤ) : FrontEnd → List (Quad ℤ) → List Processed
  | _, [] => []
  | front, frame :: frames =>
      let result := processFrame offsets front frame
      result.2 :: processFrames offsets result.1 frames

@[simp]
theorem processFrames_length (offsets : Quad ℤ) (front : FrontEnd) (frames : List (Quad ℤ)) :
    (processFrames offsets front frames).length = frames.length := by
  induction frames generalizing front with
  | nil => rfl
  | cons frame frames ih => simp [processFrames, ih]

/-- The clamped sample of each frame: the average of the averaging buffer once the frame is in it,
minus the offsets, through the clamp. -/
def clampedSamples (offsets : Quad ℤ) : SampleBuffer → List (Quad ℤ) → List (Quad ℤ)
  | _, [] => []
  | window, frame :: frames =>
      let window := addSamplesToBuffer window frame
      saturateChannelValues (newSample offsets window) :: clampedSamples offsets window frames

theorem processFrames_offValue (offsets : Quad ℤ) (front : FrontEnd) (frames : List (Quad ℤ)) :
    (processFrames offsets front frames).map Processed.offValue =
      clampedSamples offsets front.samples frames := by
  induction frames generalizing front with
  | nil => rfl
  | cons frame frames ih =>
    simp only [processFrames, List.map_cons, clampedSamples, ih]
    rfl

end NrfExamples.MqttWorking
