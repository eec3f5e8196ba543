import NrfExamples.Library.Checked
import NrfExamples.Library.Window
import NrfExamples.MqttWorking.Sampling

/-!
# The sample averager

`mqtt_working` and `sms2` have the same text for `add_samples_to_buffer` and `average_of_vectors`
and differ in `BUFFER_LENGTH`. The two functions are modelled here on the fixed-width types of the
source. The buffer is a wrapping window over zero frames, so each column sums to the newest samples
of its channel, and for all samples the sums and quotients fit their types. The averaging buffer of
the sampling loops is the same buffer read as integers.
-/

namespace NrfExamples

def Sms2.bufferLength : ℕ := 5

namespace SampleAverager

open Checked
open MqttWorking (Channel Quad SampleBuffer addSamples averageRows)

/-! ## Functions -/

/-- `buffer` with its write position `index`. -/
structure Averager where
  buffer : List (Quad Int16)
  index : UInt8

/-- The buffers at boot. -/
def Averager.boot (bufferLength : ℕ) : Averager where
  buffer := List.replicate bufferLength fun _ ↦ 0
  index := 0

/-- The loop over the columns of one row. -/
def copySamples (samples row : Quad Int16) : Quad Int16 :=
  (List.finRange 4).foldl (fun row i ↦ Function.update row i (samples i)) row

def addSamplesToBuffer (bufferLength : ℕ) (averager : Averager) (samples : Quad Int16) :
    Averager where
  buffer := averager.buffer.modify averager.index.toNat (copySamples samples)
  index := if (averager.index + 1).toNat = bufferLength then 0 else averager.index + 1

/-- The source reads the `bufferLength` rows of `array` by their index. -/
def averageOfVectors (bufferLength : ℕ) (array : List (Quad Int16)) : Quad Int16 := fun i ↦
  let totalSum := array.foldl (fun totalSum row ↦ totalSum + (row i).toInt32) (0 : Int32)
  (totalSum / Int32.ofNat bufferLength).toInt16

/-- The averager behind each frame of a sequence, with the averages computed there. -/
def run (bufferLength : ℕ) : Averager → List (Quad Int16) → List (Averager × Quad Int16)
  | _, [] => []
  | averager, samples :: frames =>
      let averager := addSamplesToBuffer bufferLength averager samples
      (averager, averageOfVectors bufferLength averager.buffer) ::
        run bufferLength averager frames

/-- The averager after a sequence of frames. -/
def after (bufferLength : ℕ) (frames : List (Quad Int16)) : Averager :=
  frames.foldl (addSamplesToBuffer bufferLength) (Averager.boot bufferLength)

/-- The samples of one channel. -/
def column (frames : List (Quad Int16)) (i : Channel) : List ℤ :=
  frames.map fun samples ↦ (samples i).toInt

/-- The truncated mean of the newest samples of each channel. -/
def movingAverage (bufferLength : ℕ) (frames : List (Quad Int16)) : Quad ℤ := fun i ↦
  (column (frames.rtake (min frames.length bufferLength)) i).sum.tdiv bufferLength

/-- The index stays in the buffer, and the averages behind each frame are the moving averages over
the frames up to there. -/
structure IsMovingAverage (bufferLength : ℕ) (frames : List (Quad Int16)) : Prop where
  length_eq : (run bufferLength (Averager.boot bufferLength) frames).length = frames.length
  index_lt : ∀ entry ∈ run bufferLength (Averager.boot bufferLength) frames,
    entry.1.index.toNat < bufferLength
  average_eq : ∀ n (hn : n < (run bufferLength (Averager.boot bufferLength) frames).length) i,
    ((run bufferLength (Averager.boot bufferLength) frames)[n].2 i).toInt =
      movingAverage bufferLength (frames.take (n + 1)) i

/-! ## Buffer -/

/-- The column loop replaces the row. -/
theorem copySamples_eq (samples row : Quad Int16) : copySamples samples row = samples := by
  funext i
  match i with
  | 0 => rfl
  | 1 => rfl
  | 2 => rfl
  | 3 => rfl

theorem addSamplesToBuffer_buffer (bufferLength : ℕ) (averager : Averager)
    (samples : Quad Int16) :
    (addSamplesToBuffer bufferLength averager samples).buffer =
      averager.buffer.set averager.index.toNat samples := by
  rw [List.set_eq_modify]
  exact congrArg (averager.buffer.modify averager.index.toNat) (funext (copySamples_eq samples))

/-- The buffer shows the newest of `frames`. -/
structure Averager.Shows (bufferLength : ℕ) (averager : Averager) (frames : List (Quad Int16)) :
    Prop where
  holds : Window.Holds bufferLength (fun _ ↦ 0) averager.buffer averager.index.toNat frames
  index_lt : averager.index.toNat < bufferLength

namespace Averager.Shows

variable {bufferLength : ℕ} {averager : Averager} {frames : List (Quad Int16)}

theorem boot (hpos : 0 < bufferLength) : (boot bufferLength).Shows bufferLength [] where
  holds := Window.Holds.init bufferLength fun _ ↦ 0
  index_lt := hpos

/-- The next index, for a length that `uint8_t` can hold. -/
theorem index_toNat (h : averager.Shows bufferLength frames) (hlength : bufferLength ≤ 255)
    (samples : Quad Int16) :
    (addSamplesToBuffer bufferLength averager samples).index.toNat =
      if averager.index.toNat + 1 = bufferLength then 0 else averager.index.toNat + 1 := by
  have hnext : (averager.index + 1).toNat = averager.index.toNat + 1 := by
    have hindex := h.index_lt
    rw [UInt8.toNat_add]
    apply Nat.mod_eq_of_lt
    calc
      averager.index.toNat + 1 ≤ bufferLength := hindex
      _ < 2 ^ 8 := Nat.lt_succ_of_le hlength
  simp only [addSamplesToBuffer, hnext]
  split
  · rfl
  · exact hnext

/-- One frame is one push. -/
theorem add (h : averager.Shows bufferLength frames) (hlength : bufferLength ≤ 255)
    (samples : Quad Int16) :
    (addSamplesToBuffer bufferLength averager samples).Shows bufferLength
      (frames ++ [samples]) where
  holds := by
    rw [addSamplesToBuffer_buffer, h.index_toNat hlength samples]
    exact h.holds.push_wrap h.index_lt samples
  index_lt := by
    have hindex := h.index_lt
    rw [h.index_toNat hlength samples]
    split
    · omega
    · omega

end Averager.Shows

/-! ## Averages -/

theorem column_range {array : List (Quad Int16)} {i : Channel} {value : ℤ}
    (hvalue : value ∈ column array i) : -32768 ≤ value ∧ value ≤ 32767 := by
  obtain ⟨row, _, rfl⟩ := List.mem_map.mp hvalue
  exact ⟨(row i).le_toInt, (row i).toInt_le⟩

/-- `total_sum` does not overflow. -/
theorem totalSum_toInt {array : List (Quad Int16)} (harray : array.length ≤ 255) (i : Channel) :
    (array.foldl (fun totalSum row ↦ totalSum + (row i).toInt32) (0 : Int32)).toInt =
      (column array i).sum := by
  have hwiden : (array.map fun row : Quad Int16 ↦ (row i).toInt32).map Int32.toInt =
      column array i := by
    rw [List.map_map]
    exact List.map_congr_left fun row _ ↦ (row i).toInt_toInt32
  have habs : ∀ value ∈ column array i, |value| ≤ 32768 := by
    intro value hvalue
    obtain ⟨hlower, hupper⟩ := column_range hvalue
    exact abs_le.mpr ⟨hlower, by linarith⟩
  have hbound : ((column array i).length : ℤ) * 32768 < 2 ^ (32 - 1) := by
    rw [column, List.length_map]
    omega
  have hsum : sum 32 ((array.map fun row : Quad Int16 ↦ (row i).toInt32).map Int32.toInt) =
      some (column array i).sum := by
    rw [hwiden]
    exact sum_eq_some habs hbound
  rw [← toInt_foldl_add hsum, List.foldl_map]

/-- The quotient is not narrowed to another value. -/
theorem averageOfVectors_toInt {bufferLength : ℕ} {array : List (Quad Int16)}
    (harray : array.length = bufferLength) (hpos : 0 < bufferLength) (hlength : bufferLength ≤ 255)
    (i : Channel) :
    (averageOfVectors bufferLength array i).toInt = (column array i).sum.tdiv bufferLength := by
  have hcolumn : (column array i).length = bufferLength := (List.length_map _).trans harray
  obtain ⟨hquotientLower, hquotientUpper⟩ :=
    mean_range hpos hcolumn fun _ hvalue ↦ column_range hvalue
  have hfits {width : ℕ} (hwidth : 32768 ≤ (2 : ℤ) ^ (width - 1)) :
      Fits width ((column array i).sum.tdiv bufferLength) :=
    ⟨by linarith, by linarith⟩
  have hdivisor : (Int32.ofNat bufferLength).toInt = bufferLength :=
    Int32.toInt_ofNat_of_lt (by omega)
  have hquotient : (array.foldl (fun totalSum row ↦ totalSum + (row i).toInt32) (0 : Int32) /
      Int32.ofNat bufferLength).toInt = (column array i).sum.tdiv bufferLength := by
    apply toInt_div
    rw [totalSum_toInt (harray.trans_le hlength) i, hdivisor]
    exact narrow_eq_some (hfits (by norm_num))
  apply toInt_toInt16
  rw [hquotient]
  exact narrow_eq_some (hfits (by norm_num))

/-- The averages of a buffer that shows `frames`. -/
theorem Averager.Shows.average_eq {bufferLength : ℕ} {averager : Averager}
    {frames : List (Quad Int16)} (h : averager.Shows bufferLength frames)
    (hlength : bufferLength ≤ 255) (i : Channel) :
    (averageOfVectors bufferLength averager.buffer i).toInt =
      movingAverage bufferLength frames i := by
  have hnewest := Window.rtake_min_length bufferLength frames
  have hsum : (column averager.buffer i).sum = (column (frames.rtake bufferLength) i).sum :=
    h.holds.sum_map rfl
  have hpos : 0 < bufferLength := Nat.zero_lt_of_lt h.index_lt
  rw [averageOfVectors_toInt h.holds.length_eq hpos hlength, movingAverage, hnewest, hsum]

/-! ## Runs -/

theorem shows_after {bufferLength : ℕ} (hpos : 0 < bufferLength) (hlength : bufferLength ≤ 255)
    (frames : List (Quad Int16)) : (after bufferLength frames).Shows bufferLength frames := by
  induction frames using List.reverseRecOn with
  | nil => exact Averager.Shows.boot hpos
  | append_singleton frames samples ih =>
    rw [after, List.foldl_concat]
    exact ih.add hlength samples

@[simp]
theorem run_length (bufferLength : ℕ) (averager : Averager) (frames : List (Quad Int16)) :
    (run bufferLength averager frames).length = frames.length := by
  induction frames generalizing averager with
  | nil => rfl
  | cons samples frames ih => rw [run, List.length_cons, ih, List.length_cons]

/-- Each entry of a run is the averager after the frames up to there, with its averages. -/
theorem run_getElem (bufferLength : ℕ) (averager : Averager) (frames : List (Quad Int16)) (n : ℕ)
    (hn : n < (run bufferLength averager frames).length) :
    (run bufferLength averager frames)[n] =
      let reached := (frames.take (n + 1)).foldl (addSamplesToBuffer bufferLength) averager
      (reached, averageOfVectors bufferLength reached.buffer) := by
  induction frames generalizing averager n with
  | nil => exact absurd hn (Nat.not_lt_zero n)
  | cons samples frames ih =>
    cases n with
    | zero => rfl
    | succ n =>
      exact ih (addSamplesToBuffer bufferLength averager samples) n (Nat.lt_of_succ_lt_succ hn)

theorem isMovingAverage_of_le {bufferLength : ℕ} (hpos : 0 < bufferLength)
    (hlength : bufferLength ≤ 255) (frames : List (Quad Int16)) :
    IsMovingAverage bufferLength frames where
  length_eq := run_length bufferLength _ frames
  index_lt := by
    intro entry hentry
    obtain ⟨n, hn, rfl⟩ := List.getElem_of_mem hentry
    rw [run_getElem]
    exact (shows_after hpos hlength (frames.take (n + 1))).index_lt
  average_eq := by
    intro n hn i
    rw [run_getElem]
    exact (shows_after hpos hlength (frames.take (n + 1))).average_eq hlength i

example : (run 4 (Averager.boot 4) (List.replicate 5 fun _ ↦ -7)).map (fun entry ↦ entry.2 0) =
    [-1, -3, -5, -7, -7] := by decide

/-- Both programs, over every sequence of frames. -/
theorem isMovingAverage (frames : List (Quad Int16)) :
    IsMovingAverage MqttWorking.bufferLength frames ∧ IsMovingAverage Sms2.bufferLength frames :=
  ⟨isMovingAverage_of_le (by decide) (by decide) frames,
    isMovingAverage_of_le (by decide) (by decide) frames⟩

/-! ## Averaging buffer of the sampling loops -/

def toIntegers (samples : Quad Int16) : Quad ℤ := fun i ↦ (samples i).toInt

/-- The same buffer on unbounded integers. -/
def Averager.toSampleBuffer (averager : Averager) : SampleBuffer where
  buffer := averager.buffer.map toIntegers
  index := averager.index.toNat

theorem Averager.Shows.toSampleBuffer_add {bufferLength : ℕ} {averager : Averager}
    {frames : List (Quad Int16)} (h : averager.Shows bufferLength frames)
    (hlength : bufferLength ≤ 255) (samples : Quad Int16) :
    (addSamplesToBuffer bufferLength averager samples).toSampleBuffer =
      addSamples bufferLength averager.toSampleBuffer (toIntegers samples) := by
  unfold Averager.toSampleBuffer addSamples
  rw [h.index_toNat hlength samples, addSamplesToBuffer_buffer, List.map_set]

theorem toSampleBuffer_after {bufferLength : ℕ} (hpos : 0 < bufferLength)
    (hlength : bufferLength ≤ 255) (frames : List (Quad Int16)) :
    (after bufferLength frames).toSampleBuffer =
      (frames.map toIntegers).foldl (addSamples bufferLength)
        ⟨List.replicate bufferLength fun _ ↦ 0, 0⟩ := by
  induction frames using List.reverseRecOn with
  | nil =>
    rw [after, List.foldl_nil, Averager.toSampleBuffer, Averager.boot, List.map_replicate]
    rfl
  | append_singleton frames samples ih =>
    have hshows := shows_after hpos hlength frames
    calc
      (after bufferLength (frames ++ [samples])).toSampleBuffer =
          (addSamplesToBuffer bufferLength (after bufferLength frames) samples).toSampleBuffer := by
        rw [after, List.foldl_concat]
        rfl
      _ = addSamples bufferLength (after bufferLength frames).toSampleBuffer
          (toIntegers samples) := hshows.toSampleBuffer_add hlength samples
      _ = ((frames ++ [samples]).map toIntegers).foldl (addSamples bufferLength)
          ⟨List.replicate bufferLength fun _ ↦ 0, 0⟩ := by
        rw [ih, List.map_append, List.map_singleton, List.foldl_concat]

/-- Both models compute the same averages. -/
theorem averageRows_toSampleBuffer {bufferLength : ℕ} {averager : Averager}
    (hbuffer : averager.buffer.length = bufferLength) (hpos : 0 < bufferLength)
    (hlength : bufferLength ≤ 255) :
    averageRows bufferLength averager.toSampleBuffer.buffer =
      toIntegers (averageOfVectors bufferLength averager.buffer) := by
  funext i
  have haverage := averageOfVectors_toInt hbuffer hpos hlength i
  have hcolumn : averager.toSampleBuffer.buffer.map (fun row : Quad ℤ ↦ row i) =
      column averager.buffer i := List.map_map
  rw [averageRows, hcolumn, ← haverage]
  exact Word.toInt16_eq_self ⟨Int16.le_toInt _, Int16.toInt_lt _⟩

end SampleAverager

end NrfExamples
