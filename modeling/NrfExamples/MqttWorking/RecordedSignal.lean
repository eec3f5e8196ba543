import NrfExamples.MqttWorking.SamplingPipeline
import NrfExamples.MqttWorking.Segment
import NrfExamples.SampleAverager

/-!
# The recorded signal

Everything that `main` compares and stores is computed frame by frame: an average from a wrapping
buffer, an offset from a recursive filter, an RMS value from a running sum, a ring and counters that
decide when to record. `RawSignal` states the same values at once from the converter frames since
boot. The recording is the segment of the clamped values that the settings ask for on these RMS
values, for every sequence of converter frames and every duration that the counter can exceed.
-/

namespace NrfExamples.MqttWorking

open Measurement SampleAverager

/-- The converter frames of a run, from boot on. -/
structure RawSignal where
  frame : ℕ → Quad Int16
  inRange : ∀ n channel, InConverterRange (frame n channel).toInt

namespace RawSignal

variable (raw : RawSignal)

/-! ## Values of the signal -/

/-- The frames read before frame `count`. -/
def first (count : ℕ) : List (Quad Int16) := (List.range count).map raw.frame

/-- The moving average at frame `n`. -/
def average (n : ℕ) : Quad ℤ := movingAverage bufferLength (raw.first (n + 1))

/-- The exponentially filtered averages over the first `count` frames. -/
def filtered (count : ℕ) : Quad ℤ := fun channel ↦
  (List.range count).foldl (fun filtered n ↦ exponentialFilter filtered (raw.average n channel))
    5200

/-- The filter states behind the offset gathering. -/
def offsets : Quad ℤ := raw.filtered offsetGatherCnt

/-- The distance from the offsets at frame `n` behind the offset gathering. -/
def value (n : ℕ) : Quad ℤ := fun channel ↦
  raw.average (offsetGatherCnt + n) channel - raw.offsets channel

/-- The values of one channel before frame `count`. -/
def values (count : ℕ) (channel : Channel) : List ℤ :=
  (List.range count).map fun n ↦ raw.value n channel

/-- The RMS of the newest hundred values at frame `n`. -/
def rms (n : ℕ) : Quad ℤ := fun channel ↦
  Int.sqrt (sumOfSquares ((raw.values (n + 1) channel).rtake rmsBufferSize) / rmsBufferSize)

/-- The clamped values and the RMS values at frame `n`. -/
def processed (n : ℕ) : Processed where
  offValue := saturateChannelValues (raw.value n)
  rmsValue := raw.rms n

/-! ## Averages -/

theorem first_succ (count : ℕ) : raw.first (count + 1) = raw.first count ++ [raw.frame count] := by
  rw [first, List.range_succ, List.map_append]
  rfl

/-- The averaging buffer after the first frames. -/
def samples (count : ℕ) : SampleBuffer :=
  ((raw.first count).map toIntegers).foldl addSamplesToBuffer FrontEnd.boot.samples

theorem samples_succ (count : ℕ) : raw.samples (count + 1) =
    addSamplesToBuffer (raw.samples count) (toIntegers (raw.frame count)) := by
  rw [samples, first_succ, List.map_append, List.foldl_append]
  rfl

theorem samples_inRange (count : ℕ) : (raw.samples count).InRange := by
  induction count with
  | zero => exact SampleBuffer.inRange_boot
  | succ count ih =>
    rw [samples_succ]
    exact ih.add (raw.inRange count)

/-- The buffer shows the moving average of each channel. -/
theorem averageOfVectors_samples (n : ℕ) (channel : Channel) :
    MqttWorking.averageOfVectors (raw.samples (n + 1)).buffer channel = raw.average n channel := by
  have hpos : 0 < bufferLength := by decide
  have hlength : bufferLength ≤ 255 := by decide
  have hshows := shows_after hpos hlength (raw.first (n + 1))
  have hsamples : raw.samples (n + 1) =
      (SampleAverager.after bufferLength (raw.first (n + 1))).toSampleBuffer :=
    (toSampleBuffer_after hpos hlength _).symm
  calc
    MqttWorking.averageOfVectors (raw.samples (n + 1)).buffer channel =
        toIntegers (SampleAverager.averageOfVectors bufferLength
          (SampleAverager.after bufferLength (raw.first (n + 1))).buffer) channel := by
      rw [hsamples]
      exact congrFun (averageRows_toSampleBuffer hshows.holds.length_eq hpos hlength) channel
    _ = raw.average n channel := hshows.average_eq hlength channel

theorem average_inRange (n : ℕ) (channel : Channel) : InConverterRange (raw.average n channel) := by
  rw [← averageOfVectors_samples]
  exact (averageChecked_eq (raw.samples_inRange (n + 1)) channel).2

/-! ## Offsets -/

theorem filtered_succ (count : ℕ) (channel : Channel) : raw.filtered (count + 1) channel =
    exponentialFilter (raw.filtered count channel) (raw.average count channel) := by
  rw [filtered, List.range_succ, List.foldl_concat]
  rfl

theorem filtered_inRange (count : ℕ) (channel : Channel) :
    InConverterRange (raw.filtered count channel) := by
  induction count with
  | zero => exact OffsetGathering.inRange_boot.filtered channel
  | succ count ih =>
    rw [filtered_succ]
    exact (exponentialFilterChecked_eq ih (raw.average_inRange count channel)).2

/-- The state of the gathering loop after the first frames. -/
def gathering (count : ℕ) : OffsetGathering where
  samples := raw.samples count
  filteredValueArray := raw.filtered count

theorem gatherFrame_gathering (count : ℕ) :
    (raw.gathering count).gatherFrame (toIntegers (raw.frame count)) =
      raw.gathering (count + 1) := by
  have hsamples := raw.samples_succ count
  have hfiltered : raw.filtered (count + 1) = fun channel ↦ exponentialFilter
      (raw.filtered count channel)
      (MqttWorking.averageOfVectors (raw.samples (count + 1)).buffer channel) := by
    funext channel
    rw [filtered_succ, averageOfVectors_samples]
  simp only [gathering, OffsetGathering.gatherFrame, hfiltered, hsamples]

/-- An `int16_t` holds each filter state. -/
theorem offsets_gathering (count : ℕ) : (raw.gathering count).offsets = raw.filtered count :=
  funext fun channel ↦ (raw.filtered_inRange count channel).toInt16_eq

/-! ## RMS values -/

theorem values_succ (count : ℕ) (channel : Channel) :
    raw.values (count + 1) channel = raw.values count channel ++ [raw.value count channel] := by
  rw [values, List.range_succ, List.map_append]
  rfl

theorem abs_value_le (n : ℕ) (channel : Channel) : |raw.value n channel| ≤ maxDifference :=
  abs_sub_le_maxDifference (raw.average_inRange _ channel) (raw.filtered_inRange _ channel)

/-- The value returned for the newest sample is the RMS value of the signal. -/
theorem updateRms_values (n : ℕ) (channel : Channel) :
    (updateRms (RmsWindow.after (raw.values n channel)) (raw.value n channel)).2 =
      raw.rms n channel := by
  have htracks := (RmsWindow.tracks_after (raw.values n channel)).updateRms (raw.value n channel)
  rw [← values_succ] at htracks
  have hrange : ∀ sample ∈ raw.values (n + 1) channel, |sample| ≤ maxDifference := by
    intro sample hsample
    obtain ⟨k, _, rfl⟩ := List.mem_map.mp hsample
    exact raw.abs_value_le k channel
  have hnonneg := sumOfSquares_nonneg ((raw.values (n + 1) channel).rtake rmsBufferSize)
  rw [← htracks.sumSquares_eq_rtake] at hnonneg
  rw [rms, ← htracks.sumSquares_eq_rtake]
  exact congrArg Int.sqrt (toInt32_meanSquare hnonneg (htracks.sumSquares_le hrange))

/-! ## Front end -/

/-- The front end of the trigger and recording loops after their first `n` frames. -/
def front (n : ℕ) : FrontEnd where
  samples := raw.samples (offsetGatherCnt + n)
  rms := fun channel ↦ RmsWindow.after (raw.values n channel)

theorem processFrame_front (n : ℕ) :
    processFrame raw.offsets (raw.front n) (toIntegers (raw.frame (offsetGatherCnt + n))) =
      (raw.front (n + 1), raw.processed n) := by
  have hsamples := raw.samples_succ (offsetGatherCnt + n)
  have hvalue : newSample raw.offsets (raw.samples (offsetGatherCnt + n + 1)) = raw.value n := by
    funext channel
    rw [newSample, averageOfVectors_samples]
    rfl
  have hwindow : (fun channel ↦ (updateRms (RmsWindow.after (raw.values n channel))
      (raw.value n channel)).1) = (raw.front (n + 1)).rms := by
    funext channel
    simp only [front, values_succ, RmsWindow.after, List.foldl_concat]
  have hrms : (fun channel ↦ (updateRms (RmsWindow.after (raw.values n channel))
      (raw.value n channel)).2) = raw.rms n := funext (raw.updateRms_values n)
  simp only [processFrame, front, ← hsamples, hvalue, hwindow, hrms]
  rfl

/-! ## Runs -/

variable (settings : Settings) (now : UInt32) (recorder : Recorder)

/-- The program behind the first frames since boot. -/
def stage (count : ℕ) : SamplingStage :=
  ((raw.first count).map toIntegers).foldl (SamplingStage.step settings now recorder) .boot

variable {settings now recorder}

theorem stage_succ (count : ℕ) : raw.stage settings now recorder (count + 1) =
    (raw.stage settings now recorder count).step settings now recorder
      (toIntegers (raw.frame count)) := by
  rw [stage, first_succ, List.map_append, List.foldl_append]
  rfl

/-- The first 5000 frames go into the offsets. -/
theorem stage_gathering {count : ℕ} (hcount : count < offsetGatherCnt) :
    raw.stage settings now recorder count =
      .gathering (offsetGatherCnt - count) (raw.gathering count) := by
  induction count with
  | zero => rfl
  | succ count ih =>
    have hleft : offsetGatherCnt - (count + 1) ≠ 0 := by omega
    rw [stage_succ, ih (Nat.lt_of_succ_lt hcount)]
    simp only [SamplingStage.step, gatherFrame_gathering, Nat.sub_sub, if_neg hleft]

/-- The measurement starts behind the last of them, with the filter states as its offsets. -/
theorem stage_last_gathering {count : ℕ} (hcount : count + 1 = offsetGatherCnt) :
    raw.stage settings now recorder (count + 1) =
      .measuring (raw.filtered (count + 1)) ⟨raw.samples (count + 1), FrontEnd.boot.rms⟩
        (start recorder) := by
  have hleft : offsetGatherCnt - count - 1 = 0 := by omega
  rw [stage_succ, raw.stage_gathering (by omega)]
  simp only [SamplingStage.step, gatherFrame_gathering, if_pos hleft, offsets_gathering,
    SamplingStage.startMeasuring]
  rfl

theorem stage_offsetGatherCnt : raw.stage settings now recorder offsetGatherCnt =
    .measuring raw.offsets (raw.front 0) (start recorder) :=
  raw.stage_last_gathering (Nat.sub_add_cancel (by decide : 1 ≤ offsetGatherCnt))

/-- As long as the measurement runs, it runs on the values of the signal. -/
theorem stage_measuring {n : ℕ} (hrunning : ∀ k < n,
      (Measurement.after settings now recorder raw.processed k).phase ≠ .finished) :
    raw.stage settings now recorder (offsetGatherCnt + n) =
      .measuring raw.offsets (raw.front n)
        (Measurement.after settings now recorder raw.processed n) := by
  induction n with
  | zero => exact raw.stage_offsetGatherCnt
  | succ n ih =>
    have hphase := hrunning n (Nat.lt_succ_self n)
    rw [← Nat.add_assoc, stage_succ, ih fun k hk ↦ hrunning k (Nat.lt_succ_of_lt hk), after_succ]
    simp only [SamplingStage.step, if_neg hphase, processFrame_front]

/-- Nothing is read behind the end of the recording. -/
theorem stage_finished {count : ℕ} {offsets : Quad ℤ} {front : FrontEnd} {m : Measurement}
    (h : raw.stage settings now recorder count = .measuring offsets front m)
    (hphase : m.phase = .finished) (more : ℕ) :
    raw.stage settings now recorder (count + more) = .measuring offsets front m := by
  induction more with
  | zero => exact h
  | succ more ih =>
    rw [← Nat.add_assoc, stage_succ, ih]
    exact if_pos hphase

/-! ## The recorded segment -/

/-- The frames of the signal from frame `start` on. -/
def frames (start count : ℕ) : List Processed := (List.range' start count).map raw.processed

/-- A statement about the measurement of the program. It fails while offsets are gathered. -/
def Measures (raw : RawSignal) (settings : Settings) (now : UInt32) (recorder : Recorder)
    (count : ℕ) (holds : Measurement → Prop) : Prop :=
  ∃ offsets front m, raw.stage settings now recorder count = .measuring offsets front m ∧ holds m

/-- The program takes 5000 frames for the offsets, waits while the RMS values of the signal are not
above the start threshold, and records as many frames behind the first one above it as the settings
ask for. What it stores on the way is the clamped signal. -/
structure RecordsSegment (settings : Settings) (now : UInt32) (recorder : Recorder) : Prop where
  gathers : ∀ count < offsetGatherCnt, ∃ state,
    raw.stage settings now recorder count = .gathering (offsetGatherCnt - count) state
  waits : ∀ n, (∀ k < n, ¬ settings.Triggers (raw.rms k)) →
    raw.Measures settings now recorder (offsetGatherCnt + n) fun m ↦
      m.WaitingAfter (raw.frames 0 n)
  records : ∀ t, FirstTrigger settings raw.processed t →
    ∃ N, ConfiguredLength settings raw.processed t N ∧
      (∀ n < N, raw.Measures settings now recorder (offsetGatherCnt + (t + 1 + n)) fun m ↦
        m.RecordingAfter (raw.frames 0 (t + 1)) (raw.frames (t + 1) n)) ∧
      ∀ n, N ≤ n → raw.Measures settings now recorder (offsetGatherCnt + (t + 1 + n)) fun m ↦
        m.FinishedAfter (raw.frames 0 (t + 1)) (raw.frames (t + 1) N)

theorem frames_succ (start count : ℕ) :
    raw.frames start (count + 1) = raw.frames start count ++ [raw.processed (start + count)] := by
  rw [frames, List.range'_concat, List.map_append, Nat.one_mul]
  rfl

/-- Waiting stores the frames of the signal. -/
theorem waitingAfter_frames {n : ℕ} (hquiet : ∀ k < n, ¬ settings.Triggers (raw.rms k)) :
    (Measurement.after settings now recorder raw.processed n).WaitingAfter (raw.frames 0 n) := by
  rw [frames, ← List.range_eq_range']
  exact waiting_until_trigger settings now recorder raw.processed n hquiet

/-- The first trigger frame is stored too. -/
theorem recordingAfter_trigger {t : ℕ} (htrigger : FirstTrigger settings raw.processed t) :
    (Measurement.after settings now recorder raw.processed (t + 1)).RecordingAfter
      (raw.frames 0 (t + 1)) [] := by
  rw [after_succ, frames_succ, Nat.zero_add]
  exact (raw.waitingAfter_frames htrigger.2).step_trigger htrigger.1

theorem run_frames (t n : ℕ) :
    (Measurement.after settings now recorder raw.processed t).run settings now (raw.frames t n) =
      Measurement.after settings now recorder raw.processed (t + n) := by
  induction n with
  | zero => rfl
  | succ n ih => rw [frames_succ, run_concat, ih, ← Nat.add_assoc, after_succ]

/-- A recording that still runs holds the frames of the signal. -/
theorem recordingAfter_frames {t n : ℕ} (htrigger : FirstTrigger settings raw.processed t)
    (hphase : (Measurement.after settings now recorder raw.processed (t + 1 + n)).phase =
      .recording) :
    (Measurement.after settings now recorder raw.processed (t + 1 + n)).RecordingAfter
      (raw.frames 0 (t + 1)) (raw.frames (t + 1) n) := by
  rw [← run_frames] at hphase ⊢
  exact recordingAfter_run (raw.recordingAfter_trigger htrigger) hphase

/-- So does one that has just ended. -/
theorem finishedAfter_frames {t n : ℕ} (htrigger : FirstTrigger settings raw.processed t)
    (hrecording : (Measurement.after settings now recorder raw.processed (t + 1 + n)).phase =
      .recording)
    (hfinished : (Measurement.after settings now recorder raw.processed (t + 1 + (n + 1))).phase =
      .finished) :
    (Measurement.after settings now recorder raw.processed (t + 1 + (n + 1))).FinishedAfter
      (raw.frames 0 (t + 1)) (raw.frames (t + 1) (n + 1)) := by
  have hframes := raw.recordingAfter_frames htrigger hrecording
  rw [← Nat.add_assoc, after_succ] at hfinished ⊢
  rw [raw.frames_succ (t + 1) n]
  cases hframes.step settings now (raw.processed (t + 1 + n)) with
  | inl hnext => exact absurd (hnext.phase_eq.symm.trans hfinished) (by decide)
  | inr hnext => exact hnext

section Configured

variable (now recorder) {t N : ℕ} (hduration : settings.rmsTrigEndDuration.toNat < 65535)
  (htrigger : FirstTrigger settings raw.processed t)
  (hN : ConfiguredLength settings raw.processed t N)

include hduration htrigger hN

/-- Behind the trigger the phases follow the configured length. -/
theorem phase_of_configuredLength :
    (∀ n < N, (Measurement.after settings now recorder raw.processed (t + 1 + n)).phase =
      .recording) ∧
      (Measurement.after settings now recorder raw.processed (t + 1 + N)).phase = .finished :=
  ends_at_least now recorder htrigger (hN.isLeast_endsAt (Or.inl hduration))

/-- No frame up to the last recorded one finds the measurement finished. -/
theorem running_of_configuredLength {k : ℕ} (hk : k < t + 1 + N) :
    (Measurement.after settings now recorder raw.processed k).phase ≠ .finished := by
  by_cases hwaits : k ≤ t
  · rw [(raw.waitingAfter_frames fun j hj ↦ htrigger.2 j (hj.trans_le hwaits)).phase_eq]
    decide
  · have hindex : k = t + 1 + (k - (t + 1)) := by omega
    rw [hindex, (raw.phase_of_configuredLength now recorder hduration htrigger hN).1 _ (by omega)]
    decide

/-- Behind the last recorded frame the measurement holds the segment. -/
theorem finishedAfter_of_configuredLength :
    (Measurement.after settings now recorder raw.processed (t + 1 + N)).FinishedAfter
      (raw.frames 0 (t + 1)) (raw.frames (t + 1) N) := by
  obtain ⟨hrecording, hfinished⟩ :=
    raw.phase_of_configuredLength now recorder hduration htrigger hN
  obtain ⟨last, rfl⟩ := Nat.exists_eq_succ_of_ne_zero (Nat.ne_of_gt hN.1.1)
  exact raw.finishedAfter_frames htrigger (hrecording last (Nat.lt_succ_self last)) hfinished

end Configured

/-- From boot on, every sequence of converter frames is recorded as the settings ask for on the
signal, for every duration below the largest one. -/
theorem recordsSegment_of_boot (raw : RawSignal) (settings : Settings)
    (hduration : settings.rmsTrigEndDuration.toNat < 65535) (now : UInt32) (recorder : Recorder) :
    raw.RecordsSegment settings now recorder where
  gathers count hcount := ⟨raw.gathering count, raw.stage_gathering hcount⟩
  waits n hquiet := by
    refine ⟨_, _, _, raw.stage_measuring fun k hk ↦ ?_, raw.waitingAfter_frames hquiet⟩
    have hwaiting : (Measurement.after settings now recorder raw.processed k).WaitingAfter _ :=
      raw.waitingAfter_frames fun j hj ↦ hquiet j (hj.trans hk)
    rw [hwaiting.phase_eq]
    decide
  records t htrigger := by
    obtain ⟨N, hN⟩ := exists_configuredLength settings raw.processed t
    refine ⟨N, hN, fun n hn ↦ ?_, fun n hn ↦ ?_⟩
    · refine ⟨_, _, _, raw.stage_measuring fun k hk ↦ ?_, ?_⟩
      · exact raw.running_of_configuredLength now recorder hduration htrigger hN (by omega)
      · have hphase := (raw.phase_of_configuredLength now recorder hduration htrigger hN).1 n hn
        exact raw.recordingAfter_frames htrigger hphase
    · have hindex : offsetGatherCnt + (t + 1 + n) =
          offsetGatherCnt + (t + 1 + N) + (n - N) := by omega
      have hfinished := raw.finishedAfter_of_configuredLength now recorder hduration htrigger hN
      have hstage := raw.stage_measuring fun k hk ↦
        raw.running_of_configuredLength now recorder hduration htrigger hN hk
      rw [hindex]
      exact ⟨_, _, _, raw.stage_finished hstage hfinished.phase_eq _, hfinished⟩

/-! ## A step of the signal -/

/-- A signal that steps from zero once the offsets are gathered. -/
def stepped : RawSignal where
  frame n _ := if n < offsetGatherCnt then 0 else 4000
  inRange n _ := by
    split
    · exact ⟨(by decide : -8192 ≤ (0 : ℤ)), (by decide : (0 : ℤ) ≤ 16383)⟩
    · exact ⟨(by decide : -8192 ≤ (4000 : ℤ)), (by decide : (4000 : ℤ) ≤ 16383)⟩

theorem sum_stepped_rtake {count : ℕ} (hcount : count ≤ offsetGatherCnt) (size : ℕ)
    (channel : Channel) :
    (column ((stepped.first count).rtake size) channel).sum = 0 := by
  apply List.sum_eq_zero
  intro value hvalue
  obtain ⟨frame, hframe, rfl⟩ := List.mem_map.mp hvalue
  obtain ⟨n, hn, rfl⟩ := List.mem_map.mp (List.mem_of_mem_drop hframe)
  have hlt : n < offsetGatherCnt := (List.mem_range.mp hn).trans_le hcount
  simp only [stepped, if_pos hlt]
  rfl

theorem average_stepped {n : ℕ} (hn : n < offsetGatherCnt) (channel : Channel) :
    stepped.average n channel = 0 := by
  rw [average, movingAverage, sum_stepped_rtake hn]
  rfl

theorem filtered_stepped {count : ℕ} (hcount : count ≤ offsetGatherCnt) (channel : Channel) :
    stepped.filtered count channel = filteredAfter 0 5200 count := by
  induction count with
  | zero => rfl
  | succ count ih =>
    rw [filtered_succ, ih (Nat.le_of_succ_le hcount), average_stepped hcount, filteredAfter,
      filteredAfter, Function.iterate_succ_apply']

theorem offsets_stepped (channel : Channel) : stepped.offsets channel = 0 := by
  rw [offsets, filtered_stepped le_rfl, filteredAfter_eq_iterate (by decide) le_rfl,
    Smoothing.iterate_eq_settledLevel (by decide) (by decide) iterate_decay_converterRange le_rfl]
  rfl

theorem average_step (channel : Channel) : stepped.average offsetGatherCnt channel = 1000 := by
  have hlast : stepped.frame offsetGatherCnt = fun _ ↦ 4000 := by
    simp only [stepped, lt_irrefl, if_false]
  have hrtake : (stepped.first (offsetGatherCnt + 1)).rtake bufferLength =
      (stepped.first offsetGatherCnt).rtake 3 ++ [fun _ ↦ 4000] := by
    rw [first_succ, hlast]
    exact List.rtake_concat_succ ..
  have hsum := sum_stepped_rtake le_rfl 3 channel
  have hvalue : (4000 : Int16).toInt = 4000 := by decide
  rw [average, movingAverage, Window.rtake_min_length, hrtake, column, List.map_append,
    List.sum_append, ← column, hsum, List.map_singleton, List.sum_singleton, hvalue]
  rfl

theorem firstTrigger_stepped : FirstTrigger ⟨55, 35, 4000, 0⟩ stepped.processed 0 := by
  refine ⟨Or.inl ?_, fun n hn ↦ absurd hn (Nat.not_lt_zero n)⟩
  have hvalue : stepped.value 0 0 = 1000 := by
    rw [value, Nat.add_zero, average_step, offsets_stepped, Int.sub_zero]
  have hvalues : stepped.values 1 0 = [1000] := congrArg (fun first ↦ [first]) hvalue
  have hmean : sumOfSquares ([1000].rtake rmsBufferSize) / rmsBufferSize = 100 * 100 := rfl
  have hrms : stepped.rms 0 0 = 100 := by
    rw [rms, hvalues, hmean, Int.sqrt_eq]
    rfl
  show stepped.rms 0 0 > _
  rw [hrms]
  decide

theorem recordsSegment_of_boot_stepped :
    FirstTrigger ⟨55, 35, 4000, 0⟩ stepped.processed 0 ∧
      stepped.RecordsSegment ⟨55, 35, 4000, 0⟩ 7 (Recorder.boot fun _ ↦ 0) :=
  ⟨firstTrigger_stepped,
    recordsSegment_of_boot stepped ⟨55, 35, 4000, 0⟩ (by decide) 7 (Recorder.boot fun _ ↦ 0)⟩

end RawSignal

end NrfExamples.MqttWorking
