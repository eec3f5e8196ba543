import NrfExamples.Library.Checked
import NrfExamples.MqttWorking.Measurement
import NrfExamples.MqttWorking.OffsetGathering
import NrfExamples.MqttWorking.RunningRms

/-!
# Arithmetic of the sampling pipeline

`SamplingStage` follows `main` frame by frame from the offset gathering through the trigger loop and
the recording loop. Each function on its way has a checked counterpart in which every intermediate
value must fit its C type and every narrowing, down to the two bytes of a recorded value, must keep
the value. For raw samples of the fourteen-bit converter the checked pipeline never fails, so the
exact arithmetic of the model is the arithmetic of the program.
-/

namespace NrfExamples.MqttWorking

open Checked Word

/-! ## The pipeline -/

inductive SamplingStage where
  | gathering (remaining : ℕ) (state : OffsetGathering)
  | measuring (offsets : Quad ℤ) (front : FrontEnd) (measurement : Measurement)

namespace SamplingStage

def boot : SamplingStage := .gathering offsetGatherCnt OffsetGathering.boot

variable (settings : Settings) (now : UInt32) (recorder : Recorder)

/-- Entering the trigger loop: the averaging buffer goes on, the RMS windows are still zero. -/
def startMeasuring (offsets : Quad ℤ) (samples : SampleBuffer) : SamplingStage :=
  .measuring offsets ⟨samples, FrontEnd.boot.rms⟩ (Measurement.start recorder)

/-- One frame. No frame is read any more behind the recording loop. -/
def step : SamplingStage → Quad ℤ → SamplingStage
  | .gathering remaining state, frame =>
      let state := state.gatherFrame frame
      if remaining - 1 = 0 then startMeasuring recorder state.offsets state.samples
      else .gathering (remaining - 1) state
  | .measuring offsets front measurement, frame =>
      if measurement.phase = .finished then .measuring offsets front measurement
      else
        let result := processFrame offsets front frame
        .measuring offsets result.1 (measurement.step settings now result.2)

end SamplingStage

/-! ## Checked functions -/

/-- `total_sum` is an `int32_t` and the average an `int16_t`. -/
def averageChecked (rows : List (Quad ℤ)) (channel : Channel) : Option ℤ := do
  let totalSum ← sum 32 (rows.map fun row : Quad ℤ ↦ row channel)
  let average ← div 32 totalSum bufferLength
  narrow 16 average

def averageOfVectorsChecked (rows : List (Quad ℤ)) : Option (Quad ℤ) :=
  collect (averageChecked rows)

def exponentialFilterChecked (previousFiltered newSample : ℤ) : Option ℤ := do
  let scaledSample ← mul 32 alphaNum newSample
  let weight ← sub 32 alphaDen alphaNum
  let scaledPrevious ← mul 32 weight previousFiltered
  let total ← add 32 scaledSample scaledPrevious
  div 32 total alphaDen

/-- A mean square below zero has no root, so it is refused as well. -/
def updateRmsChecked (window : RmsWindow) (newSample : ℤ) : Option (RmsWindow × ℤ) := do
  let oldSample := window.buffer.getD window.indexx 0
  let oldSquare ← mul 64 oldSample oldSample
  let reduced ← sub 64 window.sumSquares oldSquare
  let stored ← narrow 32 newSample
  let newSquare ← mul 64 newSample newSample
  let sumSquares ← add 64 reduced newSquare
  let quotient ← div 64 sumSquares rmsBufferSize
  let meanSquare ← narrow 32 quotient
  let root ← if 0 ≤ meanSquare then narrow 32 (Int.sqrt meanSquare) else none
  some ({ buffer := window.buffer.set window.indexx stored
          indexx := (window.indexx + 1) % rmsBufferSize
          sumSquares := sumSquares }, root)

def processFrameChecked (offsets : Quad ℤ) (front : FrontEnd) (frame : Quad ℤ) :
    Option (FrontEnd × Processed) := do
  let samples := addSamplesToBuffer front.samples frame
  let averages ← averageOfVectorsChecked samples.buffer
  let newSamples ← collect fun channel ↦ sub 32 (averages channel) (offsets channel)
  let updated ← collect fun channel ↦ updateRmsChecked (front.rms channel) (newSamples channel)
  some ({ samples := samples, rms := fun channel ↦ (updated channel).1 },
    { offValue := saturateChannelValues newSamples
      rmsValue := fun channel ↦ (updated channel).2 })

def gatherFrameChecked (state : OffsetGathering) (frame : Quad ℤ) : Option OffsetGathering := do
  let samples := addSamplesToBuffer state.samples frame
  let averages ← averageOfVectorsChecked samples.buffer
  let filtered ← collect fun channel ↦
    exponentialFilterChecked (state.filteredValueArray channel) (averages channel)
  some { samples := samples, filteredValueArray := filtered }

/-- The value that the two bytes of a recorded value decode to. -/
def storeBytesChecked (value : ℤ) : Option ℤ :=
  let decoded := joinBytes (highByte value) (lowByte value)
  if decoded = value then some decoded else none

/-- The values as the trigger loop stores them in the ring and the recording loop in a record. -/
def storedValuesChecked (phase : Phase) (values : Quad ℤ) : Option (Quad ℤ) :=
  match phase with
  | .waiting => collect fun channel ↦ narrow 16 (values channel)
  | .recording => collect fun channel ↦ storeBytesChecked (values channel)
  | .finished => some values

/-- `step` with the checked functions. -/
def SamplingStage.stepChecked (settings : Settings) (now : UInt32) (recorder : Recorder) :
    SamplingStage → Quad ℤ → Option SamplingStage
  | .gathering remaining state, frame => do
      let state ← gatherFrameChecked state frame
      if remaining - 1 = 0 then
        let offsets ← collect fun channel ↦ narrow 16 (state.filteredValueArray channel)
        some (startMeasuring recorder offsets state.samples)
      else some (.gathering (remaining - 1) state)
  | .measuring offsets front measurement, frame =>
      if measurement.phase = .finished then some (.measuring offsets front measurement)
      else do
        let result ← processFrameChecked offsets front frame
        let stored ← storedValuesChecked measurement.phase result.2.offValue
        some (.measuring offsets result.1
          (measurement.step settings now { result.2 with offValue := stored }))

/-! ## Ranges -/

/-- The raw samples of the converter. -/
def InConverterRange (value : ℤ) : Prop := -8192 ≤ value ∧ value ≤ 16383

theorem InConverterRange.fits {value : ℤ} (h : InConverterRange value) {width : ℕ}
    (hwidth : 16384 ≤ (2 : ℤ) ^ (width - 1)) : Fits width value := by
  obtain ⟨hlower, hupper⟩ := h
  constructor
  · linarith
  · linarith

theorem InConverterRange.toInt16_eq {value : ℤ} (h : InConverterRange value) :
    toInt16 value = value :=
  toInt16_eq_self ⟨by linarith [h.1], by linarith [h.2]⟩

/-- An averaging buffer of converter values. -/
structure SampleBuffer.InRange (window : SampleBuffer) : Prop where
  length_eq : window.buffer.length = bufferLength
  rows : ∀ row ∈ window.buffer, ∀ channel, InConverterRange (row channel)

theorem SampleBuffer.inRange_boot : FrontEnd.boot.samples.InRange where
  length_eq := rfl
  rows row hrow channel := by
    rw [List.eq_of_mem_replicate hrow]
    exact ⟨(by decide : -8192 ≤ (0 : ℤ)), (by decide : (0 : ℤ) ≤ 16383)⟩

theorem SampleBuffer.InRange.add {window : SampleBuffer} (h : window.InRange) {frame : Quad ℤ}
    (hframe : ∀ channel, InConverterRange (frame channel)) :
    (addSamplesToBuffer window frame).InRange where
  length_eq := List.length_set.trans h.length_eq
  rows row hrow := by
    obtain hold | rfl := List.mem_or_eq_of_mem_set hrow
    · exact h.rows row hold
    · exact hframe

/-! ## Averages -/

theorem averageChecked_eq {window : SampleBuffer} (h : window.InRange) (channel : Channel) :
    averageChecked window.buffer channel = some (averageOfVectors window.buffer channel) ∧
      InConverterRange (averageOfVectors window.buffer channel) := by
  have hcolumn : ∀ value ∈ window.buffer.map (fun row : Quad ℤ ↦ row channel),
      InConverterRange value := by
    intro value hvalue
    obtain ⟨row, hrow, rfl⟩ := List.mem_map.mp hvalue
    exact h.rows row hrow channel
  have hlength : (window.buffer.map fun row : Quad ℤ ↦ row channel).length = bufferLength :=
    (List.length_map _).trans h.length_eq
  have habs : ∀ value ∈ window.buffer.map (fun row : Quad ℤ ↦ row channel), |value| ≤ 16383 :=
    fun value hvalue ↦ abs_le.mpr ⟨by linarith [(hcolumn value hvalue).1], (hcolumn value hvalue).2⟩
  have hsum : sum 32 (window.buffer.map fun row : Quad ℤ ↦ row channel) = some _ :=
    sum_eq_some habs (by rw [hlength]; decide)
  have haverage : InConverterRange _ := mean_range (by decide) hlength hcolumn
  have hquotient : div 32 _ bufferLength = some _ := narrow_eq_some (haverage.fits (by norm_num))
  have hnarrow : narrow 16 _ = some _ := narrow_eq_some (haverage.fits (by norm_num))
  have hvalue : averageOfVectors window.buffer channel = _ := haverage.toInt16_eq
  rw [hvalue]
  refine ⟨?_, haverage⟩
  calc
    averageChecked window.buffer channel =
        (div 32 _ bufferLength).bind (narrow 16) := by
      rw [averageChecked, hsum]
      rfl
    _ = some _ := by rw [hquotient, Option.bind_some, hnarrow]

theorem averageOfVectorsChecked_eq {window : SampleBuffer} (h : window.InRange) :
    averageOfVectorsChecked window.buffer = some (averageOfVectors window.buffer) :=
  collect_eq_some fun channel ↦ (averageChecked_eq h channel).1

/-! ## Filter -/

theorem exponentialFilterChecked_eq {previousFiltered newSample : ℤ}
    (hprevious : InConverterRange previousFiltered) (hsample : InConverterRange newSample) :
    exponentialFilterChecked previousFiltered newSample =
        some (exponentialFilter previousFiltered newSample) ∧
      InConverterRange (exponentialFilter previousFiltered newSample) := by
  obtain ⟨hpreviousLower, hpreviousUpper⟩ := hprevious
  obtain ⟨hsampleLower, hsampleUpper⟩ := hsample
  have hresult : InConverterRange (exponentialFilter previousFiltered newSample) := by
    unfold exponentialFilter alphaNum alphaDen
    apply tdiv_range
    · decide
    · linarith
    · linarith
  have hscaledSample : mul 32 alphaNum newSample = some (alphaNum * newSample) := by
    apply narrow_eq_some
    unfold Fits alphaNum
    omega
  have hweight : sub 32 alphaDen alphaNum = some (alphaDen - alphaNum) := rfl
  have hscaledPrevious : mul 32 (alphaDen - alphaNum) previousFiltered =
      some ((alphaDen - alphaNum) * previousFiltered) := by
    apply narrow_eq_some
    unfold Fits alphaNum alphaDen
    omega
  have htotal : add 32 (alphaNum * newSample) ((alphaDen - alphaNum) * previousFiltered) =
      some (alphaNum * newSample + (alphaDen - alphaNum) * previousFiltered) := by
    apply narrow_eq_some
    unfold Fits alphaNum alphaDen
    omega
  have hquotient : div 32 (alphaNum * newSample + (alphaDen - alphaNum) * previousFiltered)
      alphaDen = some (exponentialFilter previousFiltered newSample) :=
    narrow_eq_some (hresult.fits (by norm_num))
  refine ⟨?_, hresult⟩
  simp only [exponentialFilterChecked, hscaledSample, hweight, hscaledPrevious, htotal, hquotient,
    Option.bind_eq_bind, Option.bind_some]

/-! ## RMS -/

theorem abs_sub_le_maxDifference {value offset : ℤ} (hvalue : InConverterRange value)
    (hoffset : InConverterRange offset) : |value - offset| ≤ maxDifference := by
  obtain ⟨hvalueLower, hvalueUpper⟩ := hvalue
  obtain ⟨hoffsetLower, hoffsetUpper⟩ := hoffset
  unfold maxDifference
  exact abs_le.mpr ⟨by linarith, by linarith⟩

/-- A window that took only differences of converter values. -/
def RmsWindow.InRange (window : RmsWindow) : Prop :=
  ∃ samples, window.Tracks samples ∧ ∀ sample ∈ samples, |sample| ≤ maxDifference

theorem RmsWindow.inRange_zero : RmsWindow.zero.InRange :=
  ⟨[], RmsWindow.tracks_zero, fun _ hsample ↦ absurd hsample List.not_mem_nil⟩

theorem RmsWindow.InRange.updateRms {window : RmsWindow} (h : window.InRange) {newSample : ℤ}
    (hsample : |newSample| ≤ maxDifference) :
    (MqttWorking.updateRms window newSample).1.InRange := by
  obtain ⟨samples, htracks, hrange⟩ := h
  refine ⟨samples ++ [newSample], htracks.updateRms newSample, ?_⟩
  intro sample hmem
  obtain hold | hnew := List.mem_append.mp hmem
  · exact hrange sample hold
  · rwa [List.mem_singleton.mp hnew]

/-- The sample that leaves the window. -/
theorem RmsWindow.InRange.abs_oldSample_le {window : RmsWindow} (h : window.InRange) :
    |window.buffer.getD window.indexx 0| ≤ maxDifference := by
  obtain ⟨samples, htracks, hrange⟩ := h
  have hindex : window.indexx < window.buffer.length :=
    htracks.holds.length_eq.symm ▸ htracks.indexx_lt
  have hmem : window.buffer.getD window.indexx 0 ∈ window.buffer := by
    rw [List.getD_eq_getElem _ _ hindex]
    exact List.getElem_mem hindex
  obtain hfill | hsample := Window.mem_last (htracks.holds.perm.mem_iff.mp hmem)
  · rw [hfill]
    decide
  · exact hrange _ hsample

/-- The sum of squares is at least zero and leaves room in every type it is narrowed to. -/
theorem RmsWindow.InRange.sumSquares_range {window : RmsWindow} (h : window.InRange) :
    0 ≤ window.sumSquares ∧
      window.sumSquares ≤ rmsBufferSize * (maxDifference * maxDifference) := by
  obtain ⟨samples, htracks, hrange⟩ := h
  refine ⟨?_, htracks.sumSquares_le hrange⟩
  rw [htracks.sumSquares_eq]
  exact sumOfSquares_nonneg _

theorem square_range {sample : ℤ} (h : |sample| ≤ maxDifference) :
    0 ≤ sample * sample ∧ sample * sample ≤ 603930625 := by
  refine ⟨mul_self_nonneg sample, ?_⟩
  calc
    sample * sample = |sample| * |sample| := (abs_mul_abs_self sample).symm
    _ ≤ maxDifference * maxDifference := mul_self_le_mul_self (abs_nonneg sample) h
    _ = 603930625 := by decide

/-- The part of `update_rms` behind the update of the sum. -/
theorem rootChecked_eq {sumSquares : ℤ} (hnonneg : 0 ≤ sumSquares)
    (hle : sumSquares ≤ rmsBufferSize * (maxDifference * maxDifference)) :
    div 64 sumSquares rmsBufferSize = some (sumSquares / rmsBufferSize) ∧
      narrow 32 (sumSquares / rmsBufferSize) = some (sumSquares / rmsBufferSize) ∧
      0 ≤ sumSquares / rmsBufferSize ∧
      narrow 32 (Int.sqrt (sumSquares / rmsBufferSize)) =
        some (Int.sqrt (sumSquares / rmsBufferSize)) := by
  have hbound : sumSquares ≤ 60393062500 := hle
  have hmean : 0 ≤ sumSquares / rmsBufferSize ∧ sumSquares / rmsBufferSize ≤ 603930625 := by
    unfold rmsBufferSize
    omega
  have hroot : 0 ≤ Int.sqrt (sumSquares / rmsBufferSize) ∧
      Int.sqrt (sumSquares / rmsBufferSize) ≤ sumSquares / rmsBufferSize := by
    refine ⟨Int.sqrt_nonneg _, ?_⟩
    have hnat := Nat.sqrt_le_self (sumSquares / rmsBufferSize).toNat
    unfold Int.sqrt
    omega
  refine ⟨?_, ?_, hmean.1, ?_⟩
  · rw [div, Int.tdiv_eq_ediv_of_nonneg hnonneg]
    apply narrow_eq_some
    unfold Fits
    omega
  · apply narrow_eq_some
    unfold Fits
    omega
  · apply narrow_eq_some
    unfold Fits
    omega

theorem updateRmsChecked_eq {window : RmsWindow} (h : window.InRange) {newSample : ℤ}
    (hsample : |newSample| ≤ maxDifference) :
    updateRmsChecked window newSample = some (updateRms window newSample) := by
  obtain ⟨holdNonneg, holdLe⟩ := square_range h.abs_oldSample_le
  obtain ⟨hnewNonneg, hnewLe⟩ := square_range hsample
  obtain ⟨hsumNonneg, hsumLe⟩ := h.sumSquares_range
  have hresult := (h.updateRms hsample).sumSquares_range
  obtain ⟨hquotient, hmeanSquare, hmeanNonneg, hroot⟩ := rootChecked_eq hresult.1 hresult.2
  have hmean := toInt32_meanSquare hresult.1 hresult.2
  have hbound : (rmsBufferSize : ℤ) * (maxDifference * maxDifference) = 60393062500 := by decide
  rw [hbound] at hsumLe
  simp only [updateRms] at hquotient hmeanSquare hmeanNonneg hroot hmean ⊢
  rw [hmean]
  unfold updateRmsChecked
  generalize window.buffer.getD window.indexx 0 = oldSample at *
  have holdSquare : mul 64 oldSample oldSample = some (oldSample * oldSample) := by
    apply narrow_eq_some
    unfold Fits
    omega
  have hreduced : sub 64 window.sumSquares (oldSample * oldSample) =
      some (window.sumSquares - oldSample * oldSample) := by
    apply narrow_eq_some
    unfold Fits
    omega
  have hstored : narrow 32 newSample = some newSample :=
    narrow_eq_some (fits_of_abs_le hsample (by decide))
  have hnewSquare : mul 64 newSample newSample = some (newSample * newSample) := by
    apply narrow_eq_some
    unfold Fits
    omega
  have htotal : add 64 (window.sumSquares - oldSample * oldSample) (newSample * newSample) =
      some (window.sumSquares - oldSample * oldSample + newSample * newSample) := by
    apply narrow_eq_some
    unfold Fits
    omega
  simp only [holdSquare, hreduced, hstored, hnewSquare, htotal, hquotient, hmeanSquare,
    if_pos hmeanNonneg, hroot, Option.bind_eq_bind, Option.bind_some]

/-! ## Frames -/

/-- The averaging buffer and the filters hold converter values. -/
structure OffsetGathering.InRange (state : OffsetGathering) : Prop where
  samples : state.samples.InRange
  filtered : ∀ channel, InConverterRange (state.filteredValueArray channel)

/-- The buffers of the trigger and recording loops hold what converter values leave in them. -/
structure FrontEnd.InRange (front : FrontEnd) : Prop where
  samples : front.samples.InRange
  rms : ∀ channel, (front.rms channel).InRange

theorem OffsetGathering.inRange_boot : OffsetGathering.boot.InRange where
  samples := SampleBuffer.inRange_boot
  filtered _ := ⟨(by decide : -8192 ≤ (5200 : ℤ)), (by decide : (5200 : ℤ) ≤ 16383)⟩

theorem gatherFrameChecked_eq {state : OffsetGathering} (h : state.InRange) {frame : Quad ℤ}
    (hframe : ∀ channel, InConverterRange (frame channel)) :
    gatherFrameChecked state frame = some (state.gatherFrame frame) ∧
      (state.gatherFrame frame).InRange := by
  have hsamples := h.samples.add hframe
  have hfilter (channel : Channel) := exponentialFilterChecked_eq (h.filtered channel)
    (averageChecked_eq hsamples channel).2
  have hcollect := collect_eq_some fun channel ↦ (hfilter channel).1
  refine ⟨?_, hsamples, fun channel ↦ (hfilter channel).2⟩
  simp only [gatherFrameChecked, averageOfVectorsChecked_eq hsamples, hcollect,
    Option.bind_eq_bind, Option.bind_some]
  rfl

theorem processFrameChecked_eq {offsets : Quad ℤ} {front : FrontEnd} {frame : Quad ℤ}
    (hoffsets : ∀ channel, InConverterRange (offsets channel)) (h : front.InRange)
    (hframe : ∀ channel, InConverterRange (frame channel)) :
    processFrameChecked offsets front frame = some (processFrame offsets front frame) ∧
      (processFrame offsets front frame).1.InRange := by
  have hsamples := h.samples.add hframe
  have hdifference (channel : Channel) :
      |newSample offsets (addSamplesToBuffer front.samples frame) channel| ≤ maxDifference :=
    abs_sub_le_maxDifference (averageChecked_eq hsamples channel).2 (hoffsets channel)
  have hnewSamples : (collect fun channel ↦ sub 32
      (averageOfVectors (addSamplesToBuffer front.samples frame).buffer channel)
      (offsets channel)) = some (newSample offsets (addSamplesToBuffer front.samples frame)) :=
    collect_eq_some fun channel ↦ narrow_eq_some (fits_of_abs_le (hdifference channel) (by decide))
  have hupdated := collect_eq_some fun channel ↦
    updateRmsChecked_eq (h.rms channel) (hdifference channel)
  refine ⟨?_, hsamples, fun channel ↦ (h.rms channel).updateRms (hdifference channel)⟩
  simp only [processFrameChecked, averageOfVectorsChecked_eq hsamples, hnewSamples, hupdated,
    Option.bind_eq_bind, Option.bind_some]
  rfl

/-- Clamped values survive the way into the ring and into a record. -/
theorem storedValuesChecked_eq (phase : Phase) (values : Quad ℤ) :
    storedValuesChecked phase (saturateChannelValues values) =
      some (saturateChannelValues values) := by
  have hrange (channel : Channel) : IsInt16 (saturateChannelValues values channel) :=
    isInt16_saturate (values channel)
  cases phase with
  | waiting => exact collect_eq_some fun channel ↦ narrow_eq_some (hrange channel)
  | recording =>
    apply collect_eq_some
    intro channel
    rw [storeBytesChecked, joinBytes_of_isInt16 (hrange channel), if_pos rfl]
  | finished => rfl

/-! ## Runs -/

def SamplingStage.InRange : SamplingStage → Prop
  | .gathering _ state => state.InRange
  | .measuring offsets front _ => (∀ channel, InConverterRange (offsets channel)) ∧ front.InRange

theorem SamplingStage.inRange_boot : boot.InRange := OffsetGathering.inRange_boot

theorem SamplingStage.stepChecked_eq (settings : Settings) (now : UInt32) (recorder : Recorder)
    (stage : SamplingStage) (frame : Quad ℤ) (h : stage.InRange)
    (hframe : ∀ channel, InConverterRange (frame channel)) :
    stage.stepChecked settings now recorder frame = some (stage.step settings now recorder frame) ∧
      (stage.step settings now recorder frame).InRange := by
  cases stage with
  | gathering remaining state =>
    obtain ⟨hgather, hrange⟩ := gatherFrameChecked_eq h hframe
    have hoffsets := collect_eq_some fun channel ↦
      (narrow_eq_some ((hrange.filtered channel).fits (by norm_num)) : narrow 16 _ = some _)
    have hnarrowed : (state.gatherFrame frame).offsets =
        (state.gatherFrame frame).filteredValueArray :=
      funext fun channel ↦ (hrange.filtered channel).toInt16_eq
    simp only [stepChecked, step, hgather, Option.bind_eq_bind, Option.bind_some, hnarrowed]
    by_cases hlast : remaining - 1 = 0
    · simp only [if_pos hlast, hoffsets, Option.bind_some]
      exact ⟨trivial, hrange.filtered, hrange.samples, fun _ ↦ RmsWindow.inRange_zero⟩
    · simp only [if_neg hlast]
      exact ⟨trivial, hrange⟩
  | measuring offsets front measurement =>
    obtain ⟨hoffsets, hfront⟩ := h
    by_cases hphase : measurement.phase = .finished
    · simp only [stepChecked, step, if_pos hphase]
      exact ⟨trivial, hoffsets, hfront⟩
    · obtain ⟨hprocess, hrange⟩ := processFrameChecked_eq hoffsets hfront hframe
      have hstored : storedValuesChecked measurement.phase
          (processFrame offsets front frame).2.offValue = some _ := storedValuesChecked_eq _ _
      simp only [stepChecked, step, if_neg hphase, hprocess, hstored, Option.bind_eq_bind,
        Option.bind_some]
      exact ⟨rfl, hoffsets, hrange⟩

/-- From boot on, no sequence of converter frames overflows a C type or loses a value. -/
theorem samplingPipeline_checked (settings : Settings) (now : UInt32) (recorder : Recorder)
    (frames : List (Quad ℤ))
    (hframes : ∀ frame ∈ frames, ∀ channel, -8192 ≤ frame channel ∧ frame channel ≤ 16383) :
    frames.foldlM (SamplingStage.stepChecked settings now recorder) SamplingStage.boot =
      some (frames.foldl (SamplingStage.step settings now recorder) SamplingStage.boot) :=
  foldlM_eq_some (SamplingStage.stepChecked_eq settings now recorder) SamplingStage.inRange_boot
    hframes

theorem samplingPipeline_checked_top :
    (List.replicate 6000 fun _ ↦ (16383 : ℤ)).foldlM
        (SamplingStage.stepChecked ⟨55, 35, 4000, 0⟩ 0 (Recorder.boot fun _ ↦ 0))
        SamplingStage.boot =
      some ((List.replicate 6000 fun _ ↦ (16383 : ℤ)).foldl
        (SamplingStage.step ⟨55, 35, 4000, 0⟩ 0 (Recorder.boot fun _ ↦ 0)) SamplingStage.boot) := by
  apply samplingPipeline_checked
  intro frame hframe channel
  rw [List.eq_of_mem_replicate hframe]
  exact ⟨(by decide : -8192 ≤ (16383 : ℤ)), le_rfl⟩

end NrfExamples.MqttWorking
