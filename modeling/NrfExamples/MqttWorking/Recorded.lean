import NrfExamples.MqttWorking.Measurement
import NrfExamples.MqttWorking.RunningRms

/-!
# What a recording contains

`Recorded` relates a recorder to the frames taken before and after the trigger: the ring shows the
former and the PSRAM logs the latter from address zero. Every state of the measurement machine
keeps it, so a finished recording of `N` frames holds `N` records, followed by a thousand padding
records that leave the log in place. The sample limit bounds `N`, and with it every address.
-/

namespace NrfExamples.MqttWorking

open Memory Word

/-- The most frames the recording loop can write: the first count that passes the limit. -/
def maxRecordedFrames : ℕ := nrOfSamplesToMeasure + 1 - crclrBuffSize

/-- The values stored in the ring for a frame. -/
def ringValues (frame : Processed) : Quad ℤ := fun channel ↦ toInt16 (frame.offValue channel)

/-- The record written to the PSRAM for a frame. -/
def recordOf (frame : Processed) : List Byte := encodeRecord frame.offValue

structure Recorded (recorder : Recorder) (before after : List Processed) : Prop where
  ring_shows : recorder.ring.Shows (before.map ringValues)
  overflow : recorder.ring.circBuffOverflow = true
  last_eq : recorder.lastCircBuffRecord = recorder.ring.buffHead
  total_eq : recorder.totalRecordedSamples = crclrBuffSize + after.length
  logged : Logged 10 recorder.psram (after.map recordOf)

/-! ## Padding -/

/-- The padding loop only writes behind the log. -/
theorem memclr_spec (count : ℕ) (recorder : Recorder) :
    ∃ psram buffer, memclr count recorder =
      { recorder with
        psram := psram
        flashWriteBufferByte := buffer
        flashAddressWrite := recorder.flashAddressWrite + 10 * count } ∧
      ∀ records, Logged 10 recorder.psram records →
        10 * records.length ≤ recorder.flashAddressWrite →
        recorder.flashAddressWrite + 10 * count ≤ 2 ^ 24 → Logged 10 psram records := by
  induction count generalizing recorder with
  | zero => exact ⟨recorder.psram, recorder.flashWriteBufferByte, rfl, fun _ h _ _ ↦ h⟩
  | succ count ih =>
    obtain ⟨psram, buffer, heq, hlogged⟩ := ih (writeRecord
      { recorder with flashWriteBufferByte := appendCrc recorder.flashWriteBufferByte })
    refine ⟨psram, buffer, ?_, fun records hrecords hbehind hbound ↦ ?_⟩
    · rw [memclr, heq]
      simp only [writeRecord, Nat.mul_add, Nat.mul_one]
      congr 1
      omega
    · refine hlogged records ?_ ?_ ?_
      · have hbus : busAddress recorder.flashAddressWrite = recorder.flashAddressWrite :=
          busAddress_eq_self (by omega)
        simp only [writeRecord, flashMemoryWriteByteArray, hbus]
        exact hrecords.write_behind _ hbehind _
      · simp only [writeRecord]
        omega
      · simp only [writeRecord]
        omega

namespace Measurement

/-! ## Invariants of the phases -/

structure WaitingAfter (m : Measurement) (before : List Processed) : Prop where
  phase_eq : m.phase = .waiting
  ring_shows : m.recorder.ring.Shows (before.map ringValues)
  overflow : m.recorder.ring.circBuffOverflow = true

structure RecordingAfter (m : Measurement) (before after : List Processed) : Prop where
  phase_eq : m.phase = .recording
  recorded : Recorded m.recorder before after
  sampleCntr_eq : m.sampleCntr = crclrBuffSize + after.length
  address_eq : m.recorder.flashAddressWrite = 10 * after.length
  below_limit : m.sampleCntr ≤ nrOfSamplesToMeasure

structure FinishedAfter (m : Measurement) (before after : List Processed) : Prop where
  phase_eq : m.phase = .finished
  recorded : Recorded m.recorder before after
  address_eq : m.recorder.flashAddressWrite = 10 * (after.length + memclrCnt)
  nonempty : 0 < after.length
  length_le : after.length ≤ maxRecordedFrames

theorem waitingAfter_start (recorder : Recorder) : (start recorder).WaitingAfter [] where
  phase_eq := rfl
  ring_shows := CircBuffer.shows_circularBufferInit
  overflow := rfl

variable {settings : Settings} {now : UInt32} {m : Measurement} {before after : List Processed}

/-- A frame without a trigger goes to the ring. -/
theorem WaitingAfter.step_wait (h : m.WaitingAfter before) {frame : Processed}
    (hframe : ¬ settings.Triggers frame.rmsValue) :
    (m.step settings now frame).WaitingAfter (before ++ [frame]) := by
  rw [step, h.phase_eq]
  simp only [waitFrame, if_neg hframe]
  exact
    { phase_eq := h.phase_eq
      ring_shows := by
        rw [List.map_append]
        exact h.ring_shows.addValue (ringValues frame)
      overflow := CircBuffer.circBuffOverflow_addValue h.overflow _ }

/-- The frame that fires the trigger goes to the ring too, and the record is empty behind it. -/
theorem WaitingAfter.step_trigger (h : m.WaitingAfter before) {frame : Processed}
    (hframe : settings.Triggers frame.rmsValue) :
    (m.step settings now frame).RecordingAfter (before ++ [frame]) [] := by
  have hoverflow := CircBuffer.circBuffOverflow_addValue h.overflow (ringValues frame)
  unfold ringValues at hoverflow
  rw [step, h.phase_eq]
  simp only [waitFrame, if_pos hframe, beginRecording, hoverflow, if_true]
  exact
    { phase_eq := rfl
      recorded :=
        { ring_shows := by
            rw [List.map_append]
            exact h.ring_shows.addValue (ringValues frame)
          overflow := hoverflow
          last_eq := rfl
          total_eq := rfl
          logged := logged_nil 10 _ }
      sampleCntr_eq := rfl
      address_eq := rfl
      below_limit := show crclrBuffSize ≤ nrOfSamplesToMeasure by decide }

/-- Storing one frame appends its record to the log. -/
theorem RecordingAfter.storeFrame_recorded (settings : Settings) (h : m.RecordingAfter before after)
    (frame : Processed) :
    Recorded (m.storeFrame settings frame).recorder before (after ++ [frame]) where
  ring_shows := h.recorded.ring_shows
  overflow := h.recorded.overflow
  last_eq := h.recorded.last_eq
  total_eq := by
    simp only [storeFrame, writeRecord, h.recorded.total_eq, List.length_append,
      List.length_singleton, Nat.add_assoc]
  logged := by
    have hlimit := h.below_limit
    rw [h.sampleCntr_eq] at hlimit
    have hbus : busAddress (10 * after.length) = 10 * (after.map recordOf).length := by
      rw [List.length_map]
      apply busAddress_eq_self
      unfold nrOfSamplesToMeasure at hlimit
      omega
    simp only [storeFrame, writeRecord, flashMemoryWriteByteArray, h.address_eq, hbus,
      List.map_append]
    exact h.recorded.logged.append (recordOf frame) (encodeRecord_length _)

/-- While no end test fires the recording grows by one frame. -/
theorem RecordingAfter.step_store (h : m.RecordingAfter before after) {frame : Processed}
    (hend : ¬ (m.storeFrame settings frame).EndReached settings) :
    (m.step settings now frame).RecordingAfter before (after ++ [frame]) := by
  have hlimit : ¬ (m.storeFrame settings frame).sampleCntr > nrOfSamplesToMeasure :=
    fun hlimit ↦ hend (Or.inr hlimit)
  rw [step, h.phase_eq]
  simp only [recordFrame, if_neg hend]
  exact
    { phase_eq := h.phase_eq
      recorded := h.storeFrame_recorded settings frame
      sampleCntr_eq := by
        simp only [storeFrame, h.sampleCntr_eq, List.length_append, List.length_singleton,
          Nat.add_assoc]
      address_eq := by
        simp only [storeFrame, writeRecord, h.address_eq, List.length_append,
          List.length_singleton, Nat.mul_add]
      below_limit := not_lt.mp hlimit }

/-- The frame at which an end test fires is recorded, and the padding follows it. -/
theorem RecordingAfter.step_end (h : m.RecordingAfter before after) {frame : Processed}
    (hend : (m.storeFrame settings frame).EndReached settings) :
    (m.step settings now frame).FinishedAfter before (after ++ [frame]) := by
  have hlimit := h.below_limit
  rw [h.sampleCntr_eq] at hlimit
  unfold nrOfSamplesToMeasure crclrBuffSize at hlimit
  have hstored := h.storeFrame_recorded settings frame
  have haddress : (m.storeFrame settings frame).recorder.flashAddressWrite =
      10 * (after.length + 1) := by
    simp only [storeFrame, writeRecord, h.address_eq, Nat.mul_add]
  obtain ⟨psram, buffer, heq, hlogged⟩ :=
    memclr_spec memclrCnt (m.storeFrame settings frame).recorder
  rw [step, h.phase_eq]
  simp only [recordFrame, if_pos hend, heq]
  exact
    { phase_eq := rfl
      recorded :=
        { ring_shows := hstored.ring_shows
          overflow := hstored.overflow
          last_eq := hstored.last_eq
          total_eq := hstored.total_eq
          logged := by
            apply hlogged _ hstored.logged
            · simp only [haddress, List.length_map, List.length_append, List.length_singleton]
              exact le_rfl
            · rw [haddress, memclrCnt]
              omega }
      address_eq := by
        simp only [haddress, List.length_append, List.length_singleton, Nat.mul_add]
      nonempty := by simp
      length_le := by
        simp only [List.length_append, List.length_singleton, maxRecordedFrames,
          nrOfSamplesToMeasure, crclrBuffSize]
        omega }

/-! ## Runs -/

@[simp]
theorem run_nil : m.run settings now [] = m := rfl

theorem run_append (first second : List Processed) :
    m.run settings now (first ++ second) = (m.run settings now first).run settings now second :=
  List.foldl_append

theorem run_concat (frames : List Processed) (frame : Processed) :
    m.run settings now (frames ++ [frame]) = (m.run settings now frames).step settings now frame :=
  List.foldl_concat ..

/-- A phase that was left does not come back. -/
theorem waiting_of_step {frame : Processed} (h : (m.step settings now frame).phase = .waiting) :
    m.phase = .waiting := by
  cases hphase : m.phase with
  | waiting => rfl
  | recording =>
    simp only [step, hphase, recordFrame] at h
    split at h
    · cases h
    · exact absurd (hphase.symm.trans h) (by decide)
  | finished => simp [step, hphase] at h

theorem WaitingAfter.step (settings : Settings) (now : UInt32) (h : m.WaitingAfter before)
    (frame : Processed) :
    (m.step settings now frame).WaitingAfter (before ++ [frame]) ∨
      (m.step settings now frame).RecordingAfter (before ++ [frame]) [] := by
  by_cases hframe : settings.Triggers frame.rmsValue
  · exact Or.inr (h.step_trigger hframe)
  · exact Or.inl (h.step_wait hframe)

theorem RecordingAfter.step (settings : Settings) (now : UInt32)
    (h : m.RecordingAfter before after) (frame : Processed) :
    (m.step settings now frame).RecordingAfter before (after ++ [frame]) ∨
      (m.step settings now frame).FinishedAfter before (after ++ [frame]) := by
  by_cases hend : (m.storeFrame settings frame).EndReached settings
  · exact Or.inr (h.step_end hend)
  · exact Or.inl (h.step_store hend)

/-- A machine that still waits has stored every frame in the ring. -/
theorem waitingAfter_run (h : m.WaitingAfter []) {frames : List Processed}
    (hphase : (m.run settings now frames).phase = .waiting) :
    (m.run settings now frames).WaitingAfter frames := by
  induction frames using List.reverseRecOn with
  | nil => exact h
  | append_singleton frames frame ih =>
    rw [run_concat] at hphase ⊢
    cases (ih (waiting_of_step hphase)).step settings now frame with
    | inl hwaiting => exact hwaiting
    | inr hrecording => exact absurd (hrecording.phase_eq.symm.trans hphase) (by decide)

/-- A recording that has begun and still runs has logged every frame since. -/
theorem recordingAfter_run (h : m.RecordingAfter before []) {frames : List Processed}
    (hphase : (m.run settings now frames).phase = .recording) :
    (m.run settings now frames).RecordingAfter before frames := by
  have hkept (frames : List Processed) : (m.run settings now frames).phase = .finished ∨
      (m.run settings now frames).RecordingAfter before frames := by
    induction frames using List.reverseRecOn with
    | nil => exact Or.inr h
    | append_singleton frames frame ih =>
      rw [run_concat]
      cases ih with
      | inl hfinished =>
        rw [Measurement.step, hfinished]
        exact Or.inl hfinished
      | inr hrecording =>
        cases hrecording.step settings now frame with
        | inl hnext => exact Or.inr hnext
        | inr hnext => exact Or.inl hnext.phase_eq
  cases hkept frames with
  | inl hfinished => exact absurd (hphase.symm.trans hfinished) (by decide)
  | inr hrecording => exact hrecording

/-- A finished machine holds a complete recording. -/
theorem exists_finishedAfter (recorder : Recorder) {frames : List Processed}
    (hphase : ((start recorder).run settings now frames).phase = .finished) :
    ∃ before after, ((start recorder).run settings now frames).FinishedAfter before after := by
  have hreached (frames : List Processed) :
      (∃ before, ((start recorder).run settings now frames).WaitingAfter before) ∨
      (∃ before after, ((start recorder).run settings now frames).RecordingAfter before after) ∨
      ∃ before after, ((start recorder).run settings now frames).FinishedAfter before after := by
    induction frames using List.reverseRecOn with
    | nil => exact Or.inl ⟨[], waitingAfter_start recorder⟩
    | append_singleton frames frame ih =>
      rw [run_concat]
      rcases ih with ⟨before, hwaiting⟩ | ⟨before, after, hrecording⟩ | ⟨before, after, hfinished⟩
      · cases hwaiting.step settings now frame with
        | inl hnext => exact Or.inl ⟨_, hnext⟩
        | inr hnext => exact Or.inr (Or.inl ⟨_, _, hnext⟩)
      · cases hrecording.step settings now frame with
        | inl hnext => exact Or.inr (Or.inl ⟨_, _, hnext⟩)
        | inr hnext => exact Or.inr (Or.inr ⟨_, _, hnext⟩)
      · rw [Measurement.step, hfinished.phase_eq]
        exact Or.inr (Or.inr ⟨before, after, hfinished⟩)
  rcases hreached frames with ⟨before, hwaiting⟩ | ⟨before, after, hrecording⟩ | hfinished
  · exact absurd (hwaiting.phase_eq.symm.trans hphase) (by decide)
  · exact absurd (hrecording.phase_eq.symm.trans hphase) (by decide)
  · exact hfinished

/-- The measurement leaves the train counter alone. -/
theorem trainCounter_run (frames : List Processed) :
    (m.run settings now frames).recorder.trainCounter = m.recorder.trainCounter := by
  induction frames using List.reverseRecOn with
  | nil => rfl
  | append_singleton frames frame ih =>
    rw [run_concat, ← ih]
    generalize m.run settings now frames = m
    unfold Measurement.step
    split
    · unfold waitFrame
      dsimp only
      split
      · rfl
      · rfl
    · unfold recordFrame
      dsimp only
      split
      · obtain ⟨psram, buffer, hpadded, _⟩ :=
          memclr_spec memclrCnt (m.storeFrame settings frame).recorder
        rw [hpadded]
        rfl
      · rfl
    · rfl

/-! ## Complete recordings -/

/-- The trigger fires on the last of the frames `before`, and from there the recording loop ends
on the last of the frames `after`. -/
structure Completes (settings : Settings) (now : UInt32) (recorder : Recorder)
    (before after : List Processed) : Prop where
  waits : ((start recorder).run settings now before.dropLast).phase = .waiting
  fires : ((start recorder).run settings now before).phase = .recording
  records : ((start recorder).run settings now (before ++ after.dropLast)).phase = .recording
  ends : ((start recorder).run settings now (before ++ after)).phase = .finished

variable {recorder : Recorder}

theorem Completes.recordingAfter (h : Completes settings now recorder before after) :
    ((start recorder).run settings now before).RecordingAfter before [] := by
  cases before using List.reverseRecOn with
  | nil => exact absurd h.fires (by simp [start])
  | append_singleton before frame =>
    have hwaits := h.waits
    have hfires := h.fires
    rw [List.dropLast_concat] at hwaits
    rw [run_concat] at hfires ⊢
    cases (waitingAfter_run (waitingAfter_start recorder) hwaits).step settings now frame with
    | inl hwaiting => exact absurd (hwaiting.phase_eq.symm.trans hfires) (by decide)
    | inr hrecording => exact hrecording

/-- A complete recording holds the frames before the trigger and logs those after it. -/
theorem Completes.finishedAfter (h : Completes settings now recorder before after) :
    ((start recorder).run settings now (before ++ after)).FinishedAfter before after := by
  cases after using List.reverseRecOn with
  | nil =>
    have hends := h.ends
    rw [List.append_nil, h.fires] at hends
    cases hends
  | append_singleton after frame =>
    have hrecords := h.records
    have hends := h.ends
    rw [List.dropLast_concat, run_append] at hrecords
    rw [run_append, run_concat] at hends ⊢
    cases (recordingAfter_run h.recordingAfter hrecords).step settings now frame with
    | inl hrecording => exact absurd (hrecording.phase_eq.symm.trans hends) (by decide)
    | inr hfinished => exact hfinished

/-- The values at each of the first two frames of a steady signal. -/
def unitFrame : Processed := ⟨fun _ ↦ 10, fun _ ↦ 1⟩

theorem processFrames_unitFrame :
    processFrames (fun _ ↦ -10) FrontEnd.boot [fun _ ↦ 0, fun _ ↦ 0] =
      [unitFrame] ++ [unitFrame] := by
  have hroots : Int.sqrt 1 = 1 ∧ Int.sqrt 2 = 1 := by decide +kernel
  have hfirst : steadyFrame 0 = unitFrame :=
    congrArg (fun root ↦ Processed.mk (fun _ ↦ 10) fun _ ↦ root) hroots.1
  have hsecond : steadyFrame 1 = unitFrame :=
    congrArg (fun root ↦ Processed.mk (fun _ ↦ 10) fun _ ↦ root) hroots.2
  calc
    processFrames (fun _ ↦ -10) FrontEnd.boot [fun _ ↦ 0, fun _ ↦ 0] =
        [steadyFrame 0, steadyFrame 1] := processFrames_steady 2
    _ = [unitFrame] ++ [unitFrame] := by rw [hfirst, hsecond, List.singleton_append]

/-- The shortest recording: one frame fires the trigger and the next one ends the recording. -/
theorem completes_unitFrame {bme280 : UInt16} (recorder : Recorder) :
    Completes ⟨0, 2, 0, bme280⟩ 0 recorder [unitFrame] [unitFrame] where
  waits := rfl
  fires := rfl
  records := rfl
  ends := rfl

/-- The recorder behind the shortest recording of a unit that has just booted. -/
def shortRecording : Recorder :=
  ((start (Recorder.boot fun _ ↦ 0)).run ⟨0, 2, 0, 0⟩ 0 ([unitFrame] ++ [unitFrame])).recorder

theorem recorded_shortRecording : Recorded shortRecording [unitFrame] [unitFrame] :=
  (completes_unitFrame (Recorder.boot fun _ ↦ 0)).finishedAfter.recorded

end Measurement

end NrfExamples.MqttWorking
