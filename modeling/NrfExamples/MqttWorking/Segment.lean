import NrfExamples.MqttWorking.Recorded
import NrfExamples.Library.TrailingRun
import Mathlib.Data.List.Range
import Mathlib.Order.Nat
import Mathlib.Data.Nat.Find

/-!
# Length of the recorded segment

The recording ends when the sixteen-bit counter of low frames exceeds the configured duration, or
at the sample limit. The configured end asks for one more consecutive low frame than the duration.
The counter shows the length of the current low run modulo `2^16`, so it follows the configuration
for every duration below 65535. For the duration 65535 it wraps before it can exceed it, and only
the sample limit ends the recording.
-/

namespace NrfExamples.MqttWorking

open TrailingRun

namespace Measurement

/-- The machine after the first `count` frames of a sequence. -/
def after (settings : Settings) (now : UInt32) (recorder : Recorder) (frames : ℕ → Processed)
    (count : ℕ) : Measurement :=
  (start recorder).run settings now ((List.range count).map frames)

/-- Frame `t` is the first one with an RMS value above the start threshold. -/
def FirstTrigger (settings : Settings) (frames : ℕ → Processed) (t : ℕ) : Prop :=
  settings.Triggers (frames t).rmsValue ∧ ∀ s < t, ¬ settings.Triggers (frames s).rmsValue

/-- Recorded frame `i` of a recording triggered by frame `t` is low. -/
def LowAt (settings : Settings) (frames : ℕ → Processed) (t i : ℕ) : Prop :=
  settings.Low (frames (t + 1 + i)).rmsValue

instance (settings : Settings) (frames : ℕ → Processed) (t : ℕ) :
    DecidablePred (LowAt settings frames t) :=
  fun i ↦ inferInstanceAs (Decidable (settings.Low (frames (t + 1 + i)).rmsValue))

/-- The last `rms_trig_end_duration + 1` of the first `n` recorded frames are low. -/
def LowForDuration (settings : Settings) (frames : ℕ → Processed) (t n : ℕ) : Prop :=
  settings.rmsTrigEndDuration.toNat + 1 ≤ n ∧
    ∀ i, n - (settings.rmsTrigEndDuration.toNat + 1) ≤ i → i < n → LowAt settings frames t i

/-- The number of recorded frames that the configuration asks for. -/
def ConfiguredLength (settings : Settings) (frames : ℕ → Processed) (t n : ℕ) : Prop :=
  IsLeast {n | 1 ≤ n ∧ (LowForDuration settings frames t n ∨ n = maxRecordedFrames)} n

/-- Recording starts right after the first trigger frame and lasts as long as configured. -/
def SegmentAsConfigured (settings : Settings) (now : UInt32) (recorder : Recorder)
    (frames : ℕ → Processed) : Prop :=
  (∀ count, (∀ s < count, ¬ settings.Triggers (frames s).rmsValue) →
    (after settings now recorder frames count).phase = .waiting) ∧
  ∀ t, FirstTrigger settings frames t → ∃ N, ConfiguredLength settings frames t N ∧
    (∀ n < N, (after settings now recorder frames (t + 1 + n)).phase = .recording) ∧
    (after settings now recorder frames (t + 1 + N)).phase = .finished

/-- The end tests of the recording loop after `n` recorded frames. -/
def EndsAt (settings : Settings) (frames : ℕ → Processed) (t n : ℕ) : Prop :=
  settings.rmsTrigEndDuration.toNat < trailing (LowAt settings frames t) n % 65536 ∨
    maxRecordedFrames ≤ n

/-- The counters of the recording loop after `n` recorded frames. -/
structure Counts (settings : Settings) (frames : ℕ → Processed) (t n : ℕ) (m : Measurement) :
    Prop where
  phase_eq : m.phase = .recording
  sampleCntr_eq : m.sampleCntr = crclrBuffSize + n
  counter_eq : m.rmsLowCounterToEnd.toNat = trailing (LowAt settings frames t) n % 65536

variable {settings : Settings} {now : UInt32} {recorder : Recorder} {frames : ℕ → Processed}

theorem after_succ (count : ℕ) : after settings now recorder frames (count + 1) =
    (after settings now recorder frames count).step settings now (frames count) := by
  simp only [after, List.range_succ, List.map_append, List.map_cons, List.map_nil, run_concat]

/-! ## Waiting -/

/-- Nothing is recorded before the first trigger. -/
theorem waiting_until_trigger (settings : Settings) (now : UInt32) (recorder : Recorder)
    (frames : ℕ → Processed) (count : ℕ)
    (h : ∀ s < count, ¬ settings.Triggers (frames s).rmsValue) :
    (after settings now recorder frames count).WaitingAfter ((List.range count).map frames) := by
  induction count with
  | zero => exact waitingAfter_start recorder
  | succ count ih =>
    have hwaiting := ih fun s hs ↦ h s (Nat.lt_succ_of_lt hs)
    rw [after_succ, List.range_succ, List.map_append]
    exact hwaiting.step_wait (h count (Nat.lt_succ_self count))

/-- Recording starts with the frame behind the first trigger, with the counters reset. -/
theorem counts_zero (now : UInt32) (recorder : Recorder) {t : ℕ}
    (h : FirstTrigger settings frames t) :
    Counts settings frames t 0 (after settings now recorder frames (t + 1)) := by
  have hwaiting := waiting_until_trigger settings now recorder frames t h.2
  have hrecording : (after settings now recorder frames (t + 1)).RecordingAfter
      ((List.range t).map frames ++ [frames t]) [] := by
    rw [after_succ]
    exact hwaiting.step_trigger h.1
  have hcounter : (after settings now recorder frames (t + 1)).rmsLowCounterToEnd = 0 := by
    rw [after_succ, step, hwaiting.phase_eq]
    simp only [waitFrame, if_pos h.1, beginRecording]
  exact
    { phase_eq := hrecording.phase_eq
      sampleCntr_eq := hrecording.sampleCntr_eq
      counter_eq := by rw [hcounter]; rfl }

/-! ## Recording -/

variable {t n : ℕ} {m : Measurement}

/-- Storing a frame moves both counters on by one recorded frame. -/
theorem Counts.storeFrame (h : Counts settings frames t n m) :
    Counts settings frames t (n + 1) (m.storeFrame settings (frames (t + 1 + n))) where
  phase_eq := h.phase_eq
  sampleCntr_eq := by simp only [Measurement.storeFrame, h.sampleCntr_eq, Nat.add_assoc]
  counter_eq := by
    simp only [Measurement.storeFrame, trailing]
    by_cases hlow : LowAt settings frames t n
    · rw [if_pos hlow, if_pos (show settings.Low _ from hlow), UInt16.toNat_add, h.counter_eq]
      exact Nat.mod_add_mod _ _ _
    · rw [if_neg hlow, if_neg (show ¬ settings.Low _ from hlow)]
      rfl

/-- The end tests read the two counters. -/
theorem Counts.endReached_iff (h : Counts settings frames t n m) :
    m.EndReached settings ↔ EndsAt settings frames t n := by
  have hlimit : m.sampleCntr > nrOfSamplesToMeasure ↔ maxRecordedFrames ≤ n := by
    rw [h.sampleCntr_eq]
    unfold nrOfSamplesToMeasure maxRecordedFrames nrOfSamplesToMeasure crclrBuffSize
    omega
  rw [EndReached, EndsAt, hlimit, ← h.counter_eq]
  exact Iff.rfl

/-- The loop goes on over every frame at which no end test fires. -/
theorem counts_of_not_endsAt
    (h : Counts settings frames t 0 (after settings now recorder frames (t + 1)))
    (n : ℕ) (hn : ∀ k, 1 ≤ k → k ≤ n → ¬ EndsAt settings frames t k) :
    Counts settings frames t n (after settings now recorder frames (t + 1 + n)) := by
  induction n with
  | zero => exact h
  | succ n ih =>
    have hcounts := ih fun k hk hkn ↦ hn k hk (Nat.le_succ_of_le hkn)
    have hstored := hcounts.storeFrame
    have hend := mt hstored.endReached_iff.mp (hn (n + 1) (Nat.succ_pos n) le_rfl)
    rw [← Nat.add_assoc, after_succ, step, hcounts.phase_eq]
    simp only [recordFrame, if_neg hend]
    exact hstored

/-- The first frame at which an end test fires finishes the recording. -/
theorem ends_at_least (now : UInt32) (recorder : Recorder) (h : FirstTrigger settings frames t)
    {N : ℕ} (hN : IsLeast {n | 1 ≤ n ∧ EndsAt settings frames t n} N) :
    (∀ n < N, (after settings now recorder frames (t + 1 + n)).phase = .recording) ∧
      (after settings now recorder frames (t + 1 + N)).phase = .finished := by
  have hcounts (n : ℕ) (hn : n < N) :
      Counts settings frames t n (after settings now recorder frames (t + 1 + n)) := by
    apply counts_of_not_endsAt (counts_zero now recorder h) n
    intro k hk hkn hend
    exact absurd (hN.2 ⟨hk, hend⟩) (by omega)
  constructor
  · intro n hn
    exact (hcounts n hn).phase_eq
  · cases N with
    | zero => exact absurd hN.1.1 (by decide)
    | succ N =>
      have hlast := hcounts N (Nat.lt_succ_self N)
      have hend := hlast.storeFrame.endReached_iff.mpr hN.1.2
      rw [← Nat.add_assoc, after_succ, step, hlast.phase_eq]
      simp only [recordFrame, if_pos hend]

/-! ## The configured end -/

/-- The configured duration is reached when the low run is longer than it. -/
theorem lowForDuration_iff : LowForDuration settings frames t n ↔
    settings.rmsTrigEndDuration.toNat < trailing (LowAt settings frames t) n :=
  (le_trailing_iff (LowAt settings frames t) _ n).symm

/-- Up to the first configured end the counter does not wrap, for a duration below 65535. -/
theorem endsAt_iff_of_lt (hduration : settings.rmsTrigEndDuration.toNat < 65535) (n : ℕ)
    (hn : ∀ k, 1 ≤ k → k < n → ¬ LowForDuration settings frames t k) :
    EndsAt settings frames t n ↔ LowForDuration settings frames t n ∨ maxRecordedFrames ≤ n := by
  -- The run was not longer than the duration one frame earlier, so the counter has not wrapped.
  have hrun : trailing (LowAt settings frames t) n ≤ settings.rmsTrigEndDuration.toNat + 1 := by
    cases n with
    | zero => exact Nat.zero_le _
    | succ n =>
      apply (trailing_succ_le _ n).trans
      cases n with
      | zero => exact Nat.succ_le_succ (Nat.zero_le _)
      | succ n =>
        have hprevious := hn (n + 1) (Nat.succ_pos n) (Nat.lt_succ_self _)
        rw [lowForDuration_iff, not_lt] at hprevious
        exact Nat.succ_le_succ hprevious
  rw [EndsAt, Nat.mod_eq_of_lt (by omega), lowForDuration_iff]

/-- For the largest duration only the sample limit ends the recording. -/
theorem endsAt_iff_of_max (hduration : settings.rmsTrigEndDuration.toNat = 65535) (n : ℕ) :
    EndsAt settings frames t n ↔ maxRecordedFrames ≤ n := by
  have hcounter := Nat.mod_lt (trailing (LowAt settings frames t) n) (by decide : 0 < 65536)
  rw [EndsAt, hduration]
  constructor
  · rintro (h | h)
    · omega
    · exact h
  · exact Or.inr

theorem exists_configuredLength (settings : Settings) (frames : ℕ → Processed) (t : ℕ) :
    ∃ N, ConfiguredLength settings frames t N := by
  classical
  have hexists : ∃ n, 1 ≤ n ∧ (LowForDuration settings frames t n ∨ n = maxRecordedFrames) :=
    ⟨maxRecordedFrames, by decide, Or.inr rfl⟩
  exact ⟨Nat.find hexists, Nat.find_spec hexists, fun n hn ↦ Nat.find_min' hexists hn⟩

theorem ConfiguredLength.le_max {N : ℕ} (h : ConfiguredLength settings frames t N) :
    N ≤ maxRecordedFrames :=
  h.2 ⟨by decide, Or.inr rfl⟩

/-- Where the low run does not reach 65536 before the limit, the first end test is the configured
one. -/
theorem ConfiguredLength.isLeast_endsAt {N : ℕ} (h : ConfiguredLength settings frames t N)
    (hcondition : settings.rmsTrigEndDuration.toNat < 65535 ∨
      ∀ n < maxRecordedFrames, ¬ LowForDuration settings frames t n) :
    IsLeast {n | 1 ≤ n ∧ EndsAt settings frames t n} N := by
  have hbefore (k : ℕ) (hk : 1 ≤ k) (hkN : k < N) : ¬ LowForDuration settings frames t k :=
    fun hlow ↦ absurd (h.2 ⟨hk, Or.inl hlow⟩) (by omega)
  have hends (n : ℕ) (hn : n ≤ N) : EndsAt settings frames t n ↔
      LowForDuration settings frames t n ∨ maxRecordedFrames ≤ n := by
    by_cases hduration : settings.rmsTrigEndDuration.toNat < 65535
    · exact endsAt_iff_of_lt hduration n fun k hk hkn ↦ hbefore k hk (by omega)
    · have hmax : settings.rmsTrigEndDuration.toNat = 65535 := by
        have := settings.rmsTrigEndDuration.toNat_lt
        omega
      rw [endsAt_iff_of_max hmax]
      refine ⟨Or.inr, ?_⟩
      rintro (hlow | hlimit)
      · by_contra hlimit
        exact hcondition.resolve_left hduration n (not_le.mp hlimit) hlow
      · exact hlimit
  constructor
  · refine ⟨h.1.1, (hends N le_rfl).mpr ?_⟩
    exact h.1.2.imp_right fun heq ↦ heq.ge
  · intro n hn
    by_contra hlt
    have hbelow : n < N := not_le.mp hlt
    cases (hends n hbelow.le).mp hn.2 with
    | inl hlow => exact hbefore n hn.1 hbelow hlow
    | inr hlimit => exact absurd h.le_max (by omega)

/-- For the largest duration the recording goes on to the sample limit. -/
theorem recording_of_max (now : UInt32) (recorder : Recorder) (h : FirstTrigger settings frames t)
    (hduration : settings.rmsTrigEndDuration.toNat = 65535) (n : ℕ) (hn : n < maxRecordedFrames) :
    (after settings now recorder frames (t + 1 + n)).phase = .recording := by
  have hleast : IsLeast {n | 1 ≤ n ∧ EndsAt settings frames t n} maxRecordedFrames := by
    constructor
    · exact ⟨by decide, (endsAt_iff_of_max hduration _).mpr le_rfl⟩
    · intro k hk
      exact (endsAt_iff_of_max hduration k).mp hk.2
  exact (ends_at_least now recorder h hleast).1 n hn

/-- A configured end that the counter misses by wrapping contradicts the configured segment. -/
theorem not_segmentAsConfigured (h : FirstTrigger settings frames t)
    (hduration : settings.rmsTrigEndDuration.toNat = 65535) (hn : n < maxRecordedFrames)
    (hlow : LowForDuration settings frames t n) :
    ¬ SegmentAsConfigured settings now recorder frames := by
  intro hsegment
  obtain ⟨N, hN, _, hfinished⟩ := hsegment.2 t h
  have hle : N ≤ n := hN.2 ⟨by have := hlow.1; omega, Or.inl hlow⟩
  have hrecording := recording_of_max now recorder h hduration N (by omega)
  exact absurd (hrecording.symm.trans hfinished) (by decide)

/-- The recorded segment is the configured one exactly when the duration is below 65535 or the
first 79976 recorded frames have no low run of 65536 frames. -/
theorem segmentAsConfigured_iff (settings : Settings) (now : UInt32) (recorder : Recorder)
    (frames : ℕ → Processed) :
    SegmentAsConfigured settings now recorder frames ↔
      settings.rmsTrigEndDuration.toNat < 65535 ∨
        ∀ t, FirstTrigger settings frames t →
          ∀ n < maxRecordedFrames, ¬ LowForDuration settings frames t n := by
  constructor
  · intro hsegment
    by_contra hcondition
    push Not at hcondition
    obtain ⟨hduration, t, htrigger, n, hn, hlow⟩ := hcondition
    have hmax : settings.rmsTrigEndDuration.toNat = 65535 := by
      have := settings.rmsTrigEndDuration.toNat_lt
      omega
    exact not_segmentAsConfigured htrigger hmax hn hlow hsegment
  · intro hcondition
    constructor
    · intro count hcount
      exact (waiting_until_trigger settings now recorder frames count hcount).phase_eq
    · intro t htrigger
      obtain ⟨N, hN⟩ := exists_configuredLength settings frames t
      have hleast := hN.isLeast_endsAt (hcondition.imp_right fun h ↦ h t htrigger)
      exact ⟨N, hN, ends_at_least now recorder htrigger hleast⟩

/-! ## Recordings of a steady signal -/

/-- A steady signal is low below a threshold of eleven. -/
theorem low_steadyFrame (duration : UInt16) (n : ℕ) :
    Settings.Low ⟨0, 11, duration, 0⟩ (steadyFrame n).rmsValue := by
  have hroot : Int.sqrt (min (n + 1) rmsBufferSize : ℕ) < (11 : UInt16).toNat := by
    have hle : min (n + 1) rmsBufferSize ≤ 10 * 10 := min_le_right _ _
    have hsqrt : Nat.sqrt (min (n + 1) rmsBufferSize) ≤ 10 :=
      (Nat.sqrt_le_sqrt hle).trans (Nat.sqrt_eq 10).le
    exact Int.ofNat_lt.mpr (Nat.lt_succ_of_le hsqrt)
  exact ⟨hroot, hroot⟩

/-- The first frame of a steady signal fires a trigger at zero. -/
theorem firstTrigger_steadyFrame (trigEnd duration : UInt16) :
    FirstTrigger ⟨0, trigEnd, duration, 0⟩ steadyFrame 0 := by
  have hroot : Int.sqrt (min (0 + 1) rmsBufferSize : ℕ) > (0 : UInt16).toNat := by decide +kernel
  exact ⟨Or.inl hroot, fun s hs ↦ absurd hs (Nat.not_lt_zero s)⟩

/-- With low frames alone the recording is one frame longer than the configured duration. -/
theorem completes_steadyFrame (duration : UInt16) (hduration : duration.toNat < 65535)
    (recorder : Recorder) : Completes ⟨0, 11, duration, 0⟩ 0 recorder [steadyFrame 0]
      ((List.range' 1 (duration.toNat + 1)).map steadyFrame) := by
  let settings : Settings := ⟨0, 11, duration, 0⟩
  have hafter (n : ℕ) : after settings 0 recorder steadyFrame (0 + 1 + n) =
      (start recorder).run settings 0 ([steadyFrame 0] ++ (List.range' 1 n).map steadyFrame) := by
    rw [after, Nat.zero_add, Nat.add_comm, List.range_eq_range', List.range'_succ, List.map_cons]
    rfl
  have htrigger : FirstTrigger settings steadyFrame 0 := firstTrigger_steadyFrame 11 duration
  have hlow (n : ℕ) : LowForDuration settings steadyFrame 0 n ↔ duration.toNat + 1 ≤ n :=
    and_iff_left fun i _ _ ↦ low_steadyFrame duration (0 + 1 + i)
  have hconfigured : ConfiguredLength settings steadyFrame 0 (duration.toNat + 1) := by
    refine ⟨⟨Nat.succ_pos _, Or.inl ((hlow _).mpr le_rfl)⟩, fun n hn ↦ ?_⟩
    rcases hn.2 with hreached | rfl
    · exact (hlow n).mp hreached
    · unfold maxRecordedFrames nrOfSamplesToMeasure crclrBuffSize
      omega
  obtain ⟨hrecording, hfinished⟩ :=
    ends_at_least 0 recorder htrigger (hconfigured.isLeast_endsAt (Or.inl hduration))
  exact
    { waits := rfl
      fires := hafter 0 ▸ hrecording 0 (Nat.succ_pos _)
      records := by
        rw [List.range'_concat, List.map_append, List.map_singleton, List.dropLast_concat, ← hafter]
        exact hrecording _ (Nat.lt_succ_self _)
      ends := hafter (duration.toNat + 1) ▸ hfinished }

/-- A steady signal that fires the trigger and is low from there on, with the largest duration: the
counter wraps. -/
theorem segment_misses_longest_duration :
    (∀ count, processFrames (fun _ ↦ -10) FrontEnd.boot (List.replicate count fun _ ↦ 0) =
      (List.range count).map steadyFrame) ∧
    ¬ SegmentAsConfigured ⟨0, 11, 65535, 0⟩ 0 (Recorder.boot fun _ ↦ 0) steadyFrame := by
  refine ⟨processFrames_steady, ?_⟩
  apply not_segmentAsConfigured (firstTrigger_steadyFrame 11 65535) rfl
    (by decide : 65536 < maxRecordedFrames)
  exact ⟨le_rfl, fun i _ _ ↦ low_steadyFrame 65535 (0 + 1 + i)⟩

end Measurement

end NrfExamples.MqttWorking
