import NrfExamples.Library.Smoothing
import NrfExamples.MqttWorking.Sampling

/-!
# Offset gathering

`exponential_filter` and the loop of `main` that gathers the channel offsets: every ADC frame goes
through the averaging buffer, and each average moves the filter of its channel. The filter states
behind the last frame become the offsets.

For levels in the range of the converter the filter is a smoothing filter with weight one part in
25, so it settles at the level when it starts above it and up to 24 counts below it otherwise.
-/

namespace NrfExamples.MqttWorking

open Smoothing Word

def alphaNum : ℤ := 1

def alphaDen : ℤ := 25

/-- The division is the truncating one of C. -/
def exponentialFilter (previousFiltered newSample : ℤ) : ℤ :=
  (alphaNum * newSample + (alphaDen - alphaNum) * previousFiltered).tdiv alphaDen

/-- The averaging buffer and `filtered_value_array`. -/
structure OffsetGathering where
  samples : SampleBuffer
  filteredValueArray : Quad ℤ

/-- `offset_gather_cnt` at the start of the loop. -/
def offsetGatherCnt : ℕ := 5000

namespace OffsetGathering

/-- The state in front of the loop. -/
def boot : OffsetGathering where
  samples := FrontEnd.boot.samples
  filteredValueArray := fun _ ↦ 5200

/-- One frame of the loop. -/
def gatherFrame (gathering : OffsetGathering) (frame : Quad ℤ) : OffsetGathering :=
  let samples := addSamplesToBuffer gathering.samples frame
  { samples := samples
    filteredValueArray := fun channel ↦ exponentialFilter
      (gathering.filteredValueArray channel) (averageOfVectors samples.buffer channel) }

/-- The assignments behind the loop. -/
def offsets (gathering : OffsetGathering) : Quad ℤ := fun channel ↦
  toInt16 (gathering.filteredValueArray channel)

end OffsetGathering

/-! ## Settling at a constant level -/

/-- The filter state after a number of samples of one level. -/
def filteredAfter (level start : ℤ) (samples : ℕ) : ℤ :=
  (fun filtered ↦ exponentialFilter filtered level)^[samples] start

theorem exponentialFilter_eq_smooth {filtered level : ℤ} (hfiltered : 0 ≤ filtered)
    (hlevel : 0 ≤ level) : exponentialFilter filtered level = smooth 25 level filtered := by
  unfold exponentialFilter smooth alphaNum alphaDen
  rw [Int.tdiv_eq_ediv_of_nonneg (by omega), one_mul]
  rfl

theorem filteredAfter_eq_iterate {level start : ℤ} (hstart : 0 ≤ start) (hlevel : 0 ≤ level)
    (samples : ℕ) : filteredAfter level start samples = (smooth 25 level)^[samples] start := by
  induction samples generalizing start with
  | zero => rfl
  | succ samples ih =>
    have hnext : 0 ≤ smooth 25 level start := by
      unfold smooth
      exact Int.ediv_nonneg (by push_cast; omega) (by norm_num)
    rw [Function.iterate_succ_apply, ← ih hnext, ← exponentialFilter_eq_smooth hstart hlevel]
    rfl

/-- A distance of the converter range is gone long before the last gathered frame. -/
theorem iterate_decay_converterRange : (decay 25)^[offsetGatherCnt] 16383 = 0 := by
  have hearly : (decay 25)^[250] 16383 = 0 := by decide +kernel
  exact iterate_decay_eq_zero le_rfl hearly (by decide)

/-- The filter moves towards the level, never passes it, and is constant once all frames are
gathered: at the level from above, and at most 24 counts below it otherwise. -/
theorem filteredAfter_settles {level start : ℤ} (hstart : 0 ≤ start ∧ start ≤ 16383)
    (hlevel : 0 ≤ level ∧ level ≤ 16383) :
    (level ≤ start → Antitone (filteredAfter level start) ∧
      ∀ samples, level ≤ filteredAfter level start samples) ∧
    (start ≤ level → Monotone (filteredAfter level start) ∧
      ∀ samples, filteredAfter level start samples ≤ level) ∧
    ∀ samples, offsetGatherCnt ≤ samples →
      filteredAfter level start samples =
        if level ≤ start then level else max start (level - 24) := by
  have hiterate : filteredAfter level start = fun samples ↦ (smooth 25 level)^[samples] start :=
    funext (filteredAfter_eq_iterate hstart.1 hlevel.1)
  rw [hiterate]
  refine ⟨antitone_of_target_le (by decide), monotone_of_le_target (by decide), ?_⟩
  intro samples hsamples
  exact iterate_eq_settledLevel (by decide) (by omega) iterate_decay_converterRange hsamples

theorem filteredAfter_settles_boot :
    filteredAfter 6000 5200 offsetGatherCnt = 5976 ∧
      filteredAfter 5000 5200 offsetGatherCnt = 5000 :=
  ⟨(filteredAfter_settles (by decide) (by decide)).2.2 _ le_rfl,
    (filteredAfter_settles (by decide) (by decide)).2.2 _ le_rfl⟩

end NrfExamples.MqttWorking
