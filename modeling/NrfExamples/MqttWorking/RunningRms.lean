import NrfExamples.Library.Window
import NrfExamples.MqttWorking.Sampling
import Mathlib.Algebra.Order.BigOperators.Group.List
import Mathlib.Algebra.Order.Ring.Abs
import Mathlib.Tactic.Ring

/-!
# The running RMS

`update_rms` keeps the sum of the squares of its window up to date by one subtraction and one
addition for each sample. `RmsWindow.Tracks` says that the window holds the newest 100 samples over
an initial fill of zeros and that the sum is the sum of their squares. Every call keeps this, so
after any number of calls the returned value is the one computed from the window at once.
-/

namespace NrfExamples.MqttWorking

open Word

/-- The bound on the difference of two values of the converter range. -/
def maxDifference : ℤ := 24575

def sumOfSquares (samples : List ℤ) : ℤ := (samples.map fun sample ↦ sample * sample).sum

theorem sumOfSquares_nonneg (samples : List ℤ) : 0 ≤ sumOfSquares samples := by
  apply List.sum_nonneg
  intro square hsquare
  obtain ⟨sample, _, rfl⟩ := List.mem_map.mp hsquare
  exact mul_self_nonneg sample

theorem sumOfSquares_le {samples : List ℤ} {bound : ℤ}
    (hbound : ∀ sample ∈ samples, |sample| ≤ bound) :
    sumOfSquares samples ≤ samples.length * (bound * bound) := by
  have hsquare : ∀ square ∈ samples.map fun sample ↦ sample * sample, square ≤ bound * bound := by
    intro square hsquare
    obtain ⟨sample, hsample, rfl⟩ := List.mem_map.mp hsquare
    calc
      sample * sample = |sample| * |sample| := (abs_mul_abs_self sample).symm
      _ ≤ bound * bound := mul_self_le_mul_self (abs_nonneg sample) (hbound sample hsample)
  have hsum := List.sum_le_card_nsmul _ _ hsquare
  rwa [List.length_map, nsmul_eq_mul] at hsum

/-- Replacing one sample changes the sum by the difference of the two squares. -/
theorem sumOfSquares_set {samples : List ℤ} {index : ℕ} (hindex : index < samples.length)
    (sample : ℤ) :
    sumOfSquares (samples.set index sample) =
      sumOfSquares samples - samples.getD index 0 * samples.getD index 0 + sample * sample := by
  have hmapped : index < (samples.map fun sample ↦ sample * sample).length := by
    rwa [List.length_map]
  rw [sumOfSquares, List.map_set, List.sum_set', dif_pos hmapped, List.getElem_map,
    List.getD_eq_getElem samples 0 hindex, sumOfSquares]
  ring

namespace RmsWindow

/-- The zeroed window. -/
def zero : RmsWindow := ⟨List.replicate rmsBufferSize 0, 0, 0⟩

/-- The window after a sequence of samples. -/
def after (samples : List ℤ) : RmsWindow :=
  samples.foldl (fun window sample ↦ (updateRms window sample).1) zero

structure Tracks (window : RmsWindow) (samples : List ℤ) : Prop where
  holds : Window.Holds rmsBufferSize 0 window.buffer window.indexx samples
  indexx_lt : window.indexx < rmsBufferSize
  sumSquares_eq : window.sumSquares = sumOfSquares window.buffer

theorem tracks_zero : zero.Tracks [] where
  holds := Window.Holds.init rmsBufferSize 0
  indexx_lt := Nat.succ_pos 99
  sumSquares_eq := by
    rw [zero, sumOfSquares, List.map_replicate]
    simp

/-- One call keeps the window and its sum together. -/
theorem Tracks.updateRms {window : RmsWindow} {samples : List ℤ} (h : window.Tracks samples)
    (sample : ℤ) : (MqttWorking.updateRms window sample).1.Tracks (samples ++ [sample]) where
  holds := by
    have hpush := h.holds.push h.indexx_lt sample
    simp only [MqttWorking.updateRms]
    by_cases hend : window.indexx + 1 = rmsBufferSize
    · rw [hend] at hpush ⊢
      rw [Nat.mod_self]
      exact hpush.wrap
    · rwa [Nat.mod_eq_of_lt (Nat.lt_of_le_of_ne h.indexx_lt hend)]
  indexx_lt := Nat.mod_lt _ (Nat.succ_pos 99)
  sumSquares_eq := by
    have hindex : window.indexx < window.buffer.length := h.holds.length_eq.symm ▸ h.indexx_lt
    simp only [MqttWorking.updateRms]
    rw [sumOfSquares_set hindex, h.sumSquares_eq]

theorem tracks_after (samples : List ℤ) : (after samples).Tracks samples := by
  induction samples using List.reverseRecOn with
  | nil => exact tracks_zero
  | append_singleton samples sample ih =>
    rw [after, List.foldl_concat]
    exact ih.updateRms sample

/-- The sum is the one over the newest samples. -/
theorem Tracks.sumSquares_eq_rtake {window : RmsWindow} {samples : List ℤ}
    (h : window.Tracks samples) :
    window.sumSquares = sumOfSquares (samples.rtake rmsBufferSize) := by
  rw [h.sumSquares_eq]
  exact h.holds.sum_map (mul_zero 0)

/-- The sum over samples in range leaves room for the mean square in an `int32_t`. -/
theorem Tracks.sumSquares_le {window : RmsWindow} {samples : List ℤ} (h : window.Tracks samples)
    (hrange : ∀ sample ∈ samples, |sample| ≤ maxDifference) :
    window.sumSquares ≤ rmsBufferSize * (maxDifference * maxDifference) := by
  have hstored : ∀ sample ∈ window.buffer, |sample| ≤ maxDifference := by
    intro sample hsample
    obtain rfl | hpushed := Window.mem_last (h.holds.perm.mem_iff.mp hsample)
    · decide
    · exact hrange sample hpushed
  rw [h.sumSquares_eq, ← h.holds.length_eq]
  exact sumOfSquares_le hstored

end RmsWindow

/-- Narrowing the mean square keeps it. -/
theorem toInt32_meanSquare {sumSquares : ℤ} (hnonneg : 0 ≤ sumSquares)
    (hle : sumSquares ≤ rmsBufferSize * (maxDifference * maxDifference)) :
    toInt32 (sumSquares.tdiv rmsBufferSize) = sumSquares / rmsBufferSize := by
  have hbound : sumSquares ≤ 60393062500 := hle
  rw [Int.tdiv_eq_ediv_of_nonneg hnonneg, toInt32, rmsBufferSize]
  apply Int.bmod_eq_of_le
  · omega
  · omega

/-- After every call the index is in the window and the sum is that of the stored squares, and the
returned value is the RMS of the newest samples computed at once. -/
theorem updateRms_eq_batch (earlier : List ℤ) (newSample : ℤ)
    (hrange : ∀ sample ∈ earlier ++ [newSample], |sample| ≤ 24575) :
    let samples := earlier ++ [newSample]
    let result := updateRms (RmsWindow.after earlier) newSample
    result.1.indexx < rmsBufferSize ∧ result.1.buffer.length = rmsBufferSize ∧
      result.1.sumSquares = (result.1.buffer.map fun stored ↦ stored * stored).sum ∧
      0 ≤ result.1.sumSquares ∧
      result.2 = Int.sqrt (sumOfSquares (samples.rtake (min samples.length 100)) / 100) := by
  have htracks := (RmsWindow.tracks_after earlier).updateRms newSample
  have hnonneg : 0 ≤ (updateRms (RmsWindow.after earlier) newSample).1.sumSquares := by
    rw [htracks.sumSquares_eq]
    exact sumOfSquares_nonneg _
  have hnewest (samples : List ℤ) :
      samples.rtake (min samples.length 100) = samples.rtake rmsBufferSize :=
    Window.rtake_min_length rmsBufferSize samples
  refine ⟨htracks.indexx_lt, htracks.holds.length_eq, htracks.sumSquares_eq, hnonneg, ?_⟩
  have hmean := toInt32_meanSquare hnonneg (htracks.sumSquares_le hrange)
  rw [hnewest, ← htracks.sumSquares_eq_rtake]
  exact congrArg Int.sqrt hmean

theorem updateRms_eq_batch_ten :
    (updateRms (RmsWindow.after [3, -4]) 30).2 = Int.sqrt (925 / 100) :=
  (updateRms_eq_batch [3, -4] 30 (by decide)).2.2.2.2

/-! ## A steady signal -/

/-- The values at frame `n` of a signal that stands ten above the offsets. -/
def steadyFrame (n : ℕ) : Processed where
  offValue := fun _ ↦ 10
  rmsValue := fun _ ↦ Int.sqrt (min (n + 1) rmsBufferSize : ℕ)

/-- The front end behind the first frames of the signal. -/
def steadyFront (n : ℕ) : FrontEnd where
  samples := ⟨List.replicate bufferLength fun _ ↦ 0, n % bufferLength⟩
  rms := fun _ ↦ RmsWindow.after (List.replicate n 10)

theorem updateRms_steady (n : ℕ) : updateRms (RmsWindow.after (List.replicate n 10)) 10 =
    (RmsWindow.after (List.replicate (n + 1) 10),
      Int.sqrt (min (n + 1) rmsBufferSize : ℕ)) := by
  have hwindow : (updateRms (RmsWindow.after (List.replicate n 10)) 10).1 =
      RmsWindow.after (List.replicate (n + 1) 10) := by
    rw [RmsWindow.after, RmsWindow.after, List.replicate_succ', List.foldl_concat]
  have htracks := (RmsWindow.tracks_after (List.replicate n 10)).updateRms 10
  rw [← List.replicate_succ'] at htracks
  have hsum : (updateRms (RmsWindow.after (List.replicate n 10)) 10).1.sumSquares =
      (min (n + 1) rmsBufferSize : ℕ) * rmsBufferSize := by
    rw [htracks.sumSquares_eq_rtake, List.rtake_eq_reverse_take_reverse, List.reverse_replicate,
      List.take_replicate, List.reverse_replicate, sumOfSquares, List.map_replicate,
      List.sum_replicate, min_comm]
    rfl
  have hnonneg : (0 : ℤ) ≤ (min (n + 1) rmsBufferSize : ℕ) * rmsBufferSize :=
    mul_nonneg (Int.natCast_nonneg _) (Int.natCast_nonneg _)
  have hrange : ∀ sample ∈ List.replicate (n + 1) (10 : ℤ), |sample| ≤ maxDifference := by
    intro sample hsample
    rw [List.eq_of_mem_replicate hsample]
    decide
  have hle := htracks.sumSquares_le hrange
  have hmean := toInt32_meanSquare (hsum ▸ hnonneg) hle
  rw [hsum, Int.mul_ediv_cancel _ (by decide)] at hmean
  have hroot : (updateRms (RmsWindow.after (List.replicate n 10)) 10).2 =
      Int.sqrt (min (n + 1) rmsBufferSize : ℕ) := by
    rw [← hmean, ← hsum]
    rfl
  exact Prod.ext hwindow hroot

theorem processFrame_steady (n : ℕ) : processFrame (fun _ ↦ -10) (steadyFront n) (fun _ ↦ 0) =
    (steadyFront (n + 1), steadyFrame n) := by
  have hindex : (if n % bufferLength + 1 = bufferLength then 0 else n % bufferLength + 1) =
      (n + 1) % bufferLength := by
    unfold bufferLength
    split
    · omega
    · omega
  have hsamples : addSamplesToBuffer (steadyFront n).samples (fun _ ↦ 0) =
      (steadyFront (n + 1)).samples := by
    simp only [addSamplesToBuffer, addSamples, steadyFront, List.set_replicate_self]
    exact congrArg (SampleBuffer.mk _) hindex
  have hvalue : newSample (fun _ ↦ -10) (steadyFront (n + 1)).samples = fun _ ↦ 10 := rfl
  simp only [processFrame, hsamples, hvalue]
  simp only [steadyFront, updateRms_steady]
  rfl

/-- A signal at zero over offsets of minus ten, from boot on. -/
theorem processFrames_steady (count : ℕ) :
    processFrames (fun _ ↦ -10) FrontEnd.boot (List.replicate count fun _ ↦ 0) =
      (List.range count).map steadyFrame := by
  have hfrom (start : ℕ) : processFrames (fun _ ↦ -10) (steadyFront start)
      (List.replicate count fun _ ↦ 0) = (List.range' start count).map steadyFrame := by
    induction count generalizing start with
    | zero => rfl
    | succ count ih =>
      rw [List.replicate_succ, processFrames, processFrame_steady, List.range'_succ, List.map_cons]
      exact congrArg (steadyFrame start :: ·) (ih (start + 1))
  rw [List.range_eq_range']
  exact hfrom 0

end NrfExamples.MqttWorking
