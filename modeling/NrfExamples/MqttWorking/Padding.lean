import NrfExamples.MqttWorking.Transmission

/-!
# Padding behind a recording

The recording loop writes `memclrCnt` padding records behind its own records, so that the sender
can read whole packets. The records that the sender reads are those of the PSRAM packets it
reaches. A packet is 1024 records long and the padding only 1000, so the last packet runs past the
padding when fewer than 24 records of the recording fall into it.
-/

namespace NrfExamples.MqttWorking

open Memory Measurement

/-- The record that a read address belongs to. -/
def recordIndex (address : ℕ) : ℕ := address / 10

/-- Every record read by a transmission is among the first `written` records. -/
def ReadsBelow (written : ℕ) (tx : Transmission) : Prop :=
  ∀ address ∈ tx.reads, recordIndex address < written

/-- The records read are those of the packets behind the ring packet. -/
theorem Transmitted.readsBelow_iff {env : SendEnv} {total : ℕ} {recorder : Recorder}
    {result : Transmission} {packets : List SeedPacket}
    (h : Transmitted env total recorder result packets) (written : ℕ) :
    ReadsBelow written result ↔ waveSampleLen * packets.length ≤ written := by
  constructor
  · intro hreads
    by_contra hexceeds
    have hread : 10 * written ∈ result.reads :=
      (h.mem_reads _).mpr ⟨written, not_le.mp hexceeds, rfl⟩
    have hbelow := hreads _ hread
    rw [recordIndex, Nat.mul_div_cancel_left _ (by decide)] at hbelow
    exact lt_irrefl _ hbelow
  · intro hle address haddress
    obtain ⟨index, hindex, rfl⟩ := (h.mem_reads address).mp haddress
    rw [recordIndex, Nat.mul_div_cancel_left _ (by decide)]
    exact hindex.trans_le hle

/-- A transmission that reaches its last packet stays within the padding when the last packet
holds at least 24 records of the recording. -/
theorem last_packet_le_iff (length : ℕ) :
    waveSampleLen * (length / waveSampleLen + 1) ≤ length + memclrCnt ↔
      24 ≤ length % waveSampleLen := by
  unfold waveSampleLen memclrCnt
  omega

/-- A transmission that stops earlier reads only records of the recording. -/
theorem earlier_packets_le {length count : ℕ} (h : count < length / waveSampleLen + 1) :
    waveSampleLen * count ≤ length + memclrCnt :=
  calc
    waveSampleLen * count ≤ waveSampleLen * (length / waveSampleLen) :=
      Nat.mul_le_mul_left _ (Nat.lt_succ_iff.mp h)
    _ ≤ length := Nat.mul_div_le length waveSampleLen
    _ ≤ length + memclrCnt := Nat.le_add_right length memclrCnt

variable {settings : Settings} {now : UInt32} {recorder : Recorder}
  {before after : List Processed}

/-- The sender stays within the records that the recording and its padding wrote exactly when the
last packet holds at least 24 records of the recording, or a publish before it fails. -/
theorem sender_readsBelow_iff (env : SendEnv) (h : Completes settings now recorder before after) :
    ReadsBelow (after.length + memclrCnt)
        (sendMeasuredTrainDataWithMultiplePacketsFromFlash env
          ((start recorder).run settings now (before ++ after)).recorder) ↔
      24 ≤ after.length % waveSampleLen ∨
        ∃ k, 1 ≤ k ∧ k < after.length / waveSampleLen + 2 ∧ env.publish k ≠ 0 := by
  have hfinished := h.finishedAfter
  obtain ⟨packets, hsent⟩ := transmitted_recording env hfinished.recorded hfinished.length_le
  rw [hsent.readsBelow_iff]
  by_cases hall : ∀ k, 1 ≤ k → k < after.length / waveSampleLen + 2 → env.publish k = 0
  · have hlength : packets.length = after.length / waveSampleLen + 1 :=
      hsent.length_eq_iff.mpr hall
    have hnone : ¬ ∃ k, 1 ≤ k ∧ k < after.length / waveSampleLen + 2 ∧ env.publish k ≠ 0 :=
      fun ⟨k, hk, hkt, hfailed⟩ ↦ hfailed (hall k hk hkt)
    rw [hlength, last_packet_le_iff]
    exact (or_iff_left hnone).symm
  · have hlength : packets.length < after.length / waveSampleLen + 1 :=
      lt_of_le_of_ne hsent.length_le (mt hsent.length_eq_iff.mp hall)
    push Not at hall
    exact iff_of_true (earlier_packets_le hlength) (Or.inr hall)

/-! ## The shortest recording -/

/-- The recorder after a trigger frame and one recorded frame. -/
def unitRecorder : Recorder :=
  ((start (Recorder.boot fun _ ↦ 0)).run ⟨0, 2, 0, 0⟩ 0 ([unitFrame] ++ [unitFrame])).recorder

theorem sender_readsBelow_iff_unitFrame :
    ReadsBelow ([unitFrame].length + memclrCnt)
        (sendMeasuredTrainDataWithMultiplePacketsFromFlash (workingEnv unitRecorder.psram)
          unitRecorder) ↔
      24 ≤ [unitFrame].length % waveSampleLen ∨
        ∃ k, 1 ≤ k ∧ k < [unitFrame].length / waveSampleLen + 2 ∧
          (workingEnv unitRecorder.psram).publish k ≠ 0 :=
  sender_readsBelow_iff (workingEnv unitRecorder.psram) (completes_unitFrame _)

/-- After a recording of one frame the sender reads records up to 1023, and 1001 were written. -/
theorem sender_reads_past_padding :
    processFrames (fun _ ↦ -10) FrontEnd.boot [fun _ ↦ 0, fun _ ↦ 0] =
        [unitFrame] ++ [unitFrame] ∧
      Completes ⟨0, 2, 0, 0⟩ 0 (Recorder.boot fun _ ↦ 0) [unitFrame] [unitFrame] ∧
      ¬ ReadsBelow ([unitFrame].length + memclrCnt)
        (sendMeasuredTrainDataWithMultiplePacketsFromFlash (workingEnv unitRecorder.psram)
          unitRecorder) := by
  have hcompletes : Completes ⟨0, 2, 0, 0⟩ 0 (Recorder.boot fun _ ↦ 0) [unitFrame] [unitFrame] :=
    completes_unitFrame _
  refine ⟨processFrames_unitFrame, hcompletes, ?_⟩
  have hfinished := hcompletes.finishedAfter
  obtain ⟨packets, hsent⟩ := transmitted_recording (workingEnv unitRecorder.psram)
    hfinished.recorded hfinished.length_le
  have hlength : packets.length = 1 := hsent.length_eq_iff.mpr fun _ _ _ ↦ rfl
  intro hreads
  have hle := (hsent.readsBelow_iff ([unitFrame].length + memclrCnt)).mp hreads
  rw [hlength] at hle
  exact absurd hle (by decide)

end NrfExamples.MqttWorking
