import NrfExamples.MqttWorking.PacketSequence
import NrfExamples.MqttWorking.Recorded

/-!
# A whole transmission

The transmission of a pending recording: the ring packet carries the pre-trigger window in order,
and the PSRAM packets behind it read the records from address zero. With the packet count that the
sender derives from the sample count, the records read are exactly those of the packets it reaches.
The padding covers all of them unless the recording length leaves fewer than 24 records in its last
packet.
-/

namespace NrfExamples.MqttWorking

open Memory

/-! ## The ring packet -/

/-- The first packet of a pending recording. -/
def ringPacket (total : ℕ) (recorder : Recorder) : SeedPacket :=
  (fillFromRing (fillHeader 1 total recorder)).seedPacket

theorem copyRing_eq {history : List ℤ} {source : List ℤ} {head : ℕ} (target : Wave)
    (h : Window.Holds crclrBuffSize 0 source head history) :
    (copyRing head target source).1 = Window.last crclrBuffSize 0 history := by
  have hlength : target.1.length = source.length := target.2.trans h.length_eq.symm
  rw [← h.drop_append_take]
  by_cases htail : crclrBuffSize - head = 0
  · have hend : head = source.length := by
      have := h.head_le
      have := h.length_eq
      omega
    have hcopy : copyRing head target source = target.copyFrom 0 source 0 crclrBuffSize :=
      if_pos htail
    rw [hcopy, hend, List.drop_length, List.take_length, List.nil_append, ← h.length_eq]
    exact copy_all target.1 source hlength
  · have hcopy : copyRing head target source =
        (target.copyFrom 0 source head (crclrBuffSize - head)).copyFrom (crclrBuffSize - head)
          source 0 head :=
      if_neg htail
    rw [hcopy, ← h.length_eq]
    exact copy_tail_head target.1 source head hlength (h.length_eq.symm ▸ h.head_le)

theorem array_ringPacket (total : ℕ) (recorder : Recorder) (channel : Channel) :
    (ringPacket total recorder).array channel = copyRing recorder.lastCircBuffRecord
      (recorder.seedPacket.array channel) (recorder.ring.array channel) := by
  match channel with
  | 0 | 1 | 2 | 3 => rfl

/-- The ring packet shows the last 1024 values of each channel, oldest first. -/
theorem ringPacket_shows {recorder : Recorder} {history : List (Quad ℤ)} (total : ℕ)
    (hshows : recorder.ring.Shows history)
    (hlast : recorder.lastCircBuffRecord = recorder.ring.buffHead)
    (channel : Channel) : ((ringPacket total recorder).array channel).1 =
      Window.last crclrBuffSize 0 (history.map fun values ↦ values channel) := by
  rw [array_ringPacket, hlast]
  exact copyRing_eq _ (hshows channel)

/-! ## All packets -/

/-- The recorder with the flag cleared that asks for the ring packet. -/
def Recorder.withoutFlag (recorder : Recorder) : Recorder :=
  { recorder with ring := { recorder.ring with circBuffOverflow := false } }

structure Transmitted (env : SendEnv) (total : ℕ) (recorder : Recorder) (result : Transmission)
    (packets : List SeedPacket) : Prop where
  published_eq : result.published = ringPacket total recorder :: packets
  length_le : packets.length ≤ total - 1
  length_eq_iff : packets.length = total - 1 ↔ ∀ k, 1 ≤ k → k < total → env.publish k = 0
  packets_eq : ∀ i, ∀ h : i < packets.length, PsramPacket env total (2 + i)
    (10 * (waveSampleLen * i)) packets[i]
  mem_reads : ∀ address, address ∈ result.reads ↔
    ∃ i < waveSampleLen * packets.length, address = 10 * i
  loopEnd : LoopEnd env total 1 recorder.withoutFlag result.recorder

/-- The state behind the published ring packet. -/
def afterRingPacket (total : ℕ) (recorder : Recorder) : Transmission :=
  publishPacket ⟨fillFromRing (fillHeader 1 total recorder), [], []⟩

theorem fillPacket_pending (env : SendEnv) (total : ℕ) {recorder : Recorder}
    (hflag : recorder.ring.circBuffOverflow = true) :
    publishPacket (fillPacket env 1 total ⟨recorder, [], []⟩) = afterRingPacket total recorder := by
  have hring : (fillHeader 1 total recorder).ring.circBuffOverflow = true := hflag
  simp only [fillPacket, hring, if_true]
  rfl

theorem sendPackets_pending (env : SendEnv) (total : ℕ) {recorder : Recorder}
    (hflag : recorder.ring.circBuffOverflow = true) (htotal : 1 ≤ total) :
    sendPackets env total 1 ⟨recorder, [], []⟩ =
      if env.publish 1 ≠ 0 then afterRingPacket total recorder
      else sendPackets env total 2 (reportFailCounter (afterRingPacket total recorder)) := by
  rw [sendPackets, if_pos htotal, fillPacket_pending env total hflag]

theorem transmitted_sendPackets (env : SendEnv) (total : ℕ) {recorder : Recorder}
    (hflag : recorder.ring.circBuffOverflow = true) (haddress : recorder.flashAddressRead = 0)
    (htotal : 1 ≤ total) : ∃ packets, Transmitted env total recorder
      (sendPackets env total 1 ⟨recorder, [], []⟩) packets := by
  have hsame : recorder.withoutFlag.SameRecording (afterRingPacket total recorder).recorder :=
    ⟨_, _, _, _, rfl⟩
  rw [sendPackets_pending env total hflag htotal]
  by_cases hpublish : env.publish 1 ≠ 0
  · rw [if_pos hpublish]
    refine ⟨[], ?_⟩
    exact
      { published_eq := rfl
        length_le := Nat.zero_le _
        length_eq_iff := by
          rw [List.length_nil]
          constructor
          · intro hlength k hk hkt
            omega
          · intro hall
            by_contra hne
            exact hpublish (hall 1 le_rfl (by omega))
        packets_eq := fun i hi ↦ absurd hi (Nat.not_lt_zero i)
        mem_reads := fun address ↦ by simp [afterRingPacket, publishPacket]
        loopEnd := Or.inl ⟨⟨1, le_rfl, htotal, hpublish⟩, hsame⟩ }
  · rw [if_neg hpublish]
    have hfirst : env.publish 1 = 0 := not_not.mp hpublish
    obtain ⟨packets, h⟩ := sent_sendPackets env total 2
      (reportFailCounter (afterRingPacket total recorder)) rfl
    have hstart :
        (reportFailCounter (afterRingPacket total recorder)).recorder.flashAddressRead = 0 :=
      haddress
    have hsame' : recorder.withoutFlag.SameRecording
        (reportFailCounter (afterRingPacket total recorder)).recorder :=
      hsame.trans ⟨_, _, _, _, rfl⟩
    refine ⟨packets, ?_⟩
    exact
      { published_eq := h.published_eq
        length_le := by
          have := h.length_le
          omega
        length_eq_iff := by
          rw [show total - 1 = total + 1 - 2 by omega, h.length_eq_iff]
          exact forall_publish_iff hfirst
        packets_eq := fun i hi ↦ by
          have hpacket := h.packets_eq i hi
          rwa [hstart, Nat.zero_add] at hpacket
        mem_reads := fun address ↦ by
          rw [h.mem_reads, hstart]
          simp [reportFailCounter, afterRingPacket, publishPacket]
        loopEnd := h.loopEnd.of_published hfirst hsame' }

/-! ## The packet count of a complete recording -/

theorem totalPacketToSend_eq {recorder : Recorder} {before after : List Processed}
    (h : Recorded recorder before after) (hlength : after.length ≤ maxRecordedFrames) :
    totalPacketToSend recorder = after.length / waveSampleLen + 2 := by
  have hbound : after.length ≤ 79977 := hlength
  simp only [totalPacketToSend, h.overflow, if_true, h.total_eq, crclrBuffSize, waveSampleLen]
  omega

/-- The transmission of a complete recording. -/
theorem transmitted_recording (env : SendEnv) {recorder : Recorder} {before after : List Processed}
    (h : Recorded recorder before after) (hlength : after.length ≤ maxRecordedFrames) :
    ∃ packets, Transmitted env (after.length / waveSampleLen + 2) recorder.beginSending
      (sendMeasuredTrainDataWithMultiplePacketsFromFlash env recorder) packets := by
  rw [sendMeasuredTrainDataWithMultiplePacketsFromFlash, totalPacketToSend_eq h hlength]
  exact transmitted_sendPackets env _ h.overflow rfl (Nat.le_add_left 1 _)

end NrfExamples.MqttWorking
