import NrfExamples.MqttWorking.PacketContents

/-!
# The packets of one recording

The packet loop publishes the ring packet first and then the PSRAM packets in address order, with
consecutive numbers, until a publish fails or the total is reached. `Sent` describes the part of
the loop behind the ring packet for every behaviour of the memory and of `data_publish`.
-/

namespace NrfExamples.MqttWorking

open Memory

/-! ## One packet -/

/-- A packet read from the PSRAM at consecutive record addresses. -/
structure PsramPacket (env : SendEnv) (total nr address : ℕ) (packet : SeedPacket) : Prop where
  nr_eq : packet.actualPacketNr = nr
  total_eq : packet.totalPacketNr = total
  slots : ∀ j < waveSampleLen, SlotFrom env (address + 10 * j) (packet.slot j)

/-- With the ring flag clear a packet is filled from the PSRAM behind its header. -/
theorem filled_fillPacket (env : SendEnv) (pcktCnt total : ℕ) (tx : Transmission)
    (hflag : tx.recorder.ring.circBuffOverflow = false) :
    Filled env 0 { tx with recorder := fillHeader pcktCnt total tx.recorder }
      (fillPacket env pcktCnt total tx) := by
  have hring : (fillHeader pcktCnt total tx.recorder).ring.circBuffOverflow = false := hflag
  simp only [fillPacket, hring, Bool.false_eq_true, if_false]
  exact filled_fillFromPsram env 0 _ (Nat.zero_le _)

theorem Filled.psramPacket {env : SendEnv} {pcktCnt total : ℕ} {tx filled : Transmission}
    (h : Filled env 0 { tx with recorder := fillHeader pcktCnt total tx.recorder } filled) :
    PsramPacket env total pcktCnt tx.recorder.flashAddressRead filled.recorder.seedPacket where
  nr_eq := h.sameHeader.actualPacketNr_eq
  total_eq := h.sameHeader.totalPacketNr_eq
  slots j hj := by
    have hslot := h.slots j (by omega)
    rwa [Nat.zero_add] at hslot

/-! ## The packet loop behind the ring packet -/

/-- The recorder once the packet loop has ended: a complete transmission counts the recording. -/
def LoopEnd (env : SendEnv) (total pcktCnt : ℕ) (recorder final : Recorder) : Prop :=
  (∃ k, pcktCnt ≤ k ∧ k ≤ total ∧ env.publish k ≠ 0) ∧ recorder.SameRecording final ∨
    (∀ k, pcktCnt ≤ k → k ≤ total → env.publish k = 0) ∧
      { recorder with trainCounter := recorder.trainCounter + 1 }.SameRecording final

structure Sent (env : SendEnv) (total pcktCnt : ℕ) (tx result : Transmission)
    (packets : List SeedPacket) : Prop where
  published_eq : result.published = tx.published ++ packets
  length_le : packets.length ≤ total + 1 - pcktCnt
  length_eq_iff : packets.length = total + 1 - pcktCnt ↔
    ∀ k, pcktCnt ≤ k → k < total → env.publish k = 0
  packets_eq : ∀ i, ∀ h : i < packets.length, PsramPacket env total (pcktCnt + i)
    (tx.recorder.flashAddressRead + 10 * (waveSampleLen * i)) packets[i]
  mem_reads : ∀ address, address ∈ result.reads ↔ address ∈ tx.reads ∨
    ∃ i < waveSampleLen * packets.length, address = tx.recorder.flashAddressRead + 10 * i
  loopEnd : LoopEnd env total pcktCnt tx.recorder result.recorder

/-- The publish results from a successful one on are those behind it. -/
theorem forall_publish_iff {env : SendEnv} {start : ℕ} {inRange : ℕ → Prop}
    (hfirst : env.publish start = 0) :
    (∀ k, start + 1 ≤ k → inRange k → env.publish k = 0) ↔
      ∀ k, start ≤ k → inRange k → env.publish k = 0 := by
  constructor
  · intro hall k hk hrange
    rcases Nat.eq_or_lt_of_le hk with rfl | hlt
    · exact hfirst
    · exact hall k hlt hrange
  · intro hall k hk hrange
    exact hall k (Nat.le_of_succ_le hk) hrange

/-- The loop ends behind a published packet as it ends without it. -/
theorem LoopEnd.of_published {env : SendEnv} {total start : ℕ} {recorder next final : Recorder}
    (hfirst : env.publish start = 0) (hsame : recorder.SameRecording next)
    (h : LoopEnd env total (start + 1) next final) : LoopEnd env total start recorder final := by
  rcases h with ⟨⟨k, hk, hkt, hfailed⟩, hfinal⟩ | ⟨hall, hfinal⟩
  · exact Or.inl ⟨⟨k, Nat.le_of_succ_le hk, hkt, hfailed⟩, hsame.trans hfinal⟩
  · refine Or.inr ⟨(forall_publish_iff hfirst).mp hall, ?_⟩
    obtain ⟨packet, address, errors, failed, heq⟩ := hsame
    rw [heq] at hfinal
    exact Recorder.SameRecording.trans ⟨packet, address, errors, failed, rfl⟩ hfinal

/-- Reading one more packet extends the addresses read by one packet length. -/
theorem exists_lt_packet_succ (length base address : ℕ) :
    (∃ i < waveSampleLen * (length + 1), address = base + 10 * i) ↔
      (∃ j < waveSampleLen, address = base + 10 * j) ∨
        ∃ i < waveSampleLen * length, address = base + 10 * waveSampleLen + 10 * i := by
  constructor
  · rintro ⟨i, hi, rfl⟩
    by_cases hfirst : i < waveSampleLen
    · exact Or.inl ⟨i, hfirst, rfl⟩
    · refine Or.inr ⟨i - waveSampleLen, ?_, ?_⟩
      · rw [Nat.mul_succ] at hi
        omega
      · omega
  · rintro (⟨j, hj, rfl⟩ | ⟨i, hi, rfl⟩)
    · exact ⟨j, hj.trans_le (Nat.le_mul_of_pos_right _ (Nat.succ_pos _)), rfl⟩
    · refine ⟨waveSampleLen + i, ?_, by omega⟩
      rw [Nat.mul_succ]
      omega

/-- A packet whose publish fails ends the loop. -/
theorem sent_of_failed {env : SendEnv} {total pcktCnt : ℕ} {tx filled : Transmission}
    (hle : pcktCnt ≤ total) (hpublish : env.publish pcktCnt ≠ 0)
    (h : Filled env 0 { tx with recorder := fillHeader pcktCnt total tx.recorder } filled) :
    Sent env total pcktCnt tx (publishPacket filled) [filled.recorder.seedPacket] where
  published_eq := by rw [publishPacket, h.published_eq]
  length_le := by
    rw [List.length_singleton]
    omega
  length_eq_iff := by
    rw [List.length_singleton]
    constructor
    · intro hlength k hk hkt
      omega
    · intro hall
      by_contra hne
      exact hpublish (hall pcktCnt le_rfl (by omega))
  packets_eq i hi := by
    have hzero : i = 0 := by simpa using hi
    subst hzero
    exact h.psramPacket
  mem_reads address := by
    rw [publishPacket, h.mem_reads, List.length_singleton, Nat.mul_one]
    simp only [Nat.zero_add]
    rfl
  loopEnd := Or.inl ⟨⟨pcktCnt, le_rfl, hle, hpublish⟩,
    Recorder.SameRecording.trans ⟨_, _, _, _, rfl⟩ h.same⟩

/-- A published packet is followed by the rest of the loop. -/
theorem sent_of_published {env : SendEnv} {total pcktCnt : ℕ} {tx filled result : Transmission}
    {packets : List SeedPacket} (hle : pcktCnt ≤ total) (hpublish : env.publish pcktCnt = 0)
    (h : Filled env 0 { tx with recorder := fillHeader pcktCnt total tx.recorder } filled)
    (hrest : Sent env total (pcktCnt + 1) (reportFailCounter (publishPacket filled)) result
      packets) :
    Sent env total pcktCnt tx result (filled.recorder.seedPacket :: packets) where
  published_eq := by
    rw [hrest.published_eq, reportFailCounter, publishPacket, h.published_eq]
    simp only [List.append_assoc, List.singleton_append]
  length_le := by
    have hlength := hrest.length_le
    rw [List.length_cons]
    omega
  length_eq_iff := by
    have hiff := hrest.length_eq_iff
    have hcount : packets.length + 1 = total + 1 - pcktCnt ↔
        packets.length = total + 1 - (pcktCnt + 1) := by omega
    rw [List.length_cons, hcount, hiff]
    exact forall_publish_iff hpublish
  packets_eq i hi := by
    cases i with
    | zero => exact h.psramPacket
    | succ i =>
      have hpacket := hrest.packets_eq i (Nat.lt_of_succ_lt_succ hi)
      have haddress : filled.recorder.flashAddressRead + 10 * (waveSampleLen * i) =
          tx.recorder.flashAddressRead + 10 * (waveSampleLen * (i + 1)) := by
        rw [h.address_eq, Nat.mul_succ]
        simp only [fillHeader]
        omega
      have hnr : pcktCnt + 1 + i = pcktCnt + (i + 1) := by omega
      simp only [reportFailCounter, publishPacket, haddress, hnr] at hpacket
      exact hpacket
  mem_reads address := by
    have haddress : filled.recorder.flashAddressRead =
        tx.recorder.flashAddressRead + 10 * waveSampleLen := h.address_eq
    rw [hrest.mem_reads, List.length_cons, exists_lt_packet_succ, ← or_assoc]
    simp only [reportFailCounter, publishPacket, haddress, h.mem_reads, Nat.zero_add]
    rfl
  loopEnd := by
    have hsame : tx.recorder.SameRecording
        (reportFailCounter (publishPacket filled)).recorder :=
      Recorder.SameRecording.trans (Recorder.SameRecording.trans ⟨_, _, _, _, rfl⟩ h.same)
        ⟨_, _, _, _, rfl⟩
    exact hrest.loopEnd.of_published hpublish hsame

/-- The packet loop with the ring flag clear, for every memory and every publish result. -/
theorem sent_sendPackets (env : SendEnv) (total pcktCnt : ℕ) (tx : Transmission)
    (hflag : tx.recorder.ring.circBuffOverflow = false) :
    ∃ packets, Sent env total pcktCnt tx (sendPackets env total pcktCnt tx) packets := by
  induction pcktCnt, tx using sendPackets.induct env total with
  | case1 pcktCnt tx hle hpublish =>
    have hfilled := filled_fillPacket env pcktCnt total tx hflag
    rw [sendPackets, if_pos hle]
    simp only [if_pos hpublish]
    exact ⟨_, sent_of_failed hle hpublish hfilled⟩
  | case2 pcktCnt tx hle sent hpublish ih =>
    have hfilled := filled_fillPacket env pcktCnt total tx hflag
    obtain ⟨packet, address, errors, failed, heq⟩ := hfilled.same
    have hkept : (reportFailCounter sent).recorder.ring.circBuffOverflow = false := by
      simp only [reportFailCounter, sent, publishPacket, heq]
      exact hflag
    obtain ⟨packets, hrest⟩ := ih hkept
    rw [sendPackets, if_pos hle]
    simp only [if_neg hpublish]
    exact ⟨_, sent_of_published hle (not_not.mp hpublish) hfilled hrest⟩
  | case3 pcktCnt tx hlt =>
    rw [sendPackets, if_neg hlt]
    refine ⟨[], ?_⟩
    exact
      { published_eq := (List.append_nil _).symm
        length_le := Nat.zero_le _
        length_eq_iff := by
          rw [List.length_nil]
          exact ⟨fun _ k hk hkt ↦ by omega, fun _ ↦ by omega⟩
        packets_eq := fun i hi ↦ absurd hi (Nat.not_lt_zero i)
        mem_reads := fun address ↦ by simp
        loopEnd := Or.inr ⟨fun k hk hkt ↦ by omega, Recorder.SameRecording.refl _⟩ }

end NrfExamples.MqttWorking
