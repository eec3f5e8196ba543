import NrfExamples.Library.Blocks
import NrfExamples.MqttWorking.Transmission

/-!
# From ADC frames to published packets

With a memory that returns what it stores and a broker that takes every packet, the published
packets are numbered from one to their count, and each channel array, read over all packets, begins
with the pre-trigger window and the recorded samples of its channel.
-/

namespace NrfExamples.MqttWorking

open Memory Word Measurement

/-! ## Samples -/

/-- The clamp makes the conversions to `int16_t` exact, so ring and record carry the same value. -/
theorem ringValues_processFrames (offsets : Quad ℤ) (front : FrontEnd) (frames : List (Quad ℤ)) :
    (processFrames offsets front frames).map ringValues =
      clampedSamples offsets front.samples frames := by
  induction frames generalizing front with
  | nil => rfl
  | cons frame frames ih =>
    have hexact : ringValues (processFrame offsets front frame).2 =
        (processFrame offsets front frame).2.offValue := by
      funext channel
      exact toInt16_eq_self (isInt16_saturate _)
    simp only [processFrames, List.map_cons, ih, hexact]
    rfl

theorem isInt16_clampedSamples (offsets : Quad ℤ) (window : SampleBuffer)
    (frames : List (Quad ℤ)) :
    ∀ sample ∈ clampedSamples offsets window frames, ∀ channel, IsInt16 (sample channel) := by
  induction frames generalizing window with
  | nil =>
    intro sample hsample
    cases hsample
  | cons frame frames ih =>
    intro sample hsample channel
    cases List.mem_cons.mp hsample with
    | inl hfirst =>
      rw [hfirst]
      exact isInt16_saturate _
    | inr hrest => exact ih _ sample hrest channel

/-! ## Records -/

/-- A record of the log that fits the transferred address reads back as its sample. -/
theorem decode_logged {psram : Store} {samples : List (Quad ℤ)}
    (hlogged : Logged 10 psram (samples.map encodeRecord))
    (hexact : ∀ sample ∈ samples, ∀ channel, IsInt16 (sample channel)) {index : ℕ}
    (hindex : index < samples.length) (hbus : 10 * index < 2 ^ 24) {values : Quad ℤ}
    (hslot : SlotFrom (workingEnv psram) (10 * index) values) : values = samples[index] := by
  have hrecord : index < (samples.map encodeRecord).length := by rwa [List.length_map]
  have hread (n : ℕ) : (workingEnv psram).read n (10 * index) = encodeRecord samples[index] := by
    simp only [workingEnv, flashMemoryReadData, busAddress_eq_self hbus]
    rw [hlogged index hrecord, List.getElem_map]
  calc
    values = decodeRecord (encodeRecord samples[index]) :=
      hslot.eq_of_stable hread (crcMatches_encodeRecord _)
    _ = samples[index] :=
      decodeRecord_encodeRecord (hexact _ (List.getElem_mem hindex))

/-! ## Packets -/

/-- The values of a channel. -/
def ofChannel (channel : Channel) (samples : List (Quad ℤ)) : List ℤ :=
  samples.map fun values ↦ values channel

@[simp]
theorem ofChannel_length (channel : Channel) (samples : List (Quad ℤ)) :
    (ofChannel channel samples).length = samples.length :=
  List.length_map ..

@[simp]
theorem getElem?_ofChannel (channel : Channel) (samples : List (Quad ℤ)) (index : ℕ) :
    (ofChannel channel samples)[index]? = samples[index]?.map fun values ↦ values channel :=
  List.getElem?_map ..

/-- The values of a channel over a sequence of packets. -/
def channelStream (packets : List SeedPacket) (channel : Channel) : List ℤ :=
  (packets.map fun packet ↦ (packet.array channel).1).flatten

/-- An array entry is the value of its slot. -/
theorem getElem?_array (packet : SeedPacket) (channel : Channel) {slot : ℕ}
    (hslot : slot < waveSampleLen) :
    (packet.array channel).1[slot]? = some (packet.slot slot channel) := by
  have hlength : slot < (packet.array channel).1.length := (packet.array channel).2.symm ▸ hslot
  rw [List.getElem?_eq_getElem hlength, SeedPacket.slot, List.getD_eq_getElem _ _ hlength]

variable {psram : Store} {total : ℕ} {recorder : Recorder} {result : Transmission}
  {packets : List SeedPacket} {window samples : List (Quad ℤ)}

/-- The packets behind the ring packet carry the logged samples from the first one on. -/
theorem Transmitted.samples_take
    (h : Transmitted (workingEnv psram) total recorder result packets)
    (hlogged : Logged 10 psram (samples.map encodeRecord))
    (hexact : ∀ sample ∈ samples, ∀ channel, IsInt16 (sample channel))
    (hbus : 10 * samples.length ≤ 2 ^ 24)
    (hcovers : samples.length ≤ waveSampleLen * packets.length)
    (channel : Channel) :
    (channelStream packets channel).take samples.length =
      ofChannel channel samples := by
  have hentries : ∀ i j, j < waveSampleLen →
      waveSampleLen * i + j < (ofChannel channel samples).length →
      ((packets.map fun packet ↦ (packet.array channel).1)[i]?.bind fun block ↦ block[j]?) =
        (ofChannel channel samples)[waveSampleLen * i + j]? := by
    intro i j hj hindex
    rw [ofChannel_length] at hindex
    have hi : i < packets.length := by
      apply lt_of_mul_lt_mul_left (a := waveSampleLen) _ (Nat.zero_le _)
      omega
    have hslot := (h.packets_eq i hi).slots j hj
    rw [← Nat.mul_add] at hslot
    have hvalues := decode_logged hlogged hexact hindex (by omega) hslot
    calc
      ((packets.map fun packet ↦ (packet.array channel).1)[i]?.bind fun block ↦ block[j]?) =
          some (packets[i].slot j channel) := by
        rw [List.getElem?_map, List.getElem?_eq_getElem hi]
        exact getElem?_array packets[i] channel hj
      _ = (ofChannel channel samples)[waveSampleLen * i + j]? := by
        rw [hvalues, getElem?_ofChannel, List.getElem?_eq_getElem hindex]
        rfl
  have hsize : ∀ block ∈ packets.map fun packet ↦ (packet.array channel).1,
      block.length = waveSampleLen := by
    intro block hblock
    obtain ⟨packet, _, rfl⟩ := List.mem_map.mp hblock
    exact (packet.array channel).2
  have htake := Blocks.take_flatten (by decide : 0 < waveSampleLen) hsize hentries
  rwa [ofChannel_length] at htake

/-- Behind the window of the ring the packets carry the logged samples. -/
theorem Transmitted.channelStream_take
    (h : Transmitted (workingEnv psram) total recorder result packets)
    (hshows : recorder.ring.Shows window)
    (hlast : recorder.lastCircBuffRecord = recorder.ring.buffHead)
    (hlogged : Logged 10 psram (samples.map encodeRecord))
    (hexact : ∀ sample ∈ samples, ∀ channel, IsInt16 (sample channel))
    (hbus : 10 * samples.length ≤ 2 ^ 24)
    (hcovers : samples.length ≤ waveSampleLen * packets.length)
    (channel : Channel) :
    (channelStream result.published channel).take (crclrBuffSize + samples.length) =
      Window.last crclrBuffSize 0 (ofChannel channel window) ++
        ofChannel channel samples := by
  have hring := ringPacket_shows total hshows hlast channel
  have hlength : ((ringPacket total recorder).array channel).1.length = crclrBuffSize :=
    ((ringPacket total recorder).array channel).2
  calc
    (channelStream result.published channel).take (crclrBuffSize + samples.length) =
        (((ringPacket total recorder).array channel).1 ++ channelStream packets channel).take
          (crclrBuffSize + samples.length) := by
      rw [h.published_eq]
      rfl
    _ = ((ringPacket total recorder).array channel).1 ++
        (channelStream packets channel).take samples.length := by
      rw [← hlength, List.take_length_add_append]
    _ = Window.last crclrBuffSize 0 (ofChannel channel window) ++ ofChannel channel samples := by
      rw [hring, h.samples_take hlogged hexact hbus hcovers]
      rfl

/-- The published packets carry the numbers from one to their count. -/
theorem Transmitted.numbers {env : SendEnv} (h : Transmitted env total recorder result packets)
    (hlength : packets.length = total - 1) (htotal : 1 ≤ total) :
    result.published.map SeedPacket.actualPacketNr = List.range' 1 total ∧
      ∀ packet ∈ result.published, packet.totalPacketNr = total := by
  have hcount : total = packets.length + 1 := by omega
  rw [h.published_eq]
  constructor
  · have hrest : packets.map SeedPacket.actualPacketNr = List.range' 2 packets.length := by
      apply List.ext_getElem (by simp)
      intro i hi _
      rw [List.length_map] at hi
      rw [List.getElem_map, (h.packets_eq i hi).nr_eq, List.getElem_range', Nat.one_mul]
    rw [List.map_cons, hrest, hcount, List.range'_succ]
    rfl
  · intro packet hpacket
    cases List.mem_cons.mp hpacket with
    | inl hfirst =>
      rw [hfirst]
      rfl
    | inr hrest =>
      obtain ⟨i, hi, rfl⟩ := List.getElem_of_mem hrest
      exact (h.packets_eq i hi).total_eq

/-! ## The whole recording -/

section

variable (settings : Settings) (now : UInt32) (recorder : Recorder) (offsets : Quad ℤ)
  (front : FrontEnd) (before after : List (Quad ℤ))

/-- The values computed from the frames behind the trigger. -/
def processedAfter : List Processed :=
  processFrames offsets (frontEndAfter offsets front before) after

/-- The recorder after the frames up to the trigger and those behind it. -/
def recordedBy : Recorder :=
  ((start recorder).run settings now
    (processFrames offsets front before ++ processedAfter offsets front before after)).recorder

/-- Every frame behind the trigger is logged with its clamped sample. -/
theorem map_recordOf_processedAfter :
    (processedAfter offsets front before after).map recordOf =
      (clampedSamples offsets (frontEndAfter offsets front before).samples after).map
        encodeRecord := by
  rw [← processFrames_offValue, List.map_map]
  rfl

theorem clampedSamples_length (window : SampleBuffer) :
    (clampedSamples offsets window after).length = after.length := by
  induction after generalizing window with
  | nil => rfl
  | cons frame frames ih => rw [clampedSamples, List.length_cons, ih, List.length_cons]

/-- The published packets are those of the recorded frames: the last 1024 clamped samples up to the
trigger, behind zeros, and then the clamped samples of every frame behind it. -/
theorem published_eq_recorded
    (h : Completes settings now recorder (processFrames offsets front before)
      (processedAfter offsets front before after)) :
    let recorded := recordedBy settings now recorder offsets front before after
    let published := (sendMeasuredTrainDataWithMultiplePacketsFromFlash
      (workingEnv recorded.psram) recorded).published
    ∃ total, published.map SeedPacket.actualPacketNr = List.range' 1 total ∧
      (∀ packet ∈ published, packet.totalPacketNr = total) ∧
      ∀ channel, (channelStream published channel).take (1024 + after.length) =
        (List.replicate 1024 0 ++
          ofChannel channel (clampedSamples offsets front.samples before)).rtake 1024 ++
        ofChannel channel
          (clampedSamples offsets (frontEndAfter offsets front before).samples after) := by
  intro recorded published
  have hfinished := h.finishedAfter
  have hcount : (processedAfter offsets front before after).length = after.length :=
    processFrames_length ..
  have hsamples := clampedSamples_length offsets after (frontEndAfter offsets front before).samples
  have hbound := hfinished.length_le
  rw [hcount] at hbound
  obtain ⟨packets, hsent⟩ := transmitted_recording (workingEnv recorded.psram) hfinished.recorded
    hfinished.length_le
  rw [hcount] at hsent
  have hlength : packets.length = after.length / waveSampleLen + 2 - 1 :=
    hsent.length_eq_iff.mpr fun _ _ _ ↦ rfl
  have hnumbers := hsent.numbers hlength (Nat.le_add_left 1 _)
  have hshows := hfinished.recorded.ring_shows
  have hlogged := hfinished.recorded.logged
  rw [ringValues_processFrames] at hshows
  rw [map_recordOf_processedAfter] at hlogged
  refine ⟨_, hnumbers.1, hnumbers.2, fun channel ↦ ?_⟩
  rw [← hsamples]
  apply hsent.channelStream_take hshows hfinished.recorded.last_eq hlogged
    (isInt16_clampedSamples offsets _ after)
  · rw [hsamples]
    unfold maxRecordedFrames nrOfSamplesToMeasure crclrBuffSize at hbound
    omega
  · rw [hsamples, hlength]
    unfold waveSampleLen
    omega

end

theorem published_eq_recorded_two_frames :
    let recorded := recordedBy ⟨0, 2, 0, 0⟩ 0 (Recorder.boot fun _ ↦ 0) (fun _ ↦ 0) FrontEnd.boot
      [fun _ ↦ 40] [fun _ ↦ -40]
    let published := (sendMeasuredTrainDataWithMultiplePacketsFromFlash
      (workingEnv recorded.psram) recorded).published
    ∃ total, published.map SeedPacket.actualPacketNr = List.range' 1 total ∧
      (∀ packet ∈ published, packet.totalPacketNr = total) ∧
      ∀ channel, (channelStream published channel).take (1024 + 1) =
        (List.replicate 1024 0 ++ ofChannel channel
          (clampedSamples (fun _ ↦ 0) FrontEnd.boot.samples [fun _ ↦ 40])).rtake 1024 ++
        ofChannel channel (clampedSamples (fun _ ↦ 0)
          (frontEndAfter (fun _ ↦ 0) FrontEnd.boot [fun _ ↦ 40]).samples [fun _ ↦ -40]) :=
  published_eq_recorded ⟨0, 2, 0, 0⟩ 0 (Recorder.boot fun _ ↦ 0) (fun _ ↦ 0) FrontEnd.boot
    [fun _ ↦ 40] [fun _ ↦ -40]
    { waits := rfl
      fires := rfl
      records := rfl
      ends := rfl }

end NrfExamples.MqttWorking
