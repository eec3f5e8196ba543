import NrfExamples.MqttWorking.Integrity

/-!
# The dump to the serial line

`send_measured_train_data_with_multiple_packets_from_flash_to_UART` prints what the sender would
publish, one line for each slot. It was written for records of eight bytes and neither reads nor
skips the checksum behind them, so record after record it falls two bytes behind: it prints the
samples of a recording only if these repeat the words stored in front of them.
-/

namespace NrfExamples.MqttWorking

open Memory Word Measurement

/-! ## Model -/

/-- `FLASH_BYTE_READ_OUT_LEN` -/
def flashByteReadOutLen : ℕ := 8

/-- The recorder and the lines printed so far. -/
structure UartDump where
  recorder : Recorder
  lines : List (Quad ℤ)

/-- One turn of the loop over the slots of a packet. -/
def readSlotToUart (slot : ℕ) (recorder : Recorder) : Recorder :=
  let bytes := flashMemoryReadData recorder.psram recorder.flashAddressRead flashByteReadOutLen
  { recorder with
    seedPacket := recorder.seedPacket.setSlot slot (decodeRecord bytes)
    flashAddressRead := recorder.flashAddressRead + flashByteReadOutLen }

/-- The loop over the slots of a packet. -/
def fillFromPsramToUart (slot : ℕ) (recorder : Recorder) : Recorder :=
  if slot < waveSampleLen then fillFromPsramToUart (slot + 1) (readSlotToUart slot recorder)
  else recorder
termination_by waveSampleLen - slot

/-- One packet up to its lines. -/
def fillPacketToUart (pcktCnt total : ℕ) (recorder : Recorder) : Recorder :=
  let recorder := fillHeader pcktCnt total recorder
  if recorder.ring.circBuffOverflow then fillFromRing recorder
  else fillFromPsramToUart 0 recorder

/-- The lines of a packet: the four values of each slot. -/
def packetLines (packet : SeedPacket) : List (Quad ℤ) :=
  (List.range waveSampleLen).map packet.slot

/-- The packet loop. -/
def printPackets (total pcktCnt : ℕ) (dump : UartDump) : UartDump :=
  if pcktCnt ≤ total then
    let recorder := fillPacketToUart pcktCnt total dump.recorder
    printPackets total (pcktCnt + 1) ⟨recorder, dump.lines ++ packetLines recorder.seedPacket⟩
  else
    { dump with
      recorder := { dump.recorder with trainCounter := dump.recorder.trainCounter + 1 } }
termination_by total + 1 - pcktCnt

def sendMeasuredTrainDataWithMultiplePacketsFromFlashToUart (recorder : Recorder) : UartDump :=
  printPackets (totalPacketToSend recorder) 1 ⟨{ recorder with flashAddressRead := 0 }, []⟩

/-- With a working memory and broker the first lines are the first slots published. -/
def PrintsPublished (recorder : Recorder) (count : ℕ) : Prop :=
  (sendMeasuredTrainDataWithMultiplePacketsFromFlashToUart recorder).lines.take count =
    ((sendMeasuredTrainDataWithMultiplePacketsFromFlash (workingEnv recorder.psram)
      recorder).published.flatMap packetLines).take count

/-- A word of a record: a channel, or the checksum behind the channels. -/
def recordWord (values : Quad ℤ) (position : ℕ) : ℤ :=
  if h : position < 4 then values ⟨position, h⟩
  else (crc16CcittJch (sampleBytes values) 8).toInt

/-- Each value is the word that precedes it in the stored words, five for each sample, by one place
for each sample in front of its own. -/
def RepeatsWords (samples : List (Quad ℤ)) : Prop :=
  ∀ i < samples.length, ∀ channel : Channel,
    samples[i]?.map (fun sample ↦ sample channel) =
      samples[(4 * i + channel) / 5]?.map fun sample ↦ recordWord sample ((4 * i + channel) % 5)

/-! ## Lines -/

/-- The values decoded from the eight bytes at an address. -/
def valuesAt (psram : Store) (address : ℕ) : Quad ℤ :=
  decodeRecord (flashMemoryReadData psram address flashByteReadOutLen)

structure PrintedSlots (slot : ℕ) (recorder filled : Recorder) : Prop where
  psram_eq : filled.psram = recorder.psram
  ring_eq : filled.ring = recorder.ring
  address_eq : filled.flashAddressRead = recorder.flashAddressRead + 8 * (waveSampleLen - slot)
  kept : ∀ j < slot, filled.seedPacket.slot j = recorder.seedPacket.slot j
  slots : ∀ j, slot + j < waveSampleLen →
    filled.seedPacket.slot (slot + j) = valuesAt recorder.psram (recorder.flashAddressRead + 8 * j)

/-- The slot loop fills every slot from the next eight bytes. -/
theorem printedSlots_fillFromPsramToUart (slot : ℕ) (recorder : Recorder)
    (hslot : slot ≤ waveSampleLen) :
    PrintedSlots slot recorder (fillFromPsramToUart slot recorder) := by
  induction slot, recorder using fillFromPsramToUart.induct with
  | case1 slot recorder hlt ih =>
    have h := ih hlt
    have hvalues : (fillFromPsramToUart (slot + 1) (readSlotToUart slot recorder)).seedPacket.slot
        slot = valuesAt recorder.psram recorder.flashAddressRead :=
      (h.kept slot (Nat.lt_succ_self slot)).trans (SeedPacket.slot_setSlot_self _ hlt _)
    rw [fillFromPsramToUart, if_pos hlt]
    exact
      { psram_eq := h.psram_eq
        ring_eq := h.ring_eq
        address_eq := by
          rw [h.address_eq]
          simp only [readSlotToUart, flashByteReadOutLen]
          omega
        kept := fun j hj ↦ by
          rw [h.kept j (Nat.lt_succ_of_lt hj)]
          exact SeedPacket.slot_setSlot_ne _ (by omega) _
        slots := fun j hj ↦ by
          cases j with
          | zero => exact hvalues
          | succ j =>
            have hrest := h.slots j (by omega)
            have haddress : recorder.flashAddressRead + 8 + 8 * j =
                recorder.flashAddressRead + 8 * (j + 1) := by omega
            have hindex : slot + 1 + j = slot + (j + 1) := by omega
            simp only [readSlotToUart, flashByteReadOutLen, haddress, hindex] at hrest
            exact hrest }
  | case2 slot recorder hge =>
    have hend : slot = waveSampleLen := le_antisymm hslot (not_lt.mp hge)
    rw [fillFromPsramToUart, if_neg hge]
    exact
      { psram_eq := rfl
        ring_eq := rfl
        address_eq := by rw [hend, Nat.sub_self, Nat.mul_zero, Nat.add_zero]
        kept := fun _ _ ↦ rfl
        slots := fun j hj ↦ by omega }

theorem packetLines_length (packet : SeedPacket) : (packetLines packet).length = waveSampleLen := by
  rw [packetLines, List.length_map, List.length_range]

/-- The lines of a packet from the PSRAM decode consecutive groups of eight bytes. -/
theorem PrintedSlots.lines {recorder filled : Recorder} (h : PrintedSlots 0 recorder filled) :
    packetLines filled.seedPacket = (List.range waveSampleLen).map fun j ↦
      valuesAt recorder.psram (recorder.flashAddressRead + 8 * j) := by
  apply List.map_congr_left
  intro j hj
  have hslot := h.slots j (by rw [Nat.zero_add]; exact List.mem_range.mp hj)
  rwa [Nat.zero_add] at hslot

/-- So do those of all packets with the ring flag clear. -/
theorem lines_printPackets (total pcktCnt : ℕ) (dump : UartDump)
    (hflag : dump.recorder.ring.circBuffOverflow = false) :
    (printPackets total pcktCnt dump).lines = dump.lines ++
      (List.range (waveSampleLen * (total + 1 - pcktCnt))).map fun i ↦
        valuesAt dump.recorder.psram (dump.recorder.flashAddressRead + 8 * i) := by
  induction pcktCnt, dump using printPackets.induct total with
  | case1 pcktCnt dump hle recorder ih =>
    have hring : ¬ (fillHeader pcktCnt total dump.recorder).ring.circBuffOverflow = true :=
      ne_true_of_eq_false hflag
    have hfill : recorder = fillFromPsramToUart 0 (fillHeader pcktCnt total dump.recorder) :=
      if_neg hring
    have h := printedSlots_fillFromPsramToUart 0 (fillHeader pcktCnt total dump.recorder)
      (Nat.zero_le _)
    rw [← hfill] at h
    have hkept : recorder.ring.circBuffOverflow = false := h.ring_eq ▸ hflag
    have hpsram : recorder.psram = dump.recorder.psram := h.psram_eq
    have haddress : recorder.flashAddressRead =
        dump.recorder.flashAddressRead + 8 * waveSampleLen := h.address_eq
    have hcount : waveSampleLen * (total + 1 - pcktCnt) =
        waveSampleLen + waveSampleLen * (total + 1 - (pcktCnt + 1)) := by
      rw [show total + 1 - pcktCnt = total + 1 - (pcktCnt + 1) + 1 by omega, Nat.mul_succ]
      omega
    rw [printPackets, if_pos hle]
    refine (ih hkept).trans ?_
    rw [h.lines, hpsram, haddress, List.append_assoc, hcount, List.range_add, List.map_append,
      List.map_map]
    simp only [Function.comp_def, Nat.mul_add, Nat.add_assoc]
    rfl
  | case2 pcktCnt dump hlt =>
    rw [printPackets, if_neg hlt, show total + 1 - pcktCnt = 0 by omega]
    exact (List.append_nil _).symm

/-- The lines of a pending recording: those of the ring packet, then the decoded groups. -/
theorem lines_pending {recorder : Recorder} (hflag : recorder.ring.circBuffOverflow = true)
    (htotal : 1 ≤ totalPacketToSend recorder) :
    (sendMeasuredTrainDataWithMultiplePacketsFromFlashToUart recorder).lines =
      packetLines (ringPacket (totalPacketToSend recorder) recorder.beginSending) ++
        (List.range (waveSampleLen * (totalPacketToSend recorder - 1))).map fun i ↦
          valuesAt recorder.psram (8 * i) := by
  generalize htotals : totalPacketToSend recorder = total at htotal ⊢
  let first : Recorder := fillFromRing (fillHeader 1 total { recorder with flashAddressRead := 0 })
  have hfill : fillPacketToUart 1 total { recorder with flashAddressRead := 0 } = first :=
    if_pos hflag
  rw [sendMeasuredTrainDataWithMultiplePacketsFromFlashToUart, htotals, printPackets,
    if_pos htotal]
  simp only [hfill]
  have hpacket : first.seedPacket = ringPacket total recorder.beginSending := rfl
  have hpsram : first.psram = recorder.psram := rfl
  have haddress : first.flashAddressRead = 0 := rfl
  rw [lines_printPackets total 2 ⟨first, _⟩ rfl, show total + 1 - 2 = total - 1 by omega]
  simp only [List.nil_append, hpacket, hpsram, haddress, Nat.zero_add]

/-! ## Words -/

theorem recordWord_eq {values : Quad ℤ} (h : ∀ channel, IsInt16 (values channel)) {position : ℕ}
    (hposition : position < 5) :
    joinBytes ((encodeRecord values).getD (2 * position) 0)
      ((encodeRecord values).getD (2 * position + 1) 0) = recordWord values position := by
  by_cases hchannel : position < 4
  · rw [recordWord, dif_pos hchannel]
    exact congrFun (decodeRecord_encodeRecord h) ⟨position, hchannel⟩
  · have hlast : position = 4 := by omega
    rw [recordWord, dif_neg hchannel, hlast]
    exact congrArg BitVec.toInt (joinBits_split (crc16CcittJch (sampleBytes values) 8))

/-- A group of eight bytes decodes to four consecutive words of the log. -/
theorem valuesAt_logged {psram : Store} {samples : List (Quad ℤ)}
    (hlogged : Logged 10 psram (samples.map encodeRecord))
    (hexact : ∀ sample ∈ samples, ∀ channel, IsInt16 (sample channel)) {i : ℕ}
    (hi : i < samples.length) (hbus : 8 * i < 2 ^ 24) (channel : Channel) :
    some (valuesAt psram (8 * i) channel) =
      samples[(4 * i + channel) / 5]?.map
        fun sample ↦ recordWord sample ((4 * i + channel) % 5) := by
  have hchannel := channel.isLt
  have hindex : (4 * i + channel) / 5 < samples.length := by omega
  have hrecord : (4 * i + channel) / 5 < (samples.map encodeRecord).length := by
    rwa [List.length_map]
  have hposition : (4 * i + channel : ℕ) % 5 < 5 := Nat.mod_lt _ (by decide)
  have hhigh : 8 * i + 2 * channel =
      10 * ((4 * i + channel) / 5) + 2 * ((4 * i + channel) % 5) := by omega
  have hlow : 8 * i + (2 * channel + 1) =
      10 * ((4 * i + channel) / 5) + (2 * ((4 * i + channel) % 5) + 1) := by omega
  rw [List.getElem?_eq_getElem hindex, Option.map_some,
    ← recordWord_eq (hexact _ (List.getElem_mem hindex)) hposition, valuesAt, decodeRecord,
    flashMemoryReadData, busAddress_eq_self hbus, flashByteReadOutLen,
    getD_read psram (8 * i) (by omega), getD_read psram (8 * i) (by omega), hhigh, hlow,
    hlogged.byte hrecord (by omega), hlogged.byte hrecord (by omega), List.getElem_map]

/-- The groups decode to the samples exactly if these repeat the words in front of them. -/
theorem map_valuesAt_eq_iff {psram : Store} {samples : List (Quad ℤ)}
    (hlogged : Logged 10 psram (samples.map encodeRecord))
    (hexact : ∀ sample ∈ samples, ∀ channel, IsInt16 (sample channel))
    (hbus : 8 * samples.length ≤ 2 ^ 24) :
    ((List.range samples.length).map fun i ↦ valuesAt psram (8 * i)) = samples ↔
      RepeatsWords samples := by
  have hvalues {i : ℕ} (hi : i < samples.length) :=
    valuesAt_logged hlogged hexact hi (by omega)
  constructor
  · intro heq i hi channel
    have hsample : samples[i]? = some (valuesAt psram (8 * i)) := by
      conv_lhs => rw [← heq]
      rw [List.getElem?_map, List.getElem?_range hi, Option.map_some]
    rw [← hvalues hi channel, hsample, Option.map_some]
  · intro hrepeats
    apply List.ext_getElem (by simp)
    intro i _ hi
    rw [List.getElem_map, List.getElem_range]
    funext channel
    have hsome := (hvalues hi channel).trans (hrepeats i hi channel).symm
    rw [List.getElem?_eq_getElem hi] at hsome
    exact Option.some.inj hsome

/-! ## The published slots -/

theorem eq_of_ofChannel {first second : List (Quad ℤ)}
    (h : ∀ channel, ofChannel channel first = ofChannel channel second) : first = second := by
  have hlength : first.length = second.length := by
    rw [← ofChannel_length 0 first, h 0, ofChannel_length]
  apply List.ext_getElem hlength
  intro i hfirst hsecond
  funext channel
  have hentry := congrArg (·[i]?) (h channel)
  simp only [getElem?_ofChannel, List.getElem?_eq_getElem hfirst,
    List.getElem?_eq_getElem hsecond] at hentry
  exact Option.some.inj hentry

theorem ofChannel_packetLines (channel : Channel) (packet : SeedPacket) :
    ofChannel channel (packetLines packet) = (packet.array channel).1 := by
  have hlength := (packet.array channel).2
  apply List.ext_getElem? fun slot ↦ ?_
  rw [getElem?_ofChannel, packetLines, List.getElem?_map]
  by_cases hslot : slot < waveSampleLen
  · rw [List.getElem?_range hslot, getElem?_array packet channel hslot]
    rfl
  · rw [List.getElem?_eq_none (by rw [List.length_range]; omega), List.getElem?_eq_none (by omega)]
    rfl

theorem ofChannel_flatMap (channel : Channel) (packets : List SeedPacket) :
    ofChannel channel (packets.flatMap packetLines) = channelStream packets channel := by
  induction packets with
  | nil => rfl
  | cons packet packets ih =>
    rw [List.flatMap_cons, ofChannel, List.map_append, channelStream, List.map_cons,
      List.flatten_cons]
    exact congrArg₂ (· ++ ·) (ofChannel_packetLines channel packet) ih

/-- The sender publishes the slots of the ring packet and then the samples. -/
theorem take_published {env : SendEnv} {total : ℕ} {recorder : Recorder} {result : Transmission}
    {packets : List SeedPacket} {samples : List (Quad ℤ)}
    (h : Transmitted env total recorder result packets)
    (hsamples : ∀ channel, (channelStream packets channel).take samples.length =
      ofChannel channel samples) :
    (result.published.flatMap packetLines).take (1024 + samples.length) =
      packetLines (ringPacket total recorder) ++ samples := by
  have hrest : (packets.flatMap packetLines).take samples.length = samples := by
    apply eq_of_ofChannel
    intro channel
    rw [← hsamples channel, ← ofChannel_flatMap, ofChannel, List.map_take]
    rfl
  have hring : (packetLines (ringPacket total recorder)).length = 1024 := packetLines_length _
  rw [h.published_eq, List.flatMap_cons, ← hring, List.take_length_add_append, hrest]

/-! ## Recordings -/

variable {recorder : Recorder} {before after : List Processed} {samples : List (Quad ℤ)}

theorem printsPublished_iff_of_recorded (h : Recorded recorder before after)
    (hlength : after.length ≤ maxRecordedFrames)
    (hrecords : after.map recordOf = samples.map encodeRecord)
    (hexact : ∀ sample ∈ samples, ∀ channel, IsInt16 (sample channel)) :
    PrintsPublished recorder (1024 + samples.length) ↔ RepeatsWords samples := by
  have hcount : after.length = samples.length := by
    simpa using congrArg List.length hrecords
  have hbound : samples.length ≤ 79977 := hcount ▸ hlength
  have hlogged : Logged 10 recorder.psram (samples.map encodeRecord) := hrecords ▸ h.logged
  obtain ⟨packets, hsent⟩ := transmitted_recording (workingEnv recorder.psram) h hlength
  have hpackets : packets.length = after.length / waveSampleLen + 2 - 1 :=
    hsent.length_eq_iff.mpr fun _ _ _ ↦ rfl
  have hcovers : samples.length ≤ waveSampleLen * packets.length := by
    rw [hpackets, hcount]
    unfold waveSampleLen
    omega
  have htotal := totalPacketToSend_eq h hlength
  have hpublished := take_published hsent
    (hsent.samples_take hlogged hexact (by omega) hcovers)
  have hring : (packetLines (ringPacket (totalPacketToSend recorder)
      recorder.beginSending)).length = 1024 := packetLines_length _
  have hprinted : (sendMeasuredTrainDataWithMultiplePacketsFromFlashToUart recorder).lines.take
      (1024 + samples.length) =
      packetLines (ringPacket (totalPacketToSend recorder) recorder.beginSending) ++
        (List.range samples.length).map fun i ↦ valuesAt recorder.psram (8 * i) := by
    have hmin : min samples.length (waveSampleLen * (totalPacketToSend recorder - 1)) =
        samples.length := Nat.min_eq_left (by rwa [htotal, ← hpackets])
    rw [lines_pending h.overflow (htotal ▸ Nat.le_add_left 1 _), ← hring,
      List.take_length_add_append, ← List.map_take, List.take_range, hmin]
  rw [PrintsPublished, hprinted, hpublished, htotal, List.append_cancel_left_eq]
  exact map_valuesAt_eq_iff hlogged hexact (by omega)

/-- A recording of one sample has no words in front of it that could be taken for others. -/
theorem repeatsWords_singleton (sample : Quad ℤ) : RepeatsWords [sample] := by
  intro i hi channel
  have hzero : i = 0 := Nat.lt_one_iff.mp hi
  have hchannel := channel.isLt
  rw [hzero, Nat.mul_zero, Nat.zero_add, Nat.div_eq_of_lt (by omega), Nat.mod_eq_of_lt (by omega)]
  simp only [List.getElem?_cons_zero, Option.map_some, recordWord, dif_pos hchannel]

/-- The second sample takes its first value from the checksum of the first one, and each further
value from the one before it. -/
theorem RepeatsWords.second {first second : Quad ℤ} {rest : List (Quad ℤ)}
    (h : RepeatsWords (first :: second :: rest)) :
    second = fun _ ↦ (crc16CcittJch (sampleBytes first) 8).toInt := by
  have hvalue := h 1 (Nat.succ_lt_succ (Nat.succ_pos _))
  have hzero : second 0 = (crc16CcittJch (sampleBytes first) 8).toInt := Option.some.inj (hvalue 0)
  have hone : second 1 = second 0 := Option.some.inj (hvalue 1)
  have htwo : second 2 = second 1 := Option.some.inj (hvalue 2)
  have hthree : second 3 = second 2 := Option.some.inj (hvalue 3)
  funext channel
  match channel with
  | 0 => exact hzero
  | 1 => exact hone.trans hzero
  | 2 => exact htwo.trans (hone.trans hzero)
  | 3 => exact hthree.trans (htwo.trans (hone.trans hzero))

/-- The dump prints what the sender publishes exactly for the recordings in which each value repeats
the word stored in front of it: always for one sample, and otherwise only if the second sample is
the checksum of the first in every channel. -/
theorem printsPublished_iff (settings : Settings) (now : UInt32) (recorder : Recorder)
    (offsets : Quad ℤ) (front : FrontEnd) (before after : List (Quad ℤ))
    (h : Completes settings now recorder (processFrames offsets front before)
      (processedAfter offsets front before after)) :
    PrintsPublished (recordedBy settings now recorder offsets front before after)
        (1024 + after.length) ↔
      RepeatsWords
        (clampedSamples offsets (frontEndAfter offsets front before).samples after) := by
  have hfinished := h.finishedAfter
  rw [← clampedSamples_length offsets after (frontEndAfter offsets front before).samples]
  exact printsPublished_iff_of_recorded hfinished.recorded hfinished.length_le
    (map_recordOf_processedAfter offsets front before after)
    (isInt16_clampedSamples offsets _ after)

theorem printsPublished_iff_one_sample :
    PrintsPublished (recordedBy ⟨0, 2, 0, 0⟩ 0 (Recorder.boot fun _ ↦ 0) (fun _ ↦ 0) FrontEnd.boot
      [fun _ ↦ 40] [fun _ ↦ -40]) (1024 + 1) :=
  (printsPublished_iff ⟨0, 2, 0, 0⟩ 0 (Recorder.boot fun _ ↦ 0) (fun _ ↦ 0) FrontEnd.boot
    [fun _ ↦ 40] [fun _ ↦ -40]
    { waits := rfl
      fires := rfl
      records := rfl
      ends := rfl }).mpr (repeatsWords_singleton _)

/-- Behind a first sample of zeros the dump prints the checksum of zeros for the second one. -/
theorem not_printsPublished_two_samples :
    Completes ⟨0, 2, 1, 0⟩ 0 (Recorder.boot fun _ ↦ 0)
        (processFrames (fun _ ↦ 0) FrontEnd.boot [fun _ ↦ 40])
        (processedAfter (fun _ ↦ 0) FrontEnd.boot [fun _ ↦ 40] [fun _ ↦ -40, fun _ ↦ -40]) ∧
      ¬ PrintsPublished (recordedBy ⟨0, 2, 1, 0⟩ 0 (Recorder.boot fun _ ↦ 0) (fun _ ↦ 0)
        FrontEnd.boot [fun _ ↦ 40] [fun _ ↦ -40, fun _ ↦ -40]) (1024 + 2) := by
  have hcompletes : Completes ⟨0, 2, 1, 0⟩ 0 (Recorder.boot fun _ ↦ 0)
      (processFrames (fun _ ↦ 0) FrontEnd.boot [fun _ ↦ 40])
      (processedAfter (fun _ ↦ 0) FrontEnd.boot [fun _ ↦ 40] [fun _ ↦ -40, fun _ ↦ -40]) :=
    { waits := rfl
      fires := rfl
      records := rfl
      ends := by decide +kernel }
  have hfinished := hcompletes.finishedAfter
  refine ⟨hcompletes, fun hprints ↦ ?_⟩
  have hrepeats := (printsPublished_iff_of_recorded hfinished.recorded hfinished.length_le
    (map_recordOf_processedAfter _ _ _ _) (isInt16_clampedSamples _ _ _)).mp hprints
  exact absurd (hrepeats 1 (by decide +kernel) 0) (by decide +kernel)

end NrfExamples.MqttWorking
