import NrfExamples.MqttWorking.Recorder

/-!
# Sending a recording

`send_measured_train_data_with_multiple_packets_from_flash`: the first packet is copied out of the
ring, every other one is read record by record from the PSRAM, and each is published. What a read
returns and whether a publish succeeds are inputs, so the memory may return anything at any attempt.
A transmission also lists the addresses read and the packets handed to `data_publish`.
-/

namespace NrfExamples.MqttWorking

open Memory

/-- The outcomes of the calls the sender makes. -/
structure SendEnv where
  /-- The ten bytes returned by the read with this number, counted from zero, at an address. -/
  read : ℕ → ℕ → List Byte
  /-- The result of `data_publish` for the packet with this number. -/
  publish : ℕ → ℤ

structure Transmission where
  recorder : Recorder
  reads : List ℕ
  published : List SeedPacket

/-! ## Reading records -/

/-- The value sent in every channel for a record that could not be read. -/
def placeholder : Quad ℤ := fun _ ↦ -32760

/-- Assign a slot and step to the next record. -/
def takeRecord (slot : ℕ) (values : Quad ℤ) (recorder : Recorder) : Recorder :=
  { recorder with
    seedPacket := recorder.seedPacket.setSlot slot values
    flashAddressRead := recorder.flashAddressRead + 10 }

/-- The record returned by the next read. -/
def nextRead (env : SendEnv) (tx : Transmission) : List Byte :=
  env.read tx.reads.length tx.recorder.flashAddressRead

/-- One turn of the loop over the slots of a packet: the next slot and the recorder. -/
def readSlot (env : SendEnv) (slot : ℕ) (tx : Transmission) : ℕ × Recorder :=
  let recorder := tx.recorder
  let bytes := nextRead env tx
  if crcMatches bytes then (slot + 1, takeRecord slot (decodeRecord bytes) recorder)
  else if recorder.crcErrCounter + 1 > 100 then
    (slot + 1, takeRecord slot placeholder
      { recorder with
        crcErrCounter := 0
        flashSampleFailCounter := recorder.flashSampleFailCounter + 1 })
  else (slot, { recorder with crcErrCounter := recorder.crcErrCounter + 1 })

/-- The turn with its read added to the list. -/
def readTurn (env : SendEnv) (slot : ℕ) (tx : Transmission) : Transmission :=
  { tx with
    recorder := (readSlot env slot tx).2
    reads := tx.reads ++ [tx.recorder.flashAddressRead] }

/-- What is left to do in a packet: every slot may take a hundred more failed reads. -/
def slotMeasure (slot : ℕ) (recorder : Recorder) : ℕ :=
  101 * (waveSampleLen - slot) + (100 - recorder.crcErrCounter)

theorem slotMeasure_readSlot (env : SendEnv) {slot : ℕ} (tx : Transmission)
    (hslot : slot < waveSampleLen) :
    slotMeasure (readSlot env slot tx).1 (readSlot env slot tx).2 <
      slotMeasure slot tx.recorder := by
  unfold readSlot
  by_cases hcrc : crcMatches (nextRead env tx)
  · simp only [if_pos hcrc, slotMeasure, takeRecord]
    omega
  · by_cases hlimit : tx.recorder.crcErrCounter + 1 > 100
    · simp only [if_neg hcrc, if_pos hlimit, slotMeasure, takeRecord]
      omega
    · simp only [if_neg hcrc, if_neg hlimit, slotMeasure]
      omega

/-- The loop over the slots of a packet. -/
def fillFromPsram (env : SendEnv) (slot : ℕ) (tx : Transmission) : Transmission :=
  if slot < waveSampleLen then
    fillFromPsram env (readSlot env slot tx).1 (readTurn env slot tx)
  else tx
termination_by slotMeasure slot tx.recorder
decreasing_by exact slotMeasure_readSlot env tx (by assumption)

/-! ## The ring packet -/

/-- The block copies of one ring array into one packet array. -/
def copyRing (tempHead : ℕ) (target : Wave) (source : List ℤ) : Wave :=
  let tempTail := crclrBuffSize - tempHead
  if tempTail = 0 then target.copyFrom 0 source 0 crclrBuffSize
  else (target.copyFrom 0 source tempHead tempTail).copyFrom tempTail source 0 tempHead

/-- Fill the packet from the ring and clear the flag that asks for it. -/
def fillFromRing (recorder : Recorder) : Recorder :=
  let tempHead := recorder.lastCircBuffRecord
  let packet := recorder.seedPacket
  let ring := recorder.ring
  { recorder with
    ring := { ring with circBuffOverflow := false }
    seedPacket := { packet with
      chan0Vlt := copyRing tempHead packet.chan0Vlt ring.circBuffCh0
      chan0Int := copyRing tempHead packet.chan0Int ring.circBuffCh1
      chan1Vlt := copyRing tempHead packet.chan1Vlt ring.circBuffCh2
      chan1Int := copyRing tempHead packet.chan1Int ring.circBuffCh3 } }

/-! ## Packets -/

/-- The header fields set at the top of each turn of the packet loop. -/
def fillHeader (pcktCnt total : ℕ) (recorder : Recorder) : Recorder :=
  { recorder with
    seedPacket := { recorder.seedPacket with
      packetHeader := 0xBEEF
      packetVersion := 0x0101
      actualPacketNr := pcktCnt
      totalPacketNr := total
      timestamp := recorder.recordBeginUnixTimeS
      trainCounter := recorder.trainCounter
      crc := 0xABCD } }

/-- One packet up to the publish. -/
def fillPacket (env : SendEnv) (pcktCnt total : ℕ) (tx : Transmission) : Transmission :=
  let tx := { tx with recorder := fillHeader pcktCnt total tx.recorder }
  if tx.recorder.ring.circBuffOverflow then { tx with recorder := fillFromRing tx.recorder }
  else fillFromPsram env 0 tx

/-- Hand the packet to `data_publish`. -/
def publishPacket (tx : Transmission) : Transmission :=
  { tx with published := tx.published ++ [tx.recorder.seedPacket] }

/-- The assignment behind a successful publish. -/
def reportFailCounter (tx : Transmission) : Transmission :=
  { tx with
    recorder := { tx.recorder with
      seedPacket := { tx.recorder.seedPacket with
        crc := UInt16.ofNat tx.recorder.flashSampleFailCounter } } }

/-- The packet loop. A failed publish leaves it without counting the recording. -/
def sendPackets (env : SendEnv) (total pcktCnt : ℕ) (tx : Transmission) : Transmission :=
  if pcktCnt ≤ total then
    let tx := publishPacket (fillPacket env pcktCnt total tx)
    if env.publish pcktCnt ≠ 0 then tx
    else sendPackets env total (pcktCnt + 1) (reportFailCounter tx)
  else { tx with recorder := { tx.recorder with trainCounter := tx.recorder.trainCounter + 1 } }
termination_by total + 1 - pcktCnt

/-- `total_packet_to_send`, with its sixteen-bit arithmetic. -/
def totalPacketToSend (recorder : Recorder) : ℕ :=
  let total := recorder.totalRecordedSamples / waveSampleLen % 65536
  if recorder.ring.circBuffOverflow then (total + 1) % 65536 else total

/-- The variables that the sender resets first. -/
def Recorder.beginSending (recorder : Recorder) : Recorder :=
  { recorder with crcErrCounter := 0, flashSampleFailCounter := 0, flashAddressRead := 0 }

def sendMeasuredTrainDataWithMultiplePacketsFromFlash (env : SendEnv) (recorder : Recorder) :
    Transmission :=
  sendPackets env (totalPacketToSend recorder) 1 ⟨recorder.beginSending, [], []⟩

/-- Every read returns what the memory stores and every publish succeeds. -/
def workingEnv (psram : Store) : SendEnv where
  read _ address := flashMemoryReadData psram address 10
  publish _ := 0

end NrfExamples.MqttWorking
