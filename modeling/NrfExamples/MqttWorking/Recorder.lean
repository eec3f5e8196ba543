import NrfExamples.MqttWorking.CircularBuffer

/-!
# The recording and its storage

The PSRAM driver of `APS6404L.c` and the global variables that hold one recording: the ring with
the pre-trigger samples, the PSRAM with the post-trigger records, the sample count, and the packet
that the sender fills. The recording loop of `main` writes them and the sender reads them.
-/

namespace NrfExamples.MqttWorking

open Memory

/-! ## PSRAM driver -/

/-- A transfer carries the low three bytes of the address. -/
def busAddress (address : ℕ) : ℕ := address % 2 ^ 24

theorem busAddress_eq_self {address : ℕ} (h : address < 2 ^ 24) : busAddress address = address :=
  Nat.mod_eq_of_lt h

def flashMemoryWriteByteArray (psram : Store) (address : ℕ) (buffer : List Byte) (length : ℕ) :
    Store :=
  write psram (busAddress address) (buffer.take length)

def flashMemoryReadData (psram : Store) (address length : ℕ) : List Byte :=
  read psram (busAddress address) length

/-! ## Packet -/

def waveSampleLen : ℕ := 1024

/-- A packet array with its declared length. -/
def Wave := { samples : List ℤ // samples.length = waveSampleLen }

namespace Wave

def set (wave : Wave) (slot : ℕ) (value : ℤ) : Wave :=
  ⟨wave.1.set slot value, List.length_set.trans wave.2⟩

/-- The array after a block copy over part of it. -/
def copyFrom (wave : Wave) (offset : ℕ) (source : List ℤ) (start count : ℕ) : Wave :=
  ⟨copy wave.1 offset source start count, (copy_length ..).trans wave.2⟩

def zero : Wave := ⟨clearBuffer waveSampleLen, List.length_replicate⟩

end Wave

/-- `data_packet_t`, without the field that the program never assigns. -/
structure SeedPacket where
  packetHeader : ℕ
  packetVersion : ℕ
  actualPacketNr : ℕ
  totalPacketNr : ℕ
  timestamp : UInt32
  trainCounter : UInt16
  chan0Vlt : Wave
  chan0Int : Wave
  chan1Vlt : Wave
  chan1Int : Wave
  crc : UInt16

namespace SeedPacket

/-- The packet array that carries a channel. -/
def array (packet : SeedPacket) : Quad Wave
  | 0 => packet.chan0Vlt
  | 1 => packet.chan0Int
  | 2 => packet.chan1Vlt
  | 3 => packet.chan1Int

/-- Assign one slot of each array. -/
def setSlot (packet : SeedPacket) (slot : ℕ) (values : Quad ℤ) : SeedPacket :=
  { packet with
    chan0Vlt := packet.chan0Vlt.set slot (values 0)
    chan0Int := packet.chan0Int.set slot (values 1)
    chan1Vlt := packet.chan1Vlt.set slot (values 2)
    chan1Int := packet.chan1Int.set slot (values 3) }

@[simp]
theorem array_setSlot (packet : SeedPacket) (slot : ℕ) (values : Quad ℤ) (channel : Channel) :
    (packet.setSlot slot values).array channel =
      (packet.array channel).set slot (values channel) := by
  match channel with
  | 0 | 1 | 2 | 3 => rfl

/-- `seed_packet` at boot. -/
def zero : SeedPacket where
  packetHeader := 0
  packetVersion := 0
  actualPacketNr := 0
  totalPacketNr := 0
  timestamp := 0
  trainCounter := 0
  chan0Vlt := Wave.zero
  chan0Int := Wave.zero
  chan1Vlt := Wave.zero
  chan1Int := Wave.zero
  crc := 0

end SeedPacket

/-! ## Recording -/

/-- The global variables shared by the recording loop and the sender, and the PSRAM contents. -/
structure Recorder where
  ring : CircBuffer
  lastCircBuffRecord : ℕ
  totalRecordedSamples : ℕ
  recordBeginUnixTimeS : UInt32
  psram : Store
  flashAddressWrite : ℕ
  flashWriteBufferByte : List Byte
  flashAddressRead : ℕ
  crcErrCounter : ℕ
  flashSampleFailCounter : ℕ
  seedPacket : SeedPacket
  trainCounter : UInt16

/-- The variables at boot. The PSRAM keeps its contents over a reboot. -/
def Recorder.boot (psram : Store) : Recorder where
  ring := { circularBufferInit with circBuffOverflow := false }
  lastCircBuffRecord := 0
  totalRecordedSamples := 0
  recordBeginUnixTimeS := 0
  psram := psram
  flashAddressWrite := 0
  flashWriteBufferByte := List.replicate 10 0
  flashAddressRead := 0
  crcErrCounter := 0
  flashSampleFailCounter := 0
  seedPacket := SeedPacket.zero
  trainCounter := 0

end NrfExamples.MqttWorking
