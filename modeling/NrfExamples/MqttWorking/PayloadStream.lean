import NrfExamples.MqttWorking.MqttConnection

/-!
# Reading a payload from the stream

`get_received_payload` with the announced length as the unsigned word of the source, over the
stream of bytes behind the header of a message. The results of the reads are inputs; a blocking
read returns at most the length it was asked for. `Before` describes the state in front of a
blocking read through the lengths left to read, and `Truncated` the two ends of the loop.
-/

namespace NrfExamples.MqttWorking

open Memory

/-- The results of the reads of one payload. -/
structure Transport where
  /-- Result of the blocking read with this number, counted from zero, of a requested length. -/
  blocking : ℕ → ℕ → ℤ
  blocking_le : ∀ n requested, blocking n requested ≤ requested
  /-- Result of `mqtt_readall_publish_payload`. -/
  readall : ℤ
  /-- The bytes that a failing `mqtt_readall_publish_payload` stores before it fails. -/
  stored : ℕ

/-- The receive buffer, `length`, the bytes taken from the stream so far and the lengths that were
requested. -/
structure Reading where
  payloadBuf : Buffer mqttBufferSize
  length : UInt32
  position : ℕ
  requests : List ℕ

/-- `sizeof(payload_buf)`. -/
def sizeofPayloadBuf : UInt32 := 2048

namespace Reading

def start (payloadBuf : Buffer mqttBufferSize) (length : UInt32) : Reading :=
  ⟨payloadBuf, length, 0, []⟩

def request (reading : Reading) (length : ℕ) : Reading :=
  { reading with requests := reading.requests ++ [length] }

/-- Store the next bytes of the stream at the front of the buffer. -/
def take (stream : Store) (count : ℕ) (reading : Reading) : Reading :=
  { reading with
    payloadBuf := reading.payloadBuf.store (read stream reading.position count) count
    position := reading.position + count }

/-- The excess over the buffer. -/
def excess (reading : Reading) : ℕ := (reading.length - sizeofPayloadBuf).toNat

/-- Behind a blocking read for the excess that returned a number of bytes. -/
def advance (stream : Store) (ret : ℤ) (reading : Reading) : Reading :=
  { (reading.request reading.excess).take stream ret.toNat with
    length := reading.length - UInt32.ofNat ret.toNat }

theorem excess_eq {reading : Reading} (h : reading.length > sizeofPayloadBuf) :
    reading.excess = reading.length.toNat - 2048 :=
  UInt32.toNat_sub_of_le _ _ (UInt32.le_of_lt h)

/-- The subtraction of a result does not wrap. -/
theorem toNat_length_sub {reading : Reading} {ret : ℤ} (h : reading.length > sizeofPayloadBuf)
    (hret : ret ≤ reading.excess) :
    (reading.length - UInt32.ofNat ret.toNat).toNat = reading.length.toNat - ret.toNat := by
  have hlength : reading.length.toNat < 2 ^ 32 := reading.length.toNat_lt
  have hsmall : ret.toNat ≤ reading.length.toNat := by
    rw [excess_eq h] at hret
    omega
  have hword : (UInt32.ofNat ret.toNat).toNat = ret.toNat :=
    UInt32.toNat_ofNat_of_lt' (hsmall.trans_lt hlength)
  have hle : UInt32.ofNat ret.toNat ≤ reading.length := by
    rw [UInt32.le_iff_toNat_le, hword]
    exact hsmall
  rw [UInt32.toNat_sub_of_le _ _ hle, hword]

end Reading

/-! ## The function -/

namespace PayloadStream

variable (transport : Transport) (stream : Store)

/-- The loop that reads until the rest fits. A result other than zero returns. -/
def truncatePayload (reading : Reading) : Reading × ℤ :=
  if reading.length > sizeofPayloadBuf then
    let ret := transport.blocking reading.requests.length reading.excess
    if ret = 0 then (reading.request reading.excess, -eio)
    else if ret < 0 then (reading.request reading.excess, ret)
    else truncatePayload (reading.advance stream ret)
  else (reading, 0)
termination_by reading.length.toNat
decreasing_by
  have hlong : reading.length > sizeofPayloadBuf := by assumption
  have hle := transport.blocking_le reading.requests.length reading.excess
  have hlength : sizeofPayloadBuf.toNat < reading.length.toNat :=
    UInt32.lt_iff_toNat_lt.mp hlong
  rw [Reading.advance, Reading.toNat_length_sub hlong hle]
  omega

/-- `mqtt_readall_publish_payload` for the rest of the payload. -/
def readallPayload (reading : Reading) : Reading :=
  let asked := reading.request reading.length.toNat
  if transport.readall ≠ 0 then asked.take stream (min transport.stored reading.length.toNat)
  else asked.take stream reading.length.toNat

def getReceivedPayload (payloadBuf : Buffer mqttBufferSize) (length : UInt32) : Reading × ℤ :=
  let err := if length > sizeofPayloadBuf then -emsgsize else 0
  let truncated := truncatePayload transport stream (Reading.start payloadBuf length)
  if truncated.2 ≠ 0 then truncated
  else
    let reading := readallPayload transport stream truncated.1
    if transport.readall ≠ 0 then (reading, transport.readall) else (reading, err)

end PayloadStream

/-! ## The lengths left to read -/

namespace Transport

variable (transport : Transport) (announced : ℕ)

/-- What is left of an announced length in front of the blocking read with this number, where the
reads before it succeed. -/
def lengthAt : ℕ → ℕ
  | 0 => announced
  | n + 1 => lengthAt n - (transport.blocking n (lengthAt n - 2048)).toNat

/-- The result of the blocking read with this number. -/
def resultAt (n : ℕ) : ℤ := transport.blocking n (transport.lengthAt announced n - 2048)

/-- The lengths that the first blocking reads request. -/
def requestsBefore (n : ℕ) : List ℕ :=
  (List.range n).map fun i ↦ transport.lengthAt announced i - 2048

theorem lengthAt_succ (n : ℕ) : transport.lengthAt announced (n + 1) =
    transport.lengthAt announced n - (transport.resultAt announced n).toNat := rfl

theorem requestsBefore_succ (n : ℕ) : transport.requestsBefore announced (n + 1) =
    transport.requestsBefore announced n ++ [transport.lengthAt announced n - 2048] := by
  rw [requestsBefore, List.range_succ, List.map_append]
  rfl

theorem lengthAt_antitone : Antitone (transport.lengthAt announced) :=
  antitone_nat_of_succ_le fun _ ↦ Nat.sub_le _ _

theorem lengthAt_le (n : ℕ) : transport.lengthAt announced n ≤ announced :=
  transport.lengthAt_antitone announced (Nat.zero_le n)

variable {transport announced}

/-- A read takes at most the excess, so the buffer can always be filled. -/
theorem le_lengthAt_succ {n : ℕ} (h : 2048 < transport.lengthAt announced n) :
    2048 ≤ transport.lengthAt announced (n + 1) := by
  have hle : transport.resultAt announced n ≤ (transport.lengthAt announced n - 2048 : ℕ) :=
    transport.blocking_le _ _
  rw [lengthAt_succ]
  omega

/-- The blocking reads in front of this number are made and succeed. -/
def Succeeds (transport : Transport) (announced n : ℕ) : Prop :=
  ∀ i < n, 2048 < transport.lengthAt announced i ∧ 1 ≤ transport.resultAt announced i

theorem Succeeds.zero : transport.Succeeds announced 0 := fun i hi ↦ absurd hi (Nat.not_lt_zero i)

theorem Succeeds.succ {n : ℕ} (h : transport.Succeeds announced n)
    (hlong : 2048 < transport.lengthAt announced n) (hresult : 1 ≤ transport.resultAt announced n) :
    transport.Succeeds announced (n + 1) := by
  intro i hi
  obtain hlt | rfl : i < n ∨ i = n := by omega
  · exact h i hlt
  · exact ⟨hlong, hresult⟩

/-- Each successful read takes at least one byte. -/
theorem Succeeds.lengthAt_add_le {n : ℕ} (h : transport.Succeeds announced n) :
    transport.lengthAt announced n + n ≤ announced := by
  induction n with
  | zero => exact le_rfl
  | succ n ih =>
    have hrest := ih fun i hi ↦ h i (Nat.lt_succ_of_lt hi)
    obtain ⟨hlong, hresult⟩ := h n (Nat.lt_succ_self n)
    rw [lengthAt_succ]
    omega

/-- Where no excess is left the rest is as long as the payload or the buffer. -/
theorem Succeeds.lengthAt_eq {n : ℕ} (h : transport.Succeeds announced n)
    (hend : transport.lengthAt announced n ≤ 2048) :
    transport.lengthAt announced n = min announced 2048 := by
  cases n with
  | zero => exact (Nat.min_eq_left hend).symm
  | succ n =>
    have hlong := (h n (Nat.lt_succ_self n)).1
    have hfull := le_lengthAt_succ hlong
    have hannounced := transport.lengthAt_le announced n
    omega

/-- The reads that succeed are those in front of the first one that fails, and of the rest. -/
theorem Succeeds.le {n m : ℕ} (h : transport.Succeeds announced n)
    (hend : transport.lengthAt announced m ≤ 2048 ∨ transport.resultAt announced m ≤ 0) :
    n ≤ m := by
  by_contra hlt
  obtain ⟨hlong, hresult⟩ := h m (not_le.mp hlt)
  omega

end Transport

/-! ## Runs of the loop -/

namespace PayloadStream

variable {transport : Transport} {stream : Store} {announced : ℕ}
  {payloadBuf : Buffer mqttBufferSize}

/-- The state in front of the blocking read with this number. -/
structure Before (transport : Transport) (announced n : ℕ) (reading : Reading) : Prop where
  length_eq : reading.length.toNat = transport.lengthAt announced n
  position_add : reading.position + transport.lengthAt announced n = announced
  requests_eq : reading.requests = transport.requestsBefore announced n
  succeeds : transport.Succeeds announced n

theorem Before.start (transport : Transport) (payloadBuf : Buffer mqttBufferSize)
    (length : UInt32) :
    Before transport length.toNat 0 (Reading.start payloadBuf length) where
  length_eq := rfl
  position_add := Nat.zero_add _
  requests_eq := rfl
  succeeds := Transport.Succeeds.zero

namespace Before

variable {n : ℕ} {reading : Reading} (h : Before transport announced n reading)

include h

theorem count_eq : reading.requests.length = n := by
  rw [h.requests_eq, Transport.requestsBefore, List.length_map, List.length_range]

theorem long_iff :
    reading.length > sizeofPayloadBuf ↔ 2048 < transport.lengthAt announced n := by
  rw [← h.length_eq]
  exact UInt32.lt_iff_toNat_lt

theorem excess_eq (hlong : reading.length > sizeofPayloadBuf) :
    reading.excess = transport.lengthAt announced n - 2048 := by
  rw [Reading.excess_eq hlong, h.length_eq]

theorem blocking_eq (hlong : reading.length > sizeofPayloadBuf) :
    transport.blocking reading.requests.length reading.excess =
      transport.resultAt announced n := by
  rw [h.count_eq, h.excess_eq hlong]
  rfl

theorem requests_request (hlong : reading.length > sizeofPayloadBuf) :
    (reading.request reading.excess).requests = transport.requestsBefore announced (n + 1) := by
  rw [Transport.requestsBefore_succ, Reading.request, h.requests_eq, h.excess_eq hlong]

/-- A blocking read that succeeds. -/
theorem next (stream : Store) (hlong : reading.length > sizeofPayloadBuf)
    (hresult : 1 ≤ transport.resultAt announced n) :
    Before transport announced (n + 1)
      (reading.advance stream (transport.resultAt announced n)) where
  length_eq := by
    have hle : transport.resultAt announced n ≤ reading.excess := by
      rw [h.excess_eq hlong]
      exact transport.blocking_le _ _
    rw [Transport.lengthAt_succ, ← h.length_eq]
    exact Reading.toNat_length_sub hlong hle
  position_add := by
    have hexcess := h.long_iff.mp hlong
    have hadd := h.position_add
    have hle : transport.resultAt announced n ≤ (transport.lengthAt announced n - 2048 : ℕ) :=
      transport.blocking_le _ _
    rw [Transport.lengthAt_succ]
    simp only [Reading.advance, Reading.take, Reading.request]
    omega
  requests_eq := h.requests_request hlong
  succeeds := h.succeeds.succ (h.long_iff.mp hlong) hresult

end Before

/-- How the loop ends: with a read that fails, or with a rest that fits the buffer. -/
inductive Truncated (transport : Transport) (announced : ℕ) : Reading × ℤ → Prop where
  | failed (n : ℕ) (reading : Reading) (hbefore : Before transport announced n reading)
      (hlong : 2048 < transport.lengthAt announced n)
      (hresult : transport.resultAt announced n ≤ 0) :
      Truncated transport announced (reading.request (transport.lengthAt announced n - 2048),
        if transport.resultAt announced n = 0 then -eio else transport.resultAt announced n)
  | fits (n : ℕ) (reading : Reading) (hbefore : Before transport announced n reading)
      (hend : transport.lengthAt announced n ≤ 2048) :
      Truncated transport announced (reading, 0)

/-- One turn of the loop. -/
theorem truncatePayload_of_long {n : ℕ} {reading : Reading}
    (h : Before transport announced n reading) (hlong : reading.length > sizeofPayloadBuf) :
    truncatePayload transport stream reading =
      if transport.resultAt announced n = 0 then (reading.request reading.excess, -eio)
      else if transport.resultAt announced n < 0 then
        (reading.request reading.excess, transport.resultAt announced n)
      else truncatePayload transport stream
        (reading.advance stream (transport.resultAt announced n)) := by
  rw [truncatePayload, if_pos hlong]
  simp only [h.blocking_eq hlong]

theorem truncated_truncatePayload (stream : Store) {n : ℕ} {reading : Reading}
    (h : Before transport announced n reading) :
    Truncated transport announced (truncatePayload transport stream reading) := by
  -- On the length left: a read that succeeds lowers it.
  induction hleft : transport.lengthAt announced n using Nat.strong_induction_on
    generalizing n reading with
  | _ left ih =>
    by_cases hlong : reading.length > sizeofPayloadBuf
    · have hexcess := h.long_iff.mp hlong
      have hfailed := Truncated.failed n reading h hexcess
      rw [← h.excess_eq hlong] at hfailed
      rw [truncatePayload_of_long h hlong]
      by_cases hzero : transport.resultAt announced n = 0
      · rw [if_pos hzero] at hfailed ⊢
        exact hfailed hzero.le
      · by_cases hneg : transport.resultAt announced n < 0
        · rw [if_neg hzero] at hfailed ⊢
          rw [if_pos hneg]
          exact hfailed hneg.le
        · have hresult : 1 ≤ transport.resultAt announced n := by omega
          rw [if_neg hzero, if_neg hneg]
          refine ih (transport.lengthAt announced (n + 1)) ?_ (h.next stream hlong hresult) rfl
          rw [Transport.lengthAt_succ]
          omega
    · rw [truncatePayload, if_neg hlong]
      exact Truncated.fits n reading h (not_lt.mp (mt h.long_iff.mpr hlong))

end PayloadStream

end NrfExamples.MqttWorking
