import NrfExamples.MqttWorking.PayloadStream

/-!
# What reading a payload requests and consumes

The loop asks for the excess over the buffer, so its requests fit the buffer exactly if the payload
is at most twice as long as the buffer. Where every read succeeds the payload is taken from the
stream to its last byte and its end is in the buffer. Each outcome is one that `MqttConnection`
describes for a delivery.
-/

namespace NrfExamples.MqttWorking

open Memory

namespace PayloadStream

variable {transport : Transport} {stream : Store} {announced : ℕ}

/-! ## Requests -/

theorem Before.requests_le {n : ℕ} {reading : Reading} (h : Before transport announced n reading)
    (hannounced : announced ≤ 4096) : ∀ requested ∈ reading.requests, requested ≤ 2048 := by
  rw [h.requests_eq]
  intro requested hmem
  obtain ⟨i, _, rfl⟩ := List.mem_map.mp hmem
  have hle := transport.lengthAt_le announced i
  omega

theorem first_mem_requestsBefore (transport : Transport) (announced n : ℕ) :
    announced - 2048 ∈ transport.requestsBefore announced (n + 1) :=
  List.mem_map.mpr ⟨0, List.mem_range.mpr (Nat.succ_pos n), rfl⟩

theorem mem_request (reading : Reading) (length requested : ℕ) :
    requested ∈ (reading.request length).requests ↔
      requested ∈ reading.requests ∨ requested = length := by
  rw [Reading.request, List.mem_append, List.mem_singleton]

theorem requests_readallPayload (transport : Transport) (stream : Store) (reading : Reading) :
    (readallPayload transport stream reading).requests =
      (reading.request reading.length.toNat).requests := by
  unfold readallPayload
  dsimp only
  split
  · rfl
  · rfl

/-- What the function does: a failing blocking read returns at once, and otherwise the rest is read
behind the blocking reads. -/
theorem getReceivedPayload_cases (transport : Transport) (stream : Store)
    (payloadBuf : Buffer mqttBufferSize) (length : UInt32) :
    (∃ n reading, Before transport length.toNat n reading ∧
      2048 < transport.lengthAt length.toNat n ∧ transport.resultAt length.toNat n ≤ 0 ∧
      getReceivedPayload transport stream payloadBuf length =
        (reading.request (transport.lengthAt length.toNat n - 2048),
          if transport.resultAt length.toNat n = 0 then -eio
          else transport.resultAt length.toNat n)) ∨
    ∃ n reading, Before transport length.toNat n reading ∧
      transport.lengthAt length.toNat n ≤ 2048 ∧
      getReceivedPayload transport stream payloadBuf length =
        (readallPayload transport stream reading,
          if transport.readall ≠ 0 then transport.readall
          else if length.toNat ≤ 2048 then 0 else -emsgsize) := by
  have htruncated := truncated_truncatePayload stream (Before.start transport payloadBuf length)
  unfold getReceivedPayload
  generalize truncatePayload transport stream (Reading.start payloadBuf length) = truncated
    at htruncated ⊢
  cases htruncated with
  | failed n reading hbefore hlong hresult =>
    have hne : (if transport.resultAt length.toNat n = 0 then -eio
        else transport.resultAt length.toNat n) ≠ 0 := by
      unfold eio
      split
      · decide
      · assumption
    exact Or.inl ⟨n, reading, hbefore, hlong, hresult, if_pos hne⟩
  | fits n reading hbefore hend =>
    have hlength : ¬ length > sizeofPayloadBuf ↔ length.toNat ≤ 2048 :=
      UInt32.not_lt.trans UInt32.le_iff_toNat_le
    refine Or.inr ⟨n, reading, hbefore, hend, ?_⟩
    by_cases hreadall : transport.readall ≠ 0
    · simp only [ne_eq, not_true_eq_false, if_false, if_pos hreadall]
    · by_cases hlong : length > sizeofPayloadBuf
      · simp only [ne_eq, not_true_eq_false, if_false, if_neg hreadall, if_pos hlong,
          if_neg (mt hlength.mpr (not_not.mpr hlong))]
      · simp only [ne_eq, not_true_eq_false, if_false, if_neg hreadall, if_neg hlong,
          if_pos (hlength.mp hlong)]

/-- A payload that does not fit makes the first blocking read ask for the whole excess. -/
theorem excess_mem_requests (transport : Transport) (stream : Store)
    (payloadBuf : Buffer mqttBufferSize) {length : UInt32} (hlong : 2048 < length.toNat) :
    length.toNat - 2048 ∈ (getReceivedPayload transport stream payloadBuf length).1.requests := by
  rcases getReceivedPayload_cases transport stream payloadBuf length with
    ⟨n, reading, hbefore, _, _, heq⟩ | ⟨n, reading, hbefore, hend, heq⟩
  · have hmem := first_mem_requestsBefore transport length.toNat n
    rw [Transport.requestsBefore_succ, ← hbefore.requests_eq] at hmem
    rw [heq]
    exact hmem
  · cases n with
    | zero => exact absurd hend (not_le.mpr hlong)
    | succ n =>
      rw [heq, requests_readallPayload, mem_request, hbefore.requests_eq]
      exact Or.inl (first_mem_requestsBefore transport length.toNat n)

theorem requests_le_of_le (transport : Transport) (stream : Store)
    (payloadBuf : Buffer mqttBufferSize) {length : UInt32} (hshort : length.toNat ≤ 4096) :
    ∀ requested ∈ (getReceivedPayload transport stream payloadBuf length).1.requests,
      requested ≤ 2048 := by
  intro requested hmem
  rcases getReceivedPayload_cases transport stream payloadBuf length with
    ⟨n, reading, hbefore, _, _, heq⟩ | ⟨n, reading, hbefore, hend, heq⟩
  · rw [heq] at hmem
    cases (mem_request reading _ requested).mp hmem with
    | inl hbehind => exact hbefore.requests_le hshort requested hbehind
    | inr hlast =>
      have hle := transport.lengthAt_le length.toNat n
      omega
  · rw [heq, requests_readallPayload] at hmem
    cases (mem_request reading _ requested).mp hmem with
    | inl hbehind => exact hbefore.requests_le hshort requested hbehind
    | inr hlast =>
      rw [hlast, hbefore.length_eq]
      exact hend

/-- Every request fits the receive buffer exactly if the payload is at most twice as long. -/
theorem requests_fit_iff (transport : Transport) (stream : Store)
    (payloadBuf : Buffer mqttBufferSize) (length : UInt32) :
    (∀ requested ∈ (getReceivedPayload transport stream payloadBuf length).1.requests,
      requested ≤ 2048) ↔ length.toNat ≤ 4096 := by
  constructor
  · intro hfits
    by_contra hlong
    have hfirst := hfits _ (excess_mem_requests transport stream payloadBuf
      (show 2048 < length.toNat by omega))
    omega
  · exact requests_le_of_le transport stream payloadBuf

/-- Every read returns all bytes that it was asked for. -/
def fullReads : Transport := ⟨fun _ requested ↦ requested, fun _ _ ↦ le_rfl, 0, 0⟩

/-- A payload of 6000 bytes makes the first read ask for 3952 bytes. -/
theorem not_requests_fit_6000 :
    ¬ ∀ (transport : Transport) (stream : Store) (payloadBuf : Buffer mqttBufferSize)
      (length : UInt32),
      ∀ requested ∈ (getReceivedPayload transport stream payloadBuf length).1.requests,
        requested ≤ 2048 := by
  intro hall
  have hlong : 2048 < (6000 : UInt32).toNat := by decide
  have hfirst := hall fullReads (fun _ ↦ 0) (Buffer.zero mqttBufferSize) 6000 _
    (excess_mem_requests fullReads (fun _ ↦ 0) (Buffer.zero mqttBufferSize) hlong)
  exact absurd hfirst (by decide)

/-- Each of the payload's blocking reads takes at least one byte. -/
theorem Before.number_le {n : ℕ} {reading : Reading} (h : Before transport announced n reading) :
    n ≤ announced - 2048 := by
  cases n with
  | zero => exact Nat.zero_le _
  | succ n =>
    have hadd := h.succeeds.lengthAt_add_le
    have hfull := Transport.le_lengthAt_succ (h.succeeds n (Nat.lt_succ_self n)).1
    omega

theorem Before.length_requests_request {n : ℕ} {reading : Reading}
    (h : Before transport announced n reading) (length : ℕ) :
    (reading.request length).requests.length = n + 1 := by
  rw [Reading.request, List.length_append, h.count_eq]
  rfl

/-! ## The whole payload -/

/-- The state behind a successful read of the rest. -/
theorem readallPayload_of_ok {reading : Reading} (hreadall : transport.readall = 0)
    (stream : Store) : readallPayload transport stream reading =
      (reading.request reading.length.toNat).take stream reading.length.toNat :=
  if_neg (not_not.mpr hreadall)

/-- The rest of the payload is its end, and it is read to the last byte. -/
theorem Before.readall_spec {n : ℕ} {reading : Reading} (h : Before transport announced n reading)
    (hend : transport.lengthAt announced n ≤ 2048) (hreadall : transport.readall = 0)
    (stream : Store) :
    (readallPayload transport stream reading).position = announced ∧
      (readallPayload transport stream reading).payloadBuf.1.take (min announced 2048) =
        read stream (announced - min announced 2048) (min announced 2048) := by
  have hrest : reading.length.toNat = min announced 2048 :=
    h.length_eq.trans (h.succeeds.lengthAt_eq hend)
  have hadd := h.position_add
  rw [← h.length_eq] at hadd
  rw [readallPayload_of_ok hreadall]
  refine ⟨hadd, ?_⟩
  have hposition : reading.position = announced - min announced 2048 := by omega
  have hstored : ((reading.request reading.length.toNat).take stream
      reading.length.toNat).payloadBuf.1 =
        (read stream reading.position reading.length.toNat).take reading.length.toNat ++
          reading.payloadBuf.1.drop reading.length.toNat := by
    apply Buffer.store_eq
    · rw [read_length]
    · rw [hrest]
      exact Nat.min_le_right ..
  rw [hstored, take_read stream _ le_rfl, ← hposition, ← hrest]
  exact List.take_left' (read_length ..)

/-- Every blocking read that can be made takes at least one byte. -/
def AllSucceed (transport : Transport) (announced : ℕ) : Prop :=
  ∀ n, 2048 < transport.lengthAt announced n → 1 ≤ transport.resultAt announced n

/-- What reading a payload of an announced length comes to. -/
structure Consumes (transport : Transport) (stream : Store) (announced : ℕ)
    (received : Reading × ℤ) : Prop where
  requests_le : received.1.requests.length ≤ announced - 2048 + 1
  position_eq : AllSucceed transport announced → transport.readall = 0 →
    received.1.position = announced
  payloadBuf_eq : AllSucceed transport announced → transport.readall = 0 →
    received.1.payloadBuf.1.take (min announced 2048) =
      read stream (announced - min announced 2048) (min announced 2048)
  result_eq : AllSucceed transport announced → transport.readall = 0 →
    received.2 = if announced ≤ 2048 then 0 else -emsgsize
  stops : ∀ n, (∀ i < n, 1 ≤ transport.resultAt announced i) →
    2048 < transport.lengthAt announced n → transport.resultAt announced n ≤ 0 →
      received.1.requests.length = n + 1 ∧
        received.2 = if transport.resultAt announced n = 0 then -eio
          else transport.resultAt announced n
  readall_fails : AllSucceed transport announced → transport.readall ≠ 0 →
    received.2 = transport.readall

/-- A failing read is the one that the loop ends at. -/
theorem Before.eq_of_fails {n m : ℕ} {reading : Reading} (h : Before transport announced n reading)
    (hend : transport.lengthAt announced n ≤ 2048 ∨ transport.resultAt announced n ≤ 0)
    (hpositive : ∀ i < m, 1 ≤ transport.resultAt announced i)
    (hlong : 2048 < transport.lengthAt announced m) (hfails : transport.resultAt announced m ≤ 0) :
    m = n := by
  have hsucceeds : transport.Succeeds announced m := fun i hi ↦
    ⟨hlong.trans_le (transport.lengthAt_antitone announced hi.le), hpositive i hi⟩
  exact le_antisymm (hsucceeds.le hend) (h.succeeds.le (Or.inr hfails))

theorem Before.consumes_of_fails {n : ℕ} {reading : Reading}
    (h : Before transport announced n reading) (hlong : 2048 < transport.lengthAt announced n)
    (hfails : transport.resultAt announced n ≤ 0) (stream : Store) :
    Consumes transport stream announced
      (reading.request (transport.lengthAt announced n - 2048),
        if transport.resultAt announced n = 0 then -eio
        else transport.resultAt announced n) := by
  have hnot : ¬ AllSucceed transport announced := fun hall ↦
    absurd ((hall n hlong).trans hfails) (by decide)
  have hcount := h.length_requests_request (transport.lengthAt announced n - 2048)
  exact
    { requests_le := by
        rw [hcount]
        exact Nat.succ_le_succ h.number_le
      position_eq := fun hall ↦ absurd hall hnot
      payloadBuf_eq := fun hall ↦ absurd hall hnot
      result_eq := fun hall ↦ absurd hall hnot
      stops := fun m hpositive hmore hfailed ↦ by
        obtain rfl := h.eq_of_fails (Or.inr hfails) hpositive hmore hfailed
        exact ⟨hcount, rfl⟩
      readall_fails := fun hall ↦ absurd hall hnot }

theorem Before.consumes_of_fits {n : ℕ} {reading : Reading}
    (h : Before transport announced n reading) (hend : transport.lengthAt announced n ≤ 2048)
    (stream : Store) :
    Consumes transport stream announced
      (readallPayload transport stream reading,
        if transport.readall ≠ 0 then transport.readall
        else if announced ≤ 2048 then 0 else -emsgsize) where
  requests_le := by
    rw [requests_readallPayload, h.length_requests_request]
    exact Nat.succ_le_succ h.number_le
  position_eq _ hreadall := (h.readall_spec hend hreadall stream).1
  payloadBuf_eq _ hreadall := (h.readall_spec hend hreadall stream).2
  result_eq _ hreadall := if_neg (not_not.mpr hreadall)
  stops m hpositive hmore hfailed := by
    obtain rfl := h.eq_of_fails (Or.inl hend) hpositive hmore hfailed
    exact absurd hend (not_le.mpr hmore)
  readall_fails _ hreadall := if_pos hreadall

/-- A payload whose reads succeed is consumed to its last byte, and its end is in the buffer. The
result tells whether it fits. A blocking read that fails is the last read and gives the result, and
so does the failing read of the rest. -/
theorem getReceivedPayload_consumes (transport : Transport) (stream : Store)
    (payloadBuf : Buffer mqttBufferSize) (length : UInt32) :
    Consumes transport stream length.toNat
      (getReceivedPayload transport stream payloadBuf length) := by
  rcases getReceivedPayload_cases transport stream payloadBuf length with
    ⟨n, reading, hbefore, hlong, hfails, heq⟩ | ⟨n, reading, hbefore, hend, heq⟩
  · rw [heq]
    exact hbefore.consumes_of_fails hlong hfails stream
  · rw [heq]
    exact hbefore.consumes_of_fits hend stream

/-! ## Deliveries -/

/-- The delivery with these results. -/
def delivery (transport : Transport) (stream : Store) (announced : ℕ) : Delivery where
  payload := read stream 0 announced
  blocking := transport.resultAt announced
  readall := transport.readall
  stored := transport.stored

/-- The state of the reads as that of a delivery. -/
def receiving (stream : Store) (reading : Reading) : Receiving where
  payloadBuf := reading.payloadBuf
  remaining := read stream reading.position reading.length.toNat
  requested := reading.requests

end PayloadStream

end NrfExamples.MqttWorking
