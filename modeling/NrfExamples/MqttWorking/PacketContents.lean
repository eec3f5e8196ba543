import NrfExamples.MqttWorking.Sender

/-!
# What the sender puts into a packet

Whatever the memory returns, filling a packet from the PSRAM reads each of its 1024 addresses and
no other one, leaves the address at the next packet, and writes every slot: with a record that
passed its checksum when read at the address of the slot, or with the placeholder. The packet loop
then publishes consecutive packet numbers up to the first failed publish.
-/

namespace NrfExamples.MqttWorking

open Memory

/-! ## Frame conditions -/

/-- The two packets differ at most in their arrays. -/
def SeedPacket.SameHeader (packet other : SeedPacket) : Prop :=
  ∃ chan0Vlt chan0Int chan1Vlt chan1Int, other =
    { packet with
      chan0Vlt := chan0Vlt
      chan0Int := chan0Int
      chan1Vlt := chan1Vlt
      chan1Int := chan1Int }

theorem SeedPacket.SameHeader.actualPacketNr_eq {packet other : SeedPacket}
    (h : packet.SameHeader other) : other.actualPacketNr = packet.actualPacketNr := by
  obtain ⟨_, _, _, _, rfl⟩ := h
  rfl

theorem SeedPacket.SameHeader.totalPacketNr_eq {packet other : SeedPacket}
    (h : packet.SameHeader other) : other.totalPacketNr = packet.totalPacketNr := by
  obtain ⟨_, _, _, _, rfl⟩ := h
  rfl

/-- One slot of the four arrays. -/
def SeedPacket.slot (packet : SeedPacket) (slot : ℕ) : Quad ℤ := fun channel ↦
  (packet.array channel).1.getD slot 0

/-- The recorder with other values in the variables that belong to the transmission alone. -/
def Recorder.sending (recorder : Recorder) (packet : SeedPacket) (address errors failed : ℕ) :
    Recorder :=
  { recorder with
    seedPacket := packet
    flashAddressRead := address
    crcErrCounter := errors
    flashSampleFailCounter := failed }

/-- The two recorders differ at most in the variables of the transmission. -/
def Recorder.SameRecording (recorder other : Recorder) : Prop :=
  ∃ packet address errors failed, other = recorder.sending packet address errors failed

theorem Recorder.SameRecording.refl (recorder : Recorder) : recorder.SameRecording recorder :=
  ⟨recorder.seedPacket, recorder.flashAddressRead, recorder.crcErrCounter,
    recorder.flashSampleFailCounter, rfl⟩

theorem Recorder.SameRecording.trans {first second third : Recorder}
    (h : first.SameRecording second) (h' : second.SameRecording third) :
    first.SameRecording third := by
  obtain ⟨packet, address, errors, failed, rfl⟩ := h
  obtain ⟨packet', address', errors', failed', rfl⟩ := h'
  exact ⟨packet', address', errors', failed', rfl⟩

theorem SeedPacket.slot_setSlot_self (packet : SeedPacket) {slot : ℕ}
    (hslot : slot < waveSampleLen) (values : Quad ℤ) :
    (packet.setSlot slot values).slot slot = values := by
  funext channel
  have hlength : slot < (packet.array channel).1.length := (packet.array channel).2.symm ▸ hslot
  simp [SeedPacket.slot, Wave.set, List.getD_eq_getElem?_getD, hlength]

theorem SeedPacket.slot_setSlot_ne (packet : SeedPacket) {slot other : ℕ} (h : slot ≠ other)
    (values : Quad ℤ) : (packet.setSlot slot values).slot other = packet.slot other := by
  funext channel
  simp [SeedPacket.slot, Wave.set, List.getD_eq_getElem?_getD, List.getElem?_set_ne h]

/-! ## One slot -/

/-- The values come from a record that passed its checksum when read at the address, or stand for
a record that failed it there. -/
def SlotFrom (env : SendEnv) (address : ℕ) (values : Quad ℤ) : Prop :=
  (∃ n, crcMatches (env.read n address) = true ∧ values = decodeRecord (env.read n address)) ∨
    values = placeholder ∧ ∃ n, crcMatches (env.read n address) = false

/-- A record that always reads back valid is what its slot carries. -/
theorem SlotFrom.eq_of_stable {env : SendEnv} {address : ℕ} {values : Quad ℤ}
    (h : SlotFrom env address values) {bytes : List Byte} (hread : ∀ n, env.read n address = bytes)
    (hcrc : crcMatches bytes = true) : values = decodeRecord bytes := by
  rcases h with ⟨n, _, hvalues⟩ | ⟨_, n, hfailed⟩
  · rw [hvalues, hread n]
  · rw [hread n, hcrc] at hfailed
    cases hfailed

/-- A turn of the slot loop fills the slot, or only counts an error. -/
theorem readSlot_cases (env : SendEnv) (slot : ℕ) (tx : Transmission) :
    (∃ values errors failed, SlotFrom env tx.recorder.flashAddressRead values ∧
      readSlot env slot tx = (slot + 1, tx.recorder.sending
        (tx.recorder.seedPacket.setSlot slot values) (tx.recorder.flashAddressRead + 10)
        errors failed)) ∨
    readSlot env slot tx = (slot, tx.recorder.sending tx.recorder.seedPacket
      tx.recorder.flashAddressRead (tx.recorder.crcErrCounter + 1)
      tx.recorder.flashSampleFailCounter) := by
  by_cases hcrc : crcMatches (nextRead env tx)
  · refine Or.inl ⟨decodeRecord (nextRead env tx), tx.recorder.crcErrCounter,
      tx.recorder.flashSampleFailCounter, Or.inl ⟨_, hcrc, rfl⟩, ?_⟩
    simp only [readSlot, if_pos hcrc]
    rfl
  · by_cases hlimit : tx.recorder.crcErrCounter + 1 > 100
    · refine Or.inl ⟨placeholder, 0, tx.recorder.flashSampleFailCounter + 1,
        Or.inr ⟨rfl, _, Bool.eq_false_iff.mpr hcrc⟩, ?_⟩
      simp only [readSlot, if_neg hcrc, if_pos hlimit]
      rfl
    · refine Or.inr ?_
      simp only [readSlot, if_neg hcrc, if_neg hlimit]
      rfl

/-! ## One packet -/

/-- The effect of the slot loop from a slot on. -/
structure Filled (env : SendEnv) (slot : ℕ) (tx filled : Transmission) : Prop where
  same : tx.recorder.SameRecording filled.recorder
  sameHeader : tx.recorder.seedPacket.SameHeader filled.recorder.seedPacket
  published_eq : filled.published = tx.published
  address_eq : filled.recorder.flashAddressRead =
    tx.recorder.flashAddressRead + 10 * (waveSampleLen - slot)
  mem_reads : ∀ address, address ∈ filled.reads ↔ address ∈ tx.reads ∨
    ∃ j, slot + j < waveSampleLen ∧ address = tx.recorder.flashAddressRead + 10 * j
  kept : ∀ j < slot, filled.recorder.seedPacket.slot j = tx.recorder.seedPacket.slot j
  slots : ∀ j, slot + j < waveSampleLen → SlotFrom env (tx.recorder.flashAddressRead + 10 * j)
    (filled.recorder.seedPacket.slot (slot + j))

/-- A turn that fills its slot, followed by the rest of the loop. -/
theorem Filled.of_filled {env : SendEnv} {slot : ℕ} {tx filled : Transmission} {values : Quad ℤ}
    {errors failed : ℕ} (hslot : slot < waveSampleLen)
    (hvalues : SlotFrom env tx.recorder.flashAddressRead values)
    (h : Filled env (slot + 1)
      { tx with
        reads := tx.reads ++ [tx.recorder.flashAddressRead]
        recorder := tx.recorder.sending (tx.recorder.seedPacket.setSlot slot values)
          (tx.recorder.flashAddressRead + 10) errors failed } filled) :
    Filled env slot tx filled where
  same := Recorder.SameRecording.trans ⟨_, _, _, _, rfl⟩ h.same
  sameHeader := h.sameHeader
  published_eq := h.published_eq
  address_eq := by
    rw [h.address_eq]
    simp only [Recorder.sending]
    omega
  mem_reads address := by
    rw [h.mem_reads]
    simp only [Recorder.sending, List.mem_append, List.mem_singleton, or_assoc]
    apply or_congr_right
    constructor
    · rintro (rfl | ⟨j, hj, rfl⟩)
      · exact ⟨0, hslot, rfl⟩
      · exact ⟨j + 1, by omega, by omega⟩
    · rintro ⟨j, hj, rfl⟩
      cases j with
      | zero => exact Or.inl rfl
      | succ j => exact Or.inr ⟨j, by omega, by omega⟩
  kept j hj := by
    rw [h.kept j (Nat.lt_succ_of_lt hj)]
    exact SeedPacket.slot_setSlot_ne _ (by omega) values
  slots j hj := by
    cases j with
    | zero =>
      have hkept := h.kept slot (Nat.lt_succ_self slot)
      simp only [Nat.add_zero, Nat.mul_zero, hkept, Recorder.sending,
        SeedPacket.slot_setSlot_self _ hslot]
      exact hvalues
    | succ j =>
      have hrest := h.slots j (by omega)
      have haddress : tx.recorder.flashAddressRead + 10 + 10 * j =
          tx.recorder.flashAddressRead + 10 * (j + 1) := by omega
      have hindex : slot + 1 + j = slot + (j + 1) := by omega
      simp only [Recorder.sending, haddress, hindex] at hrest
      exact hrest

/-- A turn that only counts an error, followed by the rest of the loop. -/
theorem Filled.of_retried {env : SendEnv} {slot : ℕ} {tx filled : Transmission} {errors failed : ℕ}
    (hslot : slot < waveSampleLen)
    (h : Filled env slot
      { tx with
        reads := tx.reads ++ [tx.recorder.flashAddressRead]
        recorder := tx.recorder.sending tx.recorder.seedPacket tx.recorder.flashAddressRead
          errors failed } filled) :
    Filled env slot tx filled where
  same := Recorder.SameRecording.trans ⟨_, _, _, _, rfl⟩ h.same
  sameHeader := h.sameHeader
  published_eq := h.published_eq
  address_eq := h.address_eq
  mem_reads address := by
    rw [h.mem_reads]
    simp only [Recorder.sending, List.mem_append, List.mem_singleton, or_assoc]
    apply or_congr_right
    constructor
    · rintro (rfl | hread)
      · exact ⟨0, hslot, rfl⟩
      · exact hread
    · exact Or.inr
  kept := h.kept
  slots := h.slots

/-- The slot loop fills every slot from its own address, for every behaviour of the memory. -/
theorem filled_fillFromPsram (env : SendEnv) (slot : ℕ) (tx : Transmission)
    (hslot : slot ≤ waveSampleLen) :
    Filled env slot tx (fillFromPsram env slot tx) := by
  -- Along the recursion of the loop: a retried slot stays the same slot with a smaller measure.
  induction slot, tx using fillFromPsram.induct env with
  | case1 slot tx hlt ih =>
    rw [fillFromPsram, if_pos hlt]
    rcases readSlot_cases env slot tx with ⟨values, errors, failed, hvalues, heq⟩ | heq
    · simp only [readTurn, heq] at ih ⊢
      exact (ih hlt).of_filled hlt hvalues
    · simp only [readTurn, heq] at ih ⊢
      exact (ih hslot).of_retried hlt
  | case2 slot tx hge =>
    have hend : slot = waveSampleLen := le_antisymm hslot (not_lt.mp hge)
    rw [fillFromPsram, if_neg hge]
    exact
      { same := Recorder.SameRecording.refl _
        sameHeader := ⟨_, _, _, _, rfl⟩
        published_eq := rfl
        address_eq := by rw [hend, Nat.sub_self, Nat.mul_zero, Nat.add_zero]
        mem_reads := fun address ↦ by
          refine ⟨Or.inl, ?_⟩
          rintro (hread | ⟨j, hj, _⟩)
          · exact hread
          · omega
        kept := fun _ _ ↦ rfl
        slots := fun j hj ↦ by omega }

end NrfExamples.MqttWorking
