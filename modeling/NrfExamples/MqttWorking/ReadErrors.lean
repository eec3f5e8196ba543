import NrfExamples.MqttWorking.Transmission
import Mathlib.Data.Finset.Card

/-!
# Read errors do not shift the data

Whatever the memory returns, and whatever the error counter has kept of earlier packets, filling a
packet from the PSRAM ends after at most 101 reads for each slot and moves the address by 1024
records. `FilledSlots` separates the slots that were given up from those that carry a record, and
ties the record of a slot to a read at the address of that slot.
-/

namespace NrfExamples.MqttWorking

/-! ## One turn -/

/-- A turn that assigns the slot: a read is made, and the loop steps to the next record. -/
def assignTurn (slot : ℕ) (values : Quad ℤ) (errors failed : ℕ) (tx : Transmission) :
    Transmission where
  recorder := tx.recorder.sending (tx.recorder.seedPacket.setSlot slot values)
    (tx.recorder.flashAddressRead + 10) errors failed
  reads := tx.reads ++ [tx.recorder.flashAddressRead]
  published := tx.published

/-- A turn that only counts an error. -/
def retryTurn (tx : Transmission) : Transmission where
  recorder := tx.recorder.sending tx.recorder.seedPacket tx.recorder.flashAddressRead
    (tx.recorder.crcErrCounter + 1) tx.recorder.flashSampleFailCounter
  reads := tx.reads ++ [tx.recorder.flashAddressRead]
  published := tx.published

section Turn

variable (env : SendEnv) (slot : ℕ) {tx : Transmission}

theorem readTurn_of_valid (hcrc : crcMatches (nextRead env tx) = true) :
    (readSlot env slot tx).1 = slot + 1 ∧ readTurn env slot tx =
      assignTurn slot (decodeRecord (nextRead env tx)) tx.recorder.crcErrCounter
        tx.recorder.flashSampleFailCounter tx := by
  simp only [readTurn, readSlot, if_pos hcrc]
  exact ⟨trivial, rfl⟩

theorem readTurn_of_givenUp (hcrc : ¬ crcMatches (nextRead env tx) = true)
    (hlimit : tx.recorder.crcErrCounter + 1 > 100) :
    (readSlot env slot tx).1 = slot + 1 ∧ readTurn env slot tx =
      assignTurn slot placeholder 0 (tx.recorder.flashSampleFailCounter + 1) tx := by
  simp only [readTurn, readSlot, if_neg hcrc, if_pos hlimit]
  exact ⟨trivial, rfl⟩

theorem readTurn_of_retried (hcrc : ¬ crcMatches (nextRead env tx) = true)
    (hlimit : ¬ tx.recorder.crcErrCounter + 1 > 100) :
    (readSlot env slot tx).1 = slot ∧ readTurn env slot tx = retryTurn tx := by
  simp only [readTurn, readSlot, if_neg hcrc, if_neg hlimit]
  exact ⟨trivial, rfl⟩

end Turn

/-! ## The slots of a packet -/

/-- The values decode a record that passed its checksum when the read with some number, from
`first` on, was made at the address. -/
def RecordRead (env : SendEnv) (reads : List ℕ) (first address : ℕ) (values : Quad ℤ) : Prop :=
  ∃ n, first ≤ n ∧ reads[n]? = some address ∧ crcMatches (env.read n address) = true ∧
    values = decodeRecord (env.read n address)

/-- The effect of the slot loop from a slot on, with the slots it gave up. -/
structure FilledSlots (env : SendEnv) (slot : ℕ) (tx filled : Transmission)
    (givenUp : Finset ℕ) : Prop where
  reads_begin : tx.reads <+: filled.reads
  reads_le : filled.reads.length ≤
    tx.reads.length + (101 * (waveSampleLen - slot) - tx.recorder.crcErrCounter)
  address_eq : filled.recorder.flashAddressRead =
    tx.recorder.flashAddressRead + 10 * (waveSampleLen - slot)
  crcErrCounter_le : filled.recorder.crcErrCounter ≤ 100
  failCounter_eq : filled.recorder.flashSampleFailCounter =
    tx.recorder.flashSampleFailCounter + givenUp.card
  givenUp_range : ∀ j ∈ givenUp, slot ≤ j ∧ j < waveSampleLen
  kept : ∀ j < slot, filled.recorder.seedPacket.slot j = tx.recorder.seedPacket.slot j
  placeholders : ∀ j ∈ givenUp, filled.recorder.seedPacket.slot j = placeholder
  records : ∀ j, slot ≤ j → j < waveSampleLen → j ∉ givenUp →
    RecordRead env filled.reads tx.reads.length
      (tx.recorder.flashAddressRead + 10 * (j - slot)) (filled.recorder.seedPacket.slot j)

theorem FilledSlots.done {env : SendEnv} {slot : ℕ} {tx : Transmission}
    (hslot : slot = waveSampleLen) (hcounter : tx.recorder.crcErrCounter ≤ 100) :
    FilledSlots env slot tx tx ∅ where
  reads_begin := List.prefix_rfl
  reads_le := Nat.le_add_right ..
  address_eq := by rw [hslot, Nat.sub_self, Nat.mul_zero, Nat.add_zero]
  crcErrCounter_le := hcounter
  failCounter_eq := rfl
  givenUp_range j hj := absurd hj (Finset.notMem_empty j)
  kept _ _ := rfl
  placeholders j hj := absurd hj (Finset.notMem_empty j)
  records j hj hlt _ := by omega

/-- The slots behind one that was assigned. -/
theorem FilledSlots.assigned {env : SendEnv} {slot errors failed : ℕ} {tx filled : Transmission}
    {values : Quad ℤ} {givenUp : Finset ℕ}
    (h : FilledSlots env (slot + 1) (assignTurn slot values errors failed tx) filled givenUp)
    (hslot : slot < waveSampleLen) :
    tx.reads ++ [tx.recorder.flashAddressRead] <+: filled.reads ∧
      filled.recorder.seedPacket.slot slot = values ∧ slot ∉ givenUp := by
  refine ⟨h.reads_begin, ?_, fun hmem ↦ ?_⟩
  · rw [h.kept slot (Nat.lt_succ_self slot)]
    exact SeedPacket.slot_setSlot_self _ hslot values
  · have := (h.givenUp_range slot hmem).1
    omega

/-- A turn that assigns its slot, followed by the rest of the loop. The slot joins the slots that
were given up, or its values come from the read of this turn. -/
theorem FilledSlots.of_assigned {env : SendEnv} {slot errors failed : ℕ} {tx filled : Transmission}
    {values : Quad ℤ} {rest givenUp : Finset ℕ} (hslot : slot < waveSampleLen)
    (h : FilledSlots env (slot + 1) (assignTurn slot values errors failed tx) filled rest)
    (hreads : 1 + (101 * (waveSampleLen - (slot + 1)) - errors) ≤
      101 * (waveSampleLen - slot) - tx.recorder.crcErrCounter)
    (hfailed : failed + rest.card = tx.recorder.flashSampleFailCounter + givenUp.card)
    (hmem : ∀ j, j ≠ slot → (j ∈ givenUp ↔ j ∈ rest))
    (hplaceholder : slot ∈ givenUp → values = placeholder)
    (hrecord : slot ∉ givenUp → crcMatches (nextRead env tx) = true ∧
      values = decodeRecord (nextRead env tx)) : FilledSlots env slot tx filled givenUp := by
  obtain ⟨hbegin, hvalues, _⟩ := h.assigned hslot
  have hread : filled.reads[tx.reads.length]? = some tx.recorder.flashAddressRead := by
    obtain ⟨later, hlater⟩ := hbegin
    rw [← hlater]
    simp
  exact
    { reads_begin := (List.prefix_append _ _).trans hbegin
      reads_le := by
        have hle := h.reads_le
        simp only [assignTurn, Recorder.sending, List.length_append, List.length_singleton] at hle
        omega
      address_eq := by
        rw [h.address_eq]
        simp only [assignTurn, Recorder.sending]
        omega
      crcErrCounter_le := h.crcErrCounter_le
      failCounter_eq := h.failCounter_eq.trans hfailed
      givenUp_range := fun j hj ↦ by
        by_cases hself : j = slot
        · exact ⟨hself.ge, hself ▸ hslot⟩
        · have := h.givenUp_range j ((hmem j hself).mp hj)
          omega
      kept := fun j hj ↦ by
        rw [h.kept j (Nat.lt_succ_of_lt hj)]
        exact SeedPacket.slot_setSlot_ne _ (by omega) values
      placeholders := fun j hj ↦ by
        by_cases hself : j = slot
        · rw [hself, hvalues]
          exact hplaceholder (hself ▸ hj)
        · exact h.placeholders j ((hmem j hself).mp hj)
      records := fun j hj hlt hnot ↦ by
        by_cases hself : j = slot
        · obtain ⟨hcrc, hdecoded⟩ := hrecord (hself ▸ hnot)
          rw [hself, Nat.sub_self, Nat.mul_zero, Nat.add_zero, hvalues]
          exact ⟨tx.reads.length, le_rfl, hread, hcrc, hdecoded⟩
        · have hbehind := h.records j (by omega) hlt (mt (hmem j hself).mpr hnot)
          have haddress : tx.recorder.flashAddressRead + 10 + 10 * (j - (slot + 1)) =
              tx.recorder.flashAddressRead + 10 * (j - slot) := by omega
          obtain ⟨n, hfirst, hn, hcrc, hdecoded⟩ := hbehind
          simp only [assignTurn, Recorder.sending, haddress, List.length_append]
            at hfirst hn hcrc hdecoded
          exact ⟨n, Nat.le_of_succ_le hfirst, hn, hcrc, hdecoded⟩ }

/-- A turn that only counts an error, followed by the rest of the loop. -/
theorem FilledSlots.of_retried {env : SendEnv} {slot : ℕ} {tx filled : Transmission}
    {givenUp : Finset ℕ} (hslot : slot < waveSampleLen)
    (h : FilledSlots env slot (retryTurn tx) filled givenUp)
    (hlimit : tx.recorder.crcErrCounter < 100) : FilledSlots env slot tx filled givenUp where
  reads_begin := (List.prefix_append _ _).trans h.reads_begin
  reads_le := by
    have hle := h.reads_le
    simp only [retryTurn, Recorder.sending, List.length_append, List.length_singleton] at hle
    omega
  address_eq := h.address_eq
  crcErrCounter_le := h.crcErrCounter_le
  failCounter_eq := h.failCounter_eq
  givenUp_range := h.givenUp_range
  kept := h.kept
  placeholders := h.placeholders
  records j hj hlt hnot := by
    obtain ⟨n, hfirst, hread⟩ := h.records j hj hlt hnot
    simp only [retryTurn, List.length_append] at hfirst
    exact ⟨n, Nat.le_of_succ_le hfirst, hread⟩

/-- The slots that the loop gives up, from a slot on. -/
def givenUpSlots (env : SendEnv) (slot : ℕ) (tx : Transmission) : Finset ℕ :=
  if slot < waveSampleLen then
    let rest := givenUpSlots env (readSlot env slot tx).1 (readTurn env slot tx)
    if ¬ crcMatches (nextRead env tx) ∧ tx.recorder.crcErrCounter + 1 > 100 then insert slot rest
    else rest
  else ∅
termination_by slotMeasure slot tx.recorder
decreasing_by exact slotMeasure_readSlot env tx (by assumption)

/-- The slot loop, for every behaviour of the memory. -/
theorem filledSlots_fillFromPsram (env : SendEnv) (slot : ℕ) (tx : Transmission)
    (hslot : slot ≤ waveSampleLen) (hcounter : tx.recorder.crcErrCounter ≤ 100) :
    FilledSlots env slot tx (fillFromPsram env slot tx) (givenUpSlots env slot tx) := by
  induction slot, tx using fillFromPsram.induct env with
  | case1 slot tx hlt ih =>
    rw [fillFromPsram, if_pos hlt, givenUpSlots, if_pos hlt]
    by_cases hcrc : crcMatches (nextRead env tx) = true
    · obtain ⟨hnext, hturn⟩ := readTurn_of_valid env slot hcrc
      rw [hnext, hturn] at ih ⊢
      have h := ih hlt hcounter
      rw [if_neg fun hgivenUp ↦ hgivenUp.1 hcrc]
      refine h.of_assigned hlt (by omega) rfl (fun _ _ ↦ Iff.rfl) (fun hmem ↦ ?_)
        fun _ ↦ ⟨hcrc, rfl⟩
      exact absurd hmem (h.assigned hlt).2.2
    · by_cases hlimit : tx.recorder.crcErrCounter + 1 > 100
      · obtain ⟨hnext, hturn⟩ := readTurn_of_givenUp env slot hcrc hlimit
        rw [hnext, hturn] at ih ⊢
        have h := ih hlt (Nat.zero_le 100)
        have hnew := (h.assigned hlt).2.2
        rw [if_pos ⟨hcrc, hlimit⟩]
        refine h.of_assigned hlt (by omega) ?_ (fun j hj ↦ ?_) (fun _ ↦ rfl)
          fun hnot ↦ absurd (Finset.mem_insert_self slot _) hnot
        · rw [Finset.card_insert_of_notMem hnew]
          omega
        · exact ⟨fun hmem ↦ (Finset.mem_insert.mp hmem).resolve_left hj,
            Finset.mem_insert_of_mem⟩
      · obtain ⟨hnext, hturn⟩ := readTurn_of_retried env slot hcrc hlimit
        rw [hnext, hturn] at ih ⊢
        have h := ih hslot (by simp only [retryTurn, Recorder.sending]; omega)
        rw [if_neg fun hgivenUp ↦ hlimit hgivenUp.2]
        exact h.of_retried hlt (by omega)
  | case2 slot tx hge =>
    rw [fillFromPsram, if_neg hge, givenUpSlots, if_neg hge]
    exact FilledSlots.done (le_antisymm hslot (not_lt.mp hge)) hcounter

/-! ## Every slot is written -/

/-- The transmission with other contents in the packet it fills. -/
def Transmission.withPacket (tx : Transmission) (packet : SeedPacket) : Transmission :=
  { tx with recorder := { tx.recorder with seedPacket := packet } }

/-- The slots of two packets agree below a bound once the bound's own slot is assigned. -/
theorem SeedPacket.slot_setSlot_congr {packet other : SeedPacket} {slot : ℕ}
    (h : ∀ j < slot, packet.slot j = other.slot j) (hslot : slot < waveSampleLen)
    (values : Quad ℤ) :
    ∀ j < slot + 1, (packet.setSlot slot values).slot j = (other.setSlot slot values).slot j := by
  intro j hj
  obtain hlt | rfl : j < slot ∨ j = slot := by omega
  · rw [packet.slot_setSlot_ne (by omega), other.slot_setSlot_ne (by omega), h j hlt]
  · rw [packet.slot_setSlot_self hslot, other.slot_setSlot_self hslot]

/-- What the slots hold in the end does not depend on what they held before. -/
theorem slot_fillFromPsram_withPacket (env : SendEnv) (slot : ℕ) (tx : Transmission)
    (packet : SeedPacket) (h : ∀ j < slot, packet.slot j = tx.recorder.seedPacket.slot j) :
    ∀ j < waveSampleLen,
      (fillFromPsram env slot (tx.withPacket packet)).recorder.seedPacket.slot j =
        (fillFromPsram env slot tx).recorder.seedPacket.slot j := by
  induction slot, tx using fillFromPsram.induct env generalizing packet with
  | case1 slot tx hlt ih =>
    rw [fillFromPsram, if_pos hlt, fillFromPsram.eq_1 env slot tx, if_pos hlt]
    by_cases hcrc : crcMatches (nextRead env tx) = true
    · have hcrc' : crcMatches (nextRead env (tx.withPacket packet)) = true := hcrc
      obtain ⟨hnext, hturn⟩ := readTurn_of_valid env slot hcrc
      obtain ⟨hnext', hturn'⟩ := readTurn_of_valid env slot hcrc'
      rw [hnext, hturn] at ih ⊢
      rw [hnext', hturn']
      exact ih _ (SeedPacket.slot_setSlot_congr h hlt _)
    · have hcrc' : ¬ crcMatches (nextRead env (tx.withPacket packet)) = true := hcrc
      by_cases hlimit : tx.recorder.crcErrCounter + 1 > 100
      · obtain ⟨hnext, hturn⟩ := readTurn_of_givenUp env slot hcrc hlimit
        obtain ⟨hnext', hturn'⟩ := readTurn_of_givenUp env slot hcrc' hlimit
        rw [hnext, hturn] at ih ⊢
        rw [hnext', hturn']
        exact ih _ (SeedPacket.slot_setSlot_congr h hlt placeholder)
      · obtain ⟨hnext, hturn⟩ := readTurn_of_retried env slot hcrc hlimit
        obtain ⟨hnext', hturn'⟩ := readTurn_of_retried env slot hcrc' hlimit
        rw [hnext, hturn] at ih ⊢
        rw [hnext', hturn']
        exact ih packet h
  | case2 slot tx hge =>
    intro j hj
    rw [fillFromPsram, if_neg hge, fillFromPsram, if_neg hge]
    exact h j (hj.trans_le (not_lt.mp hge))

/-! ## The packets of a transmission -/

/-- The state in which the loop fills its next packet. -/
def withHeader (pcktCnt total : ℕ) (tx : Transmission) : Transmission :=
  { tx with recorder := fillHeader pcktCnt total tx.recorder }

/-- The states in which the packet loop, from a packet on, begins to fill one from the PSRAM. -/
def psramEntries (env : SendEnv) (total pcktCnt : ℕ) (tx : Transmission) : List Transmission :=
  if pcktCnt ≤ total then
    let rest :=
      if env.publish pcktCnt ≠ 0 then []
      else psramEntries env total (pcktCnt + 1)
        (reportFailCounter (publishPacket (fillPacket env pcktCnt total tx)))
    if (withHeader pcktCnt total tx).recorder.ring.circBuffOverflow then rest
    else withHeader pcktCnt total tx :: rest
  else []
termination_by total + 1 - pcktCnt

/-- The packets that are filled in the given states, one after the other, are published. -/
structure PsramEntries (env : SendEnv) (address : ℕ) (published : List SeedPacket)
    (result : Transmission) (entries : List Transmission) : Prop where
  published_eq : result.published =
    published ++ entries.map fun entry ↦ (fillFromPsram env 0 entry).recorder.seedPacket
  entry_eq : ∀ p, ∀ h : p < entries.length,
    entries[p].recorder.flashAddressRead = address + 10 * (waveSampleLen * p) ∧
      entries[p].recorder.crcErrCounter ≤ 100

theorem PsramEntries.nil {env : SendEnv} {address : ℕ} {published : List SeedPacket}
    {result : Transmission} (h : result.published = published) :
    PsramEntries env address published result [] where
  published_eq := h.trans (List.append_nil _).symm
  entry_eq p hp := absurd hp (Nat.not_lt_zero p)

theorem fillPacket_of_flag_clear (env : SendEnv) (pcktCnt total : ℕ) {tx : Transmission}
    (hflag : tx.recorder.ring.circBuffOverflow = false) :
    fillPacket env pcktCnt total tx = fillFromPsram env 0 (withHeader pcktCnt total tx) := by
  have hring : ¬ (fillHeader pcktCnt total tx.recorder).ring.circBuffOverflow = true :=
    ne_true_of_eq_false hflag
  rw [fillPacket, if_neg hring]
  rfl

/-- A published packet is followed by the entries of the rest of the loop. -/
theorem PsramEntries.cons {env : SendEnv} {entry result : Transmission}
    {entries : List Transmission} (hcounter : entry.recorder.crcErrCounter ≤ 100)
    (h : PsramEntries env (entry.recorder.flashAddressRead + 10 * waveSampleLen)
      (publishPacket (fillFromPsram env 0 entry)).published result entries) :
    PsramEntries env entry.recorder.flashAddressRead entry.published result
      (entry :: entries) where
  published_eq := by
    rw [h.published_eq, publishPacket,
      (filled_fillFromPsram env 0 entry (Nat.zero_le _)).published_eq, List.map_cons,
      List.append_assoc, List.singleton_append]
  entry_eq p hp := by
    cases p with
    | zero => exact ⟨rfl, hcounter⟩
    | succ p =>
      obtain ⟨haddress, hle⟩ := h.entry_eq p (Nat.lt_of_succ_lt_succ hp)
      refine ⟨?_, hle⟩
      rw [List.getElem_cons_succ, haddress, Nat.mul_succ]
      omega

theorem psramEntries_sendPackets (env : SendEnv) (total pcktCnt : ℕ) (tx : Transmission)
    (hflag : tx.recorder.ring.circBuffOverflow = false)
    (hcounter : tx.recorder.crcErrCounter ≤ 100) :
    PsramEntries env tx.recorder.flashAddressRead tx.published
      (sendPackets env total pcktCnt tx) (psramEntries env total pcktCnt tx) := by
  have hring : ¬ (withHeader pcktCnt total tx).recorder.ring.circBuffOverflow = true :=
    ne_true_of_eq_false hflag
  have hentry : (withHeader pcktCnt total tx).recorder.crcErrCounter ≤ 100 := hcounter
  have hfill := fillPacket_of_flag_clear env pcktCnt total hflag
  induction pcktCnt, tx using sendPackets.induct env total with
  | case1 pcktCnt tx hle hpublish =>
    rw [sendPackets, if_pos hle, psramEntries, if_pos hle]
    simp only [if_pos hpublish, if_neg hring, hfill]
    exact PsramEntries.cons hentry (PsramEntries.nil rfl)
  | case2 pcktCnt tx hle sent hpublish ih =>
    have hsent : sent = publishPacket (fillFromPsram env 0 (withHeader pcktCnt total tx)) := by
      simp only [sent, hfill]
    have hfilled := filled_fillFromPsram env 0 (withHeader pcktCnt total tx) (Nat.zero_le _)
    have hslots := filledSlots_fillFromPsram env 0 (withHeader pcktCnt total tx)
      (Nat.zero_le _) hentry
    obtain ⟨packet, address, errors, failed, heq⟩ := hfilled.same
    have hkept : (reportFailCounter sent).recorder.ring.circBuffOverflow = false := by
      simp only [reportFailCounter, hsent, publishPacket, heq]
      exact hflag
    have hbelow : (reportFailCounter sent).recorder.crcErrCounter ≤ 100 := by
      rw [hsent]
      exact hslots.crcErrCounter_le
    have haddress : (reportFailCounter sent).recorder.flashAddressRead =
        (withHeader pcktCnt total tx).recorder.flashAddressRead + 10 * waveSampleLen := by
      rw [hsent]
      exact hslots.address_eq
    have hrest := ih hkept hbelow (ne_true_of_eq_false hkept) hbelow
      (fillPacket_of_flag_clear env (pcktCnt + 1) total hkept)
    rw [haddress] at hrest
    rw [sendPackets, if_pos hle, psramEntries, if_pos hle]
    simp only [if_neg hpublish, if_neg hring, hfill]
    exact PsramEntries.cons hentry (hsent ▸ hrest)
  | case3 pcktCnt tx hlt =>
    rw [sendPackets, if_neg hlt, psramEntries, if_neg hlt]
    exact PsramEntries.nil rfl

/-- In a whole transmission the PSRAM packets begin at consecutive multiples of 1024 records, with
an error counter that has not passed its limit. -/
theorem psramEntries_transmission (env : SendEnv) (recorder : Recorder) :
    ∃ first, (first.length ≤ 1 ∧ (recorder.ring.circBuffOverflow = false → first = [])) ∧
      PsramEntries env 0 first
        (sendMeasuredTrainDataWithMultiplePacketsFromFlash env recorder)
        (psramEntries env (totalPacketToSend recorder) 1 ⟨recorder.beginSending, [], []⟩) := by
  unfold sendMeasuredTrainDataWithMultiplePacketsFromFlash
  cases hflag : recorder.ring.circBuffOverflow with
  | true =>
    have hpending : recorder.beginSending.ring.circBuffOverflow = true := hflag
    by_cases htotal : 1 ≤ totalPacketToSend recorder
    · have hring : (withHeader 1 (totalPacketToSend recorder)
          ⟨recorder.beginSending, [], []⟩).recorder.ring.circBuffOverflow = true := hflag
      refine ⟨(afterRingPacket (totalPacketToSend recorder) recorder.beginSending).published,
        ⟨le_rfl, Bool.noConfusion⟩, ?_⟩
      rw [sendPackets_pending env _ hpending htotal, psramEntries, if_pos htotal]
      simp only [if_pos hring, fillPacket_pending env _ hpending]
      by_cases hpublish : env.publish 1 ≠ 0
      · rw [if_pos hpublish, if_pos hpublish]
        exact PsramEntries.nil rfl
      · rw [if_neg hpublish, if_neg hpublish]
        exact psramEntries_sendPackets env (totalPacketToSend recorder) 2
          (reportFailCounter (afterRingPacket (totalPacketToSend recorder) recorder.beginSending))
          rfl (Nat.zero_le 100)
    · rw [sendPackets, if_neg htotal, psramEntries, if_neg htotal]
      exact ⟨[], ⟨Nat.zero_le 1, fun _ ↦ rfl⟩, PsramEntries.nil rfl⟩
  | false =>
    have hclear : recorder.beginSending.ring.circBuffOverflow = false := hflag
    exact ⟨[], ⟨Nat.zero_le 1, fun _ ↦ rfl⟩, psramEntries_sendPackets env
      (totalPacketToSend recorder) 1 ⟨recorder.beginSending, [], []⟩ hclear (Nat.zero_le 100)⟩

/-- Filling a packet ends within its reads, moves the address by one packet, keeps the counter
below its limit, and writes every slot: with the record read at the address of the slot, or with the
placeholder that the fail counter counts. The PSRAM packets of a transmission are filled so one
after the other, the one with number `p` from address `10 * (1024 * p)` on. -/
theorem fillFromPsram_keeps_alignment (env : SendEnv) (tx : Transmission) (recorder : Recorder)
    (hcounter : tx.recorder.crcErrCounter ≤ 100) :
    (∃ givenUp : Finset ℕ,
      let filled := fillFromPsram env 0 tx
      filled.reads.length ≤ tx.reads.length + 1024 * 101 ∧
      filled.recorder.flashAddressRead = tx.recorder.flashAddressRead + 10240 ∧
      filled.recorder.crcErrCounter ≤ 100 ∧
      (∀ packet, ∀ j < 1024,
        (fillFromPsram env 0 (tx.withPacket packet)).recorder.seedPacket.slot j =
          filled.recorder.seedPacket.slot j) ∧
      (∀ j < 1024, j ∈ givenUp ∧ filled.recorder.seedPacket.slot j = placeholder ∨
        j ∉ givenUp ∧ RecordRead env filled.reads tx.reads.length
          (tx.recorder.flashAddressRead + 10 * j) (filled.recorder.seedPacket.slot j)) ∧
      (∀ j ∈ givenUp, j < 1024) ∧
      filled.recorder.flashSampleFailCounter =
        tx.recorder.flashSampleFailCounter + givenUp.card) ∧
    let entries := psramEntries env (totalPacketToSend recorder) 1 ⟨recorder.beginSending, [], []⟩
    (∃ first : List SeedPacket,
      (first.length ≤ 1 ∧ (recorder.ring.circBuffOverflow = false → first = [])) ∧
      (sendMeasuredTrainDataWithMultiplePacketsFromFlash env recorder).published =
        first ++ entries.map (fun entry ↦ (fillFromPsram env 0 entry).recorder.seedPacket)) ∧
      ∀ p, ∀ h : p < entries.length, entries[p].recorder.flashAddressRead = 10 * (1024 * p) ∧
        entries[p].recorder.crcErrCounter ≤ 100 := by
  constructor
  · have h := filledSlots_fillFromPsram env 0 tx (Nat.zero_le _) hcounter
    refine ⟨givenUpSlots env 0 tx, ?_, h.address_eq, h.crcErrCounter_le, fun packet ↦ ?_,
      fun j hj ↦ ?_, fun j hj ↦ (h.givenUp_range j hj).2, h.failCounter_eq⟩
    · have hreads := h.reads_le
      simp only [waveSampleLen] at hreads
      omega
    · exact slot_fillFromPsram_withPacket env 0 tx packet fun j hj ↦ absurd hj (Nat.not_lt_zero j)
    · by_cases hmem : j ∈ givenUpSlots env 0 tx
      · exact Or.inl ⟨hmem, h.placeholders j hmem⟩
      · exact Or.inr ⟨hmem, h.records j (Nat.zero_le j) hj hmem⟩
  · obtain ⟨first, hfirst, h⟩ := psramEntries_transmission env recorder
    refine ⟨⟨first, hfirst, h.published_eq⟩, fun p hp ↦ ?_⟩
    obtain ⟨haddress, hle⟩ := h.entry_eq p hp
    exact ⟨haddress.trans (Nat.zero_add _), hle⟩

/-- Every read returns zeros, which fail the checksum. -/
def zerosEnv : SendEnv := ⟨fun _ _ ↦ List.replicate 10 0, fun _ ↦ 0⟩

theorem not_recordRead_zeros (reads : List ℕ) (first address : ℕ) (values : Quad ℤ) :
    ¬ RecordRead zerosEnv reads first address values := by
  rintro ⟨n, _, _, hcrc, _⟩
  have hzeros : crcMatches (List.replicate 10 0) = false := by decide +kernel
  exact absurd (hzeros.symm.trans hcrc) Bool.false_ne_true

/-- All 1024 slots are given up, within their reads and at their addresses. -/
theorem fillFromPsram_keeps_alignment_zeros :
    (∃ filled, filled = fillFromPsram zerosEnv 0 ⟨Recorder.boot fun _ ↦ 0, [], []⟩ ∧
      filled.reads.length ≤ 1024 * 101 ∧ filled.recorder.flashAddressRead = 10240 ∧
      (∀ j < 1024, filled.recorder.seedPacket.slot j = placeholder) ∧
      filled.recorder.flashSampleFailCounter = 1024) ∧
    ∃ entries, entries = psramEntries zerosEnv (totalPacketToSend Measurement.shortRecording) 1
        ⟨Measurement.shortRecording.beginSending, [], []⟩ ∧
      ∀ p, ∀ h : p < entries.length, entries[p].recorder.flashAddressRead = 10 * (1024 * p) ∧
        entries[p].recorder.crcErrCounter ≤ 100 := by
  obtain ⟨⟨givenUp, hreads, haddress, _, _, hslots, hrange, hfailed⟩, _, hentries⟩ :=
    fillFromPsram_keeps_alignment zerosEnv ⟨Recorder.boot fun _ ↦ 0, [], []⟩
      Measurement.shortRecording (Nat.zero_le 100)
  have hgivenUp (j : ℕ) (hj : j < 1024) := (hslots j hj).resolve_right fun hread ↦
    not_recordRead_zeros _ _ _ _ hread.2
  have hall : givenUp = Finset.range 1024 := by
    ext j
    rw [Finset.mem_range]
    exact ⟨hrange j, fun hj ↦ (hgivenUp j hj).1⟩
  rw [hall, Finset.card_range] at hfailed
  exact ⟨⟨_, rfl, hreads.trans (Nat.zero_add _).le, haddress.trans (Nat.zero_add _),
    fun j hj ↦ (hgivenUp j hj).2, hfailed.trans (Nat.zero_add _)⟩, _, rfl, hentries⟩

end NrfExamples.MqttWorking
