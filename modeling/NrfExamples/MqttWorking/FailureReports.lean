import NrfExamples.Library.RetryBudget
import NrfExamples.MqttWorking.ReadErrors
import NrfExamples.MqttWorking.Segment
import Mathlib.Algebra.Order.BigOperators.Group.List

/-!
# Reports of read failures

Behind each publish the sender assigns its fail counter to the CRC field of the packet, and the top
of the next turn overwrites the field with a constant. So a receiver never sees the counter: the
field is right only while there is nothing to report, which is the case if the failed reads of the
packets in front of the last one stay within the hundred retries.
-/

namespace NrfExamples.MqttWorking

open Memory Retry

/-! ## Replaced records -/

/-- The numbers of records replaced by the placeholder, packet by packet. -/
def replacedPackets (env : SendEnv) (total pcktCnt : ℕ) (tx : Transmission) : List ℕ :=
  if pcktCnt ≤ total then
    let replaced :=
      if tx.recorder.ring.circBuffOverflow then 0
      else (givenUpSlots env 0 (withHeader pcktCnt total tx)).card
    if env.publish pcktCnt ≠ 0 then [replaced]
    else replaced :: replacedPackets env total (pcktCnt + 1)
      (reportFailCounter (publishPacket (fillPacket env pcktCnt total tx)))
  else []
termination_by total + 1 - pcktCnt

/-- The number of records replaced in the first `k` packets of a transmission. -/
def replacedIn (env : SendEnv) (recorder : Recorder) (k : ℕ) : ℕ :=
  ((replacedPackets env (totalPacketToSend recorder) 1 ⟨recorder.beginSending, [], []⟩).take k).sum

/-- The packet behind the first `k` ones reports the records replaced in them, if there are any. -/
def FailuresReported (env : SendEnv) (recorder : Recorder) : Prop :=
  ∀ k < totalPacketToSend recorder, 0 < replacedIn env recorder k →
    ∃ packet,
      (sendMeasuredTrainDataWithMultiplePacketsFromFlash env recorder).published[k]? = some packet ∧
        packet.crc = UInt16.ofNat (replacedIn env recorder k)

/-! ## The field on the wire -/

theorem SeedPacket.SameHeader.crc_eq {packet other : SeedPacket} (h : packet.SameHeader other) :
    other.crc = packet.crc := by
  obtain ⟨_, _, _, _, rfl⟩ := h
  rfl

/-- What fills a packet keeps the constant of the header. -/
theorem crc_fillPacket (env : SendEnv) (pcktCnt total : ℕ) (tx : Transmission) :
    (fillPacket env pcktCnt total tx).recorder.seedPacket.crc = 0xABCD ∧
      (fillPacket env pcktCnt total tx).published = tx.published := by
  by_cases hflag : tx.recorder.ring.circBuffOverflow = true
  · have hring : (fillHeader pcktCnt total tx.recorder).ring.circBuffOverflow = true := hflag
    rw [fillPacket, if_pos hring]
    exact ⟨rfl, rfl⟩
  · have hfilled := filled_fillPacket env pcktCnt total tx (Bool.eq_false_iff.mpr hflag)
    exact ⟨hfilled.sameHeader.crc_eq, hfilled.published_eq⟩

/-- Every packet carries the constant, and without failed publishes all packets are published. -/
theorem published_sendPackets (env : SendEnv) (hpublish : ∀ k, env.publish k = 0)
    (total pcktCnt : ℕ) (tx : Transmission) :
    ∃ packets, (sendPackets env total pcktCnt tx).published = tx.published ++ packets ∧
      packets.length = total + 1 - pcktCnt ∧ ∀ packet ∈ packets, packet.crc = 0xABCD := by
  induction pcktCnt, tx using sendPackets.induct env total with
  | case1 pcktCnt tx hle hfailed => exact absurd (hpublish pcktCnt) hfailed
  | case2 pcktCnt tx hle sent hsent ih =>
    obtain ⟨packets, hpackets, hlength, hcrc⟩ := ih
    obtain ⟨hfirst, hkept⟩ := crc_fillPacket env pcktCnt total tx
    refine ⟨(fillPacket env pcktCnt total tx).recorder.seedPacket :: packets, ?_, ?_, ?_⟩
    · rw [sendPackets, if_pos hle]
      simp only [if_neg hsent]
      rw [hpackets]
      simp only [sent, reportFailCounter, publishPacket, hkept, List.append_assoc,
        List.singleton_append]
    · rw [List.length_cons, hlength]
      omega
    · exact List.forall_mem_cons.mpr ⟨hfirst, hcrc⟩
  | case3 pcktCnt tx hlt =>
    rw [sendPackets, if_neg hlt]
    refine ⟨[], (List.append_nil _).symm, ?_, fun _ hmem ↦ absurd hmem List.not_mem_nil⟩
    rw [List.length_nil]
    omega

/-! ## Counting the failures -/

/-- The memory answers by the number of the read, and every publish succeeds. -/
def answering (results : ℕ → List Byte) : SendEnv := ⟨fun n _ ↦ results n, fun _ ↦ 0⟩

/-- The read with this number fails its checksum. -/
def FailedRead (results : ℕ → List Byte) (n : ℕ) : Prop := ¬ crcMatches (results n) = true

instance (results : ℕ → List Byte) : DecidablePred (FailedRead results) :=
  fun n ↦ inferInstanceAs (Decidable (¬ crcMatches (results n) = true))

/-- The counters of the sender behind its reads, and the records it has left behind. -/
structure Counted (results : ℕ → List Byte) (bound base : ℕ) (tx : Transmission) : Prop where
  errors_eq : tx.recorder.crcErrCounter = Nat.count (FailedRead results) tx.reads.length % 101
  failed_eq : tx.recorder.flashSampleFailCounter = givenUp 100 (FailedRead results) tx.reads.length
  passed_eq : passed 100 (FailedRead results) tx.reads.length = base
  before : ∀ n < tx.reads.length, passed 100 (FailedRead results) n < bound

variable {results : ℕ → List Byte} {bound base slot : ℕ} {tx : Transmission}

theorem Counted.errors_le (h : Counted results bound base tx) :
    tx.recorder.crcErrCounter ≤ 100 := by
  rw [h.errors_eq]
  exact Nat.lt_succ_iff.mp (Nat.mod_lt _ (by decide))

theorem Counted.before_succ (h : Counted results bound base tx) (hbase : base < bound) :
    ∀ n < tx.reads.length + 1, passed 100 (FailedRead results) n < bound := by
  intro n hn
  obtain hlt | rfl : n < tx.reads.length ∨ n = tx.reads.length := by omega
  · exact h.before n hlt
  · exact h.passed_eq.trans_lt hbase

/-- A turn that assigns its slot leaves one more record behind. -/
theorem Counted.assigned (h : Counted results bound base tx) (hbase : base < bound)
    {values : Quad ℤ} {errors failed : ℕ}
    (herrors : errors = Nat.count (FailedRead results) (tx.reads.length + 1) % 101)
    (hfailed : failed = givenUp 100 (FailedRead results) (tx.reads.length + 1))
    (hpassed : passed 100 (FailedRead results) (tx.reads.length + 1) = base + 1) :
    Counted results bound (base + 1) (assignTurn slot values errors failed tx) := by
  have hlength : (assignTurn slot values errors failed tx).reads.length = tx.reads.length + 1 :=
    List.length_append
  exact
    { errors_eq := hlength ▸ herrors
      failed_eq := hlength ▸ hfailed
      passed_eq := hlength ▸ hpassed
      before := hlength ▸ h.before_succ hbase }

/-- A read that is repeated adds a failure and gives up nothing. -/
theorem Counted.retried (h : Counted results bound base tx) (hbase : base < bound)
    (hfailed : FailedRead results tx.reads.length)
    (hlt : Nat.count (FailedRead results) tx.reads.length % 101 < 100) :
    Counted results bound base (retryTurn tx) := by
  have hlength : (retryTurn tx).reads.length = tx.reads.length + 1 := List.length_append
  exact
    { errors_eq := by
        rw [hlength, count_succ_of_failed hfailed, retryTurn]
        simp only [Recorder.sending, h.errors_eq]
        omega
      failed_eq := by
        rw [hlength, givenUp_succ_of_lt hfailed hlt]
        exact h.failed_eq
      passed_eq := by
        rw [hlength, passed_succ_of_failed hfailed, givenUp_succ_of_lt hfailed hlt]
        exact h.passed_eq
      before := hlength ▸ h.before_succ hbase }

/-- One turn of the slot loop. -/
theorem Counted.turn (h : Counted results bound base tx) (hbase : base < bound) (slot : ℕ) :
    ((readSlot (answering results) slot tx).1 = slot + 1 ∧
        Counted results bound (base + 1) (readTurn (answering results) slot tx)) ∨
      (readSlot (answering results) slot tx).1 = slot ∧
        Counted results bound base (readTurn (answering results) slot tx) := by
  by_cases hcrc : crcMatches (nextRead (answering results) tx) = true
  · obtain ⟨hnext, hturn⟩ := readTurn_of_valid (answering results) slot hcrc
    have hvalid : ¬ FailedRead results tx.reads.length := not_not.mpr hcrc
    refine Or.inl ⟨hnext, hturn ▸ h.assigned hbase ?_ ?_ ?_⟩
    · rw [count_succ_of_not hvalid, h.errors_eq]
    · rw [givenUp, count_succ_of_not hvalid, h.failed_eq, givenUp]
    · rw [passed_succ_of_not hvalid, h.passed_eq]
  · have hfailed : FailedRead results tx.reads.length := hcrc
    by_cases hlimit : tx.recorder.crcErrCounter + 1 > 100
    · obtain ⟨hnext, hturn⟩ := readTurn_of_givenUp (answering results) slot hcrc hlimit
      have hlast : Nat.count (FailedRead results) tx.reads.length % 101 = 100 := by
        rw [← h.errors_eq]
        have := h.errors_le
        omega
      refine Or.inl ⟨hnext, hturn ▸ h.assigned hbase ?_ ?_ ?_⟩
      · rw [count_succ_of_failed hfailed]
        omega
      · rw [givenUp_succ_of_last hfailed hlast, h.failed_eq]
      · rw [passed_succ_of_failed hfailed, givenUp_succ_of_last hfailed hlast, ← h.passed_eq,
          passed, Nat.add_assoc]
    · obtain ⟨hnext, hturn⟩ := readTurn_of_retried (answering results) slot hcrc hlimit
      have hlt : Nat.count (FailedRead results) tx.reads.length % 101 < 100 := by
        rw [← h.errors_eq]
        omega
      exact Or.inr ⟨hnext, hturn ▸ h.retried hbase hfailed hlt⟩

/-- The slot loop leaves behind the records of its slots. -/
theorem counted_fillFromPsram (hslot : slot ≤ waveSampleLen)
    (h : Counted results (base + waveSampleLen) (base + slot) tx) :
    Counted results (base + waveSampleLen) (base + waveSampleLen)
      (fillFromPsram (answering results) slot tx) := by
  induction slot, tx using fillFromPsram.induct (answering results) with
  | case1 slot tx hlt ih =>
    rw [fillFromPsram, if_pos hlt]
    rcases h.turn (by omega) slot with ⟨hnext, hturn⟩ | ⟨hnext, hturn⟩
    · rw [hnext] at ih ⊢
      exact ih hlt hturn
    · rw [hnext] at ih ⊢
      exact ih hslot hturn
  | case2 slot tx hge =>
    rw [fillFromPsram, if_neg hge]
    exact le_antisymm hslot (not_lt.mp hge) ▸ h

/-- A published packet leaves the counters to the next one. -/
theorem counted_nextPacket (h : Counted results base base tx)
    (hflag : tx.recorder.ring.circBuffOverflow = false) (pcktCnt total : ℕ) :
    let next := reportFailCounter
      (publishPacket (fillPacket (answering results) pcktCnt total tx))
    Counted results (base + waveSampleLen) (base + waveSampleLen) next ∧
      next.recorder.ring.circBuffOverflow = false ∧
      next.recorder.flashSampleFailCounter = tx.recorder.flashSampleFailCounter +
        (givenUpSlots (answering results) 0 (withHeader pcktCnt total tx)).card := by
  have hstart : Counted results (base + waveSampleLen) (base + 0) (withHeader pcktCnt total tx) :=
    { errors_eq := h.errors_eq
      failed_eq := h.failed_eq
      passed_eq := h.passed_eq
      before := fun n hn ↦ (h.before n hn).trans_le (Nat.le_add_right _ _) }
  have hslots := filledSlots_fillFromPsram (answering results) 0 (withHeader pcktCnt total tx)
    (Nat.zero_le _) hstart.errors_le
  obtain ⟨packet, address, errors, failed, hsame⟩ :=
    (filled_fillFromPsram (answering results) 0 (withHeader pcktCnt total tx)
      (Nat.zero_le _)).same
  have hfilled := counted_fillFromPsram (Nat.zero_le _) hstart
  rw [fillPacket_of_flag_clear (answering results) pcktCnt total hflag]
  refine ⟨⟨hfilled.errors_eq, hfilled.failed_eq, hfilled.passed_eq, hfilled.before⟩, ?_,
    hslots.failCounter_eq⟩
  simp only [reportFailCounter, publishPacket, hsame]
  exact hflag

/-- The records replaced in some packets from the PSRAM are those given up among its reads. -/
theorem sum_replacedPackets (k total pcktCnt : ℕ) (hk : k ≤ total + 1 - pcktCnt)
    (h : Counted results base base tx) (hflag : tx.recorder.ring.circBuffOverflow = false) :
    ∃ n, passed 100 (FailedRead results) n = base + waveSampleLen * k ∧
      (∀ m < n, passed 100 (FailedRead results) m < base + waveSampleLen * k) ∧
      tx.recorder.flashSampleFailCounter +
        ((replacedPackets (answering results) total pcktCnt tx).take k).sum =
          givenUp 100 (FailedRead results) n := by
  induction k generalizing pcktCnt base tx with
  | zero => exact ⟨tx.reads.length, h.passed_eq, h.before, h.failed_eq⟩
  | succ k ih =>
    obtain ⟨hnext, hkept, hcount⟩ := counted_nextPacket h hflag pcktCnt total
    obtain ⟨n, hpassed, hbefore, hsum⟩ := ih (pcktCnt + 1) (by omega) hnext hkept
    have hbase : base + waveSampleLen + waveSampleLen * k = base + waveSampleLen * (k + 1) := by
      rw [Nat.mul_succ]
      omega
    refine ⟨n, hbase ▸ hpassed, hbase ▸ hbefore, ?_⟩
    have hpublish : ¬ (answering results).publish pcktCnt ≠ 0 := not_not.mpr rfl
    have hclear : ¬ tx.recorder.ring.circBuffOverflow = true := ne_true_of_eq_false hflag
    rw [replacedPackets, if_pos (by omega), if_neg hpublish]
    simp only [if_neg hclear, List.take_succ_cons, List.sum_cons]
    rw [← Nat.add_assoc, ← hcount, hsum]

/-! ## The first report -/

theorem card_givenUpSlots_le (env : SendEnv) {tx : Transmission}
    (hcounter : tx.recorder.crcErrCounter ≤ 100) :
    (givenUpSlots env 0 tx).card ≤ waveSampleLen := by
  have hslots := filledSlots_fillFromPsram env 0 tx (Nat.zero_le _) hcounter
  have hsubset : givenUpSlots env 0 tx ⊆ Finset.range waveSampleLen :=
    fun j hj ↦ Finset.mem_range.mpr (hslots.givenUp_range j hj).2
  exact (Finset.card_le_card hsubset).trans_eq (Finset.card_range waveSampleLen)

/-- The first positive sum of bounded numbers is within the bound. -/
theorem exists_first_positive {bound : ℕ} {counts : List ℕ}
    (hbound : ∀ count ∈ counts, count ≤ bound) {k : ℕ} (hpositive : 0 < (counts.take k).sum) :
    ∃ j ≤ k, 0 < (counts.take j).sum ∧ (counts.take j).sum ≤ bound := by
  induction counts generalizing k with
  | nil => simp at hpositive
  | cons count counts ih =>
    rw [List.forall_mem_cons] at hbound
    cases k with
    | zero => exact absurd hpositive (lt_irrefl 0)
    | succ k =>
      by_cases hzero : count = 0
      · rw [List.take_succ_cons, List.sum_cons, hzero, Nat.zero_add] at hpositive
        obtain ⟨j, hj, hsum⟩ := ih hbound.2 hpositive
        refine ⟨j + 1, Nat.succ_le_succ hj, ?_⟩
        rwa [List.take_succ_cons, List.sum_cons, hzero, Nat.zero_add]
      · refine ⟨1, Nat.succ_le_succ (Nat.zero_le k), ?_⟩
        rw [List.take_succ_cons, List.take_zero, List.sum_singleton]
        exact ⟨Nat.pos_of_ne_zero hzero, hbound.1⟩

theorem replacedPackets_le {total pcktCnt : ℕ} (h : Counted results base base tx)
    (hflag : tx.recorder.ring.circBuffOverflow = false) :
    ∀ count ∈ replacedPackets (answering results) total pcktCnt tx, count ≤ waveSampleLen := by
  induction hleft : total + 1 - pcktCnt generalizing pcktCnt base tx with
  | zero =>
    rw [replacedPackets, if_neg (by omega)]
    exact fun _ hmem ↦ absurd hmem List.not_mem_nil
  | succ left ih =>
    have hpublish : ¬ (answering results).publish pcktCnt ≠ 0 := not_not.mpr rfl
    have hclear : ¬ tx.recorder.ring.circBuffOverflow = true := ne_true_of_eq_false hflag
    obtain ⟨hnext, hkept, _⟩ := counted_nextPacket h hflag pcktCnt total
    rw [replacedPackets, if_pos (by omega), if_neg hpublish]
    simp only [if_neg hclear]
    have hcounter : (withHeader pcktCnt total tx).recorder.crcErrCounter ≤ 100 := h.errors_le
    exact List.forall_mem_cons.mpr
      ⟨card_givenUpSlots_le (answering results) hcounter, ih hnext hkept (by omega)⟩

/-! ## Transmissions -/

/-- The number of packets that are read from the PSRAM among the first `k`. -/
def psramPackets (recorder : Recorder) (k : ℕ) : ℕ :=
  if recorder.ring.circBuffOverflow then k - 1 else k

theorem counted_zero {recorder : Recorder} (published : List SeedPacket)
    (herrors : recorder.crcErrCounter = 0) (hfailed : recorder.flashSampleFailCounter = 0) :
    Counted results 0 0 ⟨recorder, [], published⟩ where
  errors_eq := herrors.trans (by rw [List.length_nil, Nat.count_zero])
  failed_eq := hfailed.trans (by rw [List.length_nil, givenUp, Nat.count_zero])
  passed_eq := by rw [List.length_nil, passed, givenUp, Nat.count_zero]
  before n hn := absurd hn (Nat.not_lt_zero n)

/-- The ring packet replaces nothing. -/
theorem replacedPackets_pending {recorder : Recorder} {total : ℕ}
    (hflag : recorder.ring.circBuffOverflow = true) (htotal : 1 ≤ total) :
    replacedPackets (answering results) total 1 ⟨recorder, [], []⟩ =
      0 :: replacedPackets (answering results) total 2
        (reportFailCounter (afterRingPacket total recorder)) := by
  have hpublish : ¬ (answering results).publish 1 ≠ 0 := not_not.mpr rfl
  have hring : (fillHeader 1 total recorder).ring.circBuffOverflow = true := hflag
  have hfill : fillPacket (answering results) 1 total ⟨recorder, [], []⟩ =
      ⟨fillFromRing (fillHeader 1 total recorder), [], []⟩ := by
    simp only [fillPacket, hring, if_true]
  rw [replacedPackets, if_pos htotal, if_neg hpublish, hfill]
  simp only [if_pos hflag]
  rfl

/-- The records replaced in front of a packet are those given up in the reads up to it, and the
numbers of single packets are bounded. -/
theorem replacedIn_spec (results : ℕ → List Byte) {recorder : Recorder} {k : ℕ}
    (hk : k < totalPacketToSend recorder) :
    (∃ n, passed 100 (FailedRead results) n = waveSampleLen * psramPackets recorder k ∧
      (∀ m < n, passed 100 (FailedRead results) m < waveSampleLen * psramPackets recorder k) ∧
      replacedIn (answering results) recorder k = givenUp 100 (FailedRead results) n) ∧
    ∀ count ∈ replacedPackets (answering results) (totalPacketToSend recorder) 1
      ⟨recorder.beginSending, [], []⟩, count ≤ waveSampleLen := by
  unfold replacedIn psramPackets
  by_cases hflag : recorder.ring.circBuffOverflow = true
  · have hcounted : Counted results 0 0 (reportFailCounter
        (afterRingPacket (totalPacketToSend recorder) recorder.beginSending)) :=
      counted_zero _ rfl rfl
    have hbegin : recorder.beginSending.ring.circBuffOverflow = true := hflag
    rw [if_pos hflag, replacedPackets_pending hbegin (by omega)]
    constructor
    · cases k with
      | zero => exact ⟨0, hcounted.passed_eq, hcounted.before, hcounted.failed_eq⟩
      | succ k =>
        obtain ⟨n, hpassed, hbefore, hsum⟩ :=
          sum_replacedPackets k (totalPacketToSend recorder) 2 (by omega) hcounted rfl
        rw [Nat.zero_add] at hpassed
        simp only [Nat.zero_add] at hbefore
        refine ⟨n, hpassed, hbefore, ?_⟩
        rw [List.take_succ_cons, List.sum_cons, ← hsum]
        rfl
    · exact List.forall_mem_cons.mpr ⟨Nat.zero_le _, replacedPackets_le hcounted rfl⟩
  · have hcounted : Counted results 0 0 ⟨recorder.beginSending, [], []⟩ := counted_zero _ rfl rfl
    have hclear : recorder.beginSending.ring.circBuffOverflow = false := Bool.eq_false_iff.mpr hflag
    obtain ⟨n, hpassed, hbefore, hsum⟩ :=
      sum_replacedPackets k (totalPacketToSend recorder) 1 (by omega) hcounted hclear
    rw [Nat.zero_add] at hpassed
    simp only [Nat.zero_add] at hbefore
    rw [if_neg hflag]
    refine ⟨⟨n, hpassed, hbefore, ?_⟩, replacedPackets_le hcounted hclear⟩
    rw [← hsum]
    exact (Nat.zero_add _).symm

theorem replacedIn_mono (env : SendEnv) (recorder : Recorder) {j k : ℕ} (h : j ≤ k) :
    replacedIn env recorder j ≤ replacedIn env recorder k :=
  (List.take_sublist_take_left h).sum_le_sum fun _ _ ↦ Nat.zero_le _

/-- A positive number of replaced records comes with a first one, which the constant is not. -/
theorem not_reported (results : ℕ → List Byte) {recorder : Recorder} {k : ℕ}
    (hk : k < totalPacketToSend recorder)
    (hpositive : 0 < replacedIn (answering results) recorder k) :
    ¬ FailuresReported (answering results) recorder := by
  intro hreported
  obtain ⟨j, hj, hfirst, hsmall⟩ := exists_first_positive (replacedIn_spec results hk).2 hpositive
  obtain ⟨packet, hpacket, hcrc⟩ := hreported j (by omega) hfirst
  obtain ⟨packets, hpublished, _, hconstant⟩ := published_sendPackets (answering results)
    (fun _ ↦ rfl) (totalPacketToSend recorder) 1 ⟨recorder.beginSending, [], []⟩
  have hmem : packet ∈ packets := by
    have hsent := List.mem_of_getElem? hpacket
    rwa [sendMeasuredTrainDataWithMultiplePacketsFromFlash, hpublished] at hsent
  have hnat : (0xABCD : UInt16).toNat = replacedIn (answering results) recorder j % 65536 := by
    rw [← hconstant packet hmem, hcrc]
    rfl
  have hbound : replacedIn (answering results) recorder j ≤ 1024 := hsmall
  have hvalue : (0xABCD : UInt16).toNat = 43981 := rfl
  omega

/-- Nothing is replaced in front of a packet exactly if the first reads fail at most a hundred
times, as many reads as the records in front of the packet and a hundred retries take. -/
theorem replacedIn_eq_zero_iff (results : ℕ → List Byte) {recorder : Recorder} {k : ℕ}
    (hk : k < totalPacketToSend recorder) :
    replacedIn (answering results) recorder k = 0 ↔
      Nat.count (FailedRead results) (1024 * psramPackets recorder k + 100) ≤ 100 := by
  obtain ⟨n, hpassed, hbefore, hreplaced⟩ := (replacedIn_spec results hk).1
  rw [hreplaced]
  exact givenUp_eq_zero_iff hpassed hbefore

/-- The CRC fields report the replaced records exactly if nothing is replaced in front of the last
packet: if the reads of these packets fail at most a hundred times. -/
theorem failuresReported_iff (results : ℕ → List Byte) (recorder : Recorder) :
    FailuresReported (answering results) recorder ↔
      Nat.count (FailedRead results)
        (1024 * psramPackets recorder (totalPacketToSend recorder - 1) + 100) ≤ 100 := by
  by_cases htotal : totalPacketToSend recorder = 0
  · have hfew : psramPackets recorder (totalPacketToSend recorder - 1) = 0 := by
      rw [psramPackets, htotal]
      split <;> rfl
    rw [hfew]
    exact iff_of_true (fun k hk ↦ absurd hk (by omega)) (Nat.count_le _)
  · have hlast : totalPacketToSend recorder - 1 < totalPacketToSend recorder := by omega
    rw [← replacedIn_eq_zero_iff results hlast]
    constructor
    · intro hreported
      by_contra hpositive
      exact not_reported results hlast (Nat.pos_of_ne_zero hpositive) hreported
    · intro hzero k hk hpositive
      have hle := replacedIn_mono (answering results) recorder
        (show k ≤ totalPacketToSend recorder - 1 by omega)
      exact absurd hpositive (by omega)

/-! ## A recording whose reads all fail -/

/-- The recorder behind a trigger frame and 1024 recorded frames of a steady signal. -/
def packetRecorder : Recorder :=
  ((Measurement.start (Recorder.boot fun _ ↦ 0)).run ⟨0, 11, 1023, 0⟩ 0
    ([steadyFrame 0] ++ (List.range' 1 1024).map steadyFrame)).recorder

/-- With every read failing, the third packet of three does not report the 1024 records that were
replaced in the second one. -/
theorem not_failuresReported_zeros :
    processFrames (fun _ ↦ -10) FrontEnd.boot (List.replicate 1025 fun _ ↦ 0) =
        [steadyFrame 0] ++ (List.range' 1 1024).map steadyFrame ∧
      Measurement.Completes ⟨0, 11, 1023, 0⟩ 0 (Recorder.boot fun _ ↦ 0) [steadyFrame 0]
        ((List.range' 1 1024).map steadyFrame) ∧
      ¬ FailuresReported (answering fun _ ↦ List.replicate 10 0) packetRecorder := by
  have hframes : processFrames (fun _ ↦ -10) FrontEnd.boot (List.replicate 1025 fun _ ↦ 0) =
      [steadyFrame 0] ++ (List.range' 1 1024).map steadyFrame := by
    rw [processFrames_steady, List.range_eq_range', List.range'_succ, List.map_cons]
    rfl
  have hcompletes := Measurement.completes_steadyFrame 1023 (by decide) (Recorder.boot fun _ ↦ 0)
  refine ⟨hframes, hcompletes, ?_⟩
  have hrecorded : Recorded packetRecorder _ _ := hcompletes.finishedAfter.recorded
  have htotal : totalPacketToSend packetRecorder = 3 := by
    rw [totalPacketToSend_eq hrecorded hcompletes.finishedAfter.length_le, List.length_map,
      List.length_range']
    rfl
  have hfailed : ∀ n, FailedRead (fun _ ↦ List.replicate 10 0) n := by
    intro n
    have hzeros : crcMatches (List.replicate 10 0) = false := by decide +kernel
    exact ne_true_of_eq_false hzeros
  have hlast : 2 < totalPacketToSend packetRecorder := htotal.symm ▸ Nat.lt_succ_self 2
  apply not_reported _ hlast (Nat.pos_of_ne_zero fun hzero ↦ ?_)
  have hfew := (replacedIn_eq_zero_iff _ hlast).mp hzero
  rw [psramPackets, if_pos hrecorded.overflow,
    Nat.count_iff_forall.mpr fun n _ ↦ hfailed n] at hfew
  exact absurd hfew (by decide)

end NrfExamples.MqttWorking
