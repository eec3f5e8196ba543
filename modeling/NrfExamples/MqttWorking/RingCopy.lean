import NrfExamples.MqttWorking.Transmission

/-!
# The two linearisations of the ring

Behind the recording loop, `main` copies the ring element by element into its result arrays, oldest
value first. The loop goes back to index zero in a turn of its own when it stands at the end of the
ring. The sender linearises the same ring with block copies for its first packet. `Copied` is the
invariant of the loop; at its end both have produced the rotation of each ring array by the head.
-/

namespace NrfExamples.MqttWorking

/-! ## The loop -/

def resVarLen : ℕ := 5000

/-- A result array with its declared length. -/
def ResultArray := { samples : List ℤ // samples.length = resVarLen }

def ResultArray.set (array : ResultArray) (index : ℕ) (value : ℤ) : ResultArray :=
  ⟨array.1.set index value, List.length_set.trans array.2⟩

structure ResultArrays where
  ch0Volt : ResultArray
  ch0Int : ResultArray
  ch1Volt : ResultArray
  ch1Int : ResultArray

/-- The result array that takes a channel of the ring. -/
def ResultArrays.array (results : ResultArrays) : Quad ResultArray
  | 0 => results.ch0Volt
  | 1 => results.ch0Int
  | 2 => results.ch1Volt
  | 3 => results.ch1Int

/-- What a turn of the loop did: the ring index it read and the result index it wrote, or the step
back to index zero. -/
inductive CopyTurn where
  | copied (source target : ℕ)
  | wrapped
deriving DecidableEq

/-- The result arrays, the counters of the loop and the turns so far. -/
structure RingCopy where
  results : ResultArrays
  locCircBufCntr : ℕ
  mcnt : ℕ
  turns : List CopyTurn

namespace RingCopy

/-- One turn. -/
def turn (ring : CircBuffer) (state : RingCopy) : RingCopy :=
  let source := state.locCircBufCntr
  let results := state.results
  if source < crclrBuffSize then
    { results :=
        { ch0Volt := results.ch0Volt.set state.mcnt (ring.circBuffCh0.getD source 0)
          ch0Int := results.ch0Int.set state.mcnt (ring.circBuffCh1.getD source 0)
          ch1Volt := results.ch1Volt.set state.mcnt (ring.circBuffCh2.getD source 0)
          ch1Int := results.ch1Int.set state.mcnt (ring.circBuffCh3.getD source 0) }
      locCircBufCntr := source + 1
      mcnt := state.mcnt + 1
      turns := state.turns ++ [.copied source state.mcnt] }
  else { state with locCircBufCntr := 0, turns := state.turns ++ [.wrapped] }

/-- What is left to do: two turns for each missing element, and one at the end of the ring. -/
def rank (samples : ℕ) (state : RingCopy) : ℕ :=
  2 * (samples - state.mcnt) + if state.locCircBufCntr < crclrBuffSize then 0 else 1

theorem rank_turn (ring : CircBuffer) {samples : ℕ} {state : RingCopy}
    (h : state.mcnt < samples) : rank samples (state.turn ring) < rank samples state := by
  unfold turn rank
  by_cases hsource : state.locCircBufCntr < crclrBuffSize
  · simp only [if_pos hsource]
    split
    · omega
    · omega
  · have hzero : 0 < crclrBuffSize := Nat.succ_pos 1023
    simp only [if_neg hsource, if_pos hzero]
    omega

/-- The loop over `samples_to_store_from_circ_buff` elements. -/
def loop (ring : CircBuffer) (samples : ℕ) (state : RingCopy) : RingCopy :=
  if state.mcnt < samples then loop ring samples (state.turn ring) else state
termination_by rank samples state
decreasing_by exact rank_turn ring (by assumption)

end RingCopy

/-- The copy of `main`, with the two assignments in front of the loop. -/
def copyRingToResults (ring : CircBuffer) (lastCircBuffRecord : ℕ) (results : ResultArrays) :
    RingCopy :=
  if ring.circBuffOverflow then
    RingCopy.loop ring crclrBuffSize ⟨results, lastCircBuffRecord, 0, []⟩
  else RingCopy.loop ring lastCircBuffRecord ⟨results, 0, 0, []⟩

/-! ## The invariant -/

namespace RingCopy

@[simp]
theorem array_turn_of_lt (ring : CircBuffer) {state : RingCopy}
    (h : state.locCircBufCntr < crclrBuffSize) (channel : Channel) :
    (state.turn ring).results.array channel = (state.results.array channel).set state.mcnt
      ((ring.array channel).getD state.locCircBufCntr 0) := by
  rw [turn, if_pos h]
  match channel with
  | 0 | 1 | 2 | 3 => rfl

/-- The loop, started at a head, has copied the elements in front of `mcnt`: either it still reads
behind the head, or it went back to index zero once. -/
structure Copied (ring : CircBuffer) (head : ℕ) (state : RingCopy) : Prop where
  mcnt_le : state.mcnt ≤ crclrBuffSize
  position :
    (state.turns.count .wrapped = 0 ∧ state.locCircBufCntr = head + state.mcnt ∧
      state.locCircBufCntr ≤ crclrBuffSize) ∨
    (state.turns.count .wrapped = 1 ∧ state.locCircBufCntr + crclrBuffSize = head + state.mcnt)
  length_turns : state.turns.length = state.mcnt + state.turns.count .wrapped
  inside : ∀ source target, .copied source target ∈ state.turns →
    source < crclrBuffSize ∧ target < crclrBuffSize
  values : ∀ channel, ∀ index < state.mcnt, (state.results.array channel).1.getD index 0 =
    (ring.array channel).getD ((head + index) % crclrBuffSize) 0

theorem copied_start (ring : CircBuffer) (results : ResultArrays) {head : ℕ}
    (hhead : head ≤ crclrBuffSize) : Copied ring head ⟨results, head, 0, []⟩ where
  mcnt_le := Nat.zero_le _
  position := Or.inl ⟨rfl, rfl, hhead⟩
  length_turns := rfl
  inside _ _ hmem := absurd hmem List.not_mem_nil
  values _ _ hindex := absurd hindex (Nat.not_lt_zero _)

/-- A turn that reads one element. -/
theorem Copied.turn_of_lt {ring : CircBuffer} {head : ℕ} {state : RingCopy}
    (h : Copied ring head state) (hmcnt : state.mcnt < crclrBuffSize)
    (hsource : state.locCircBufCntr < crclrBuffSize) : Copied ring head (state.turn ring) := by
  have hmod : (head + state.mcnt) % crclrBuffSize = state.locCircBufCntr := by
    obtain ⟨_, hloc, _⟩ | ⟨_, hloc⟩ := h.position
    · rw [← hloc, Nat.mod_eq_of_lt hsource]
    · rw [← hloc, Nat.add_mod_right, Nat.mod_eq_of_lt hsource]
  have hturn : (state.turn ring).locCircBufCntr = state.locCircBufCntr + 1 ∧
      (state.turn ring).mcnt = state.mcnt + 1 ∧
      (state.turn ring).turns = state.turns ++ [.copied state.locCircBufCntr state.mcnt] := by
    rw [turn, if_pos hsource]
    exact ⟨rfl, rfl, rfl⟩
  obtain ⟨hloc, hnext, hturns⟩ := hturn
  have hcount : (state.turn ring).turns.count .wrapped = state.turns.count .wrapped := by
    rw [hturns, List.count_append]
    rfl
  exact
    { mcnt_le := hnext ▸ hmcnt
      position := by
        rw [hcount, hloc, hnext]
        apply h.position.imp
        · rintro ⟨hnone, hstart, _⟩
          exact ⟨hnone, by omega, hsource⟩
        · rintro ⟨hone, hstart⟩
          exact ⟨hone, by omega⟩
      length_turns := by
        rw [hcount, hnext, hturns, List.length_append, h.length_turns, List.length_singleton]
        omega
      inside := fun source target hmem ↦ by
        rw [hturns] at hmem
        obtain hold | hnew := List.mem_append.mp hmem
        · exact h.inside source target hold
        · cases List.mem_singleton.mp hnew
          exact ⟨hsource, hmcnt⟩
      values := fun channel index hindex ↦ by
        have hlength : state.mcnt < (state.results.array channel).1.length := by
          rw [(state.results.array channel).2]
          exact hmcnt.trans (by decide)
        rw [array_turn_of_lt ring hsource]
        unfold ResultArray.set
        rw [hnext] at hindex
        obtain hlt | rfl : index < state.mcnt ∨ index = state.mcnt := by omega
        · rw [← h.values channel index hlt, List.getD_eq_getElem?_getD,
            List.getElem?_set_ne (by omega), ← List.getD_eq_getElem?_getD]
        · rw [hmod, List.getD_eq_getElem?_getD, List.getElem?_set_self hlength,
            Option.getD_some] }

/-- The turn at the end of the ring; there is none once the loop has gone back. -/
theorem Copied.turn_of_end {ring : CircBuffer} {head : ℕ} {state : RingCopy}
    (h : Copied ring head state) (hhead : head ≤ crclrBuffSize) (hmcnt : state.mcnt < crclrBuffSize)
    (hsource : ¬ state.locCircBufCntr < crclrBuffSize) : Copied ring head (state.turn ring) := by
  have hturn : state.turn ring =
      { state with locCircBufCntr := 0, turns := state.turns ++ [.wrapped] } := by
    rw [turn, if_neg hsource]
  have hfirst : state.turns.count .wrapped = 0 ∧ head + state.mcnt = crclrBuffSize := by
    obtain ⟨hnone, hloc, hle⟩ | ⟨_, hloc⟩ := h.position
    · exact ⟨hnone, by omega⟩
    · omega
  have hcount : (state.turn ring).turns.count .wrapped = 1 := by
    rw [hturn, List.count_append, hfirst.1]
    rfl
  exact
    { mcnt_le := by
        rw [hturn]
        exact h.mcnt_le
      position := by
        refine Or.inr ⟨hcount, ?_⟩
        rw [hturn, hfirst.2]
        exact Nat.zero_add _
      length_turns := by
        rw [hcount, hturn, List.length_append, h.length_turns, hfirst.1]
        rfl
      inside := fun source target hmem ↦ by
        rw [hturn] at hmem
        obtain hold | hnew := List.mem_append.mp hmem
        · exact h.inside source target hold
        · cases List.mem_singleton.mp hnew
      values := by
        rw [hturn]
        exact h.values }

theorem Copied.turn {ring : CircBuffer} {head : ℕ} {state : RingCopy} (h : Copied ring head state)
    (hhead : head ≤ crclrBuffSize) (hmcnt : state.mcnt < crclrBuffSize) :
    Copied ring head (state.turn ring) := by
  by_cases hsource : state.locCircBufCntr < crclrBuffSize
  · exact h.turn_of_lt hmcnt hsource
  · exact h.turn_of_end hhead hmcnt hsource

theorem Copied.loop {ring : CircBuffer} {head : ℕ} {state : RingCopy} (h : Copied ring head state)
    (hhead : head ≤ crclrBuffSize) :
    Copied ring head (RingCopy.loop ring crclrBuffSize state) ∧
      (RingCopy.loop ring crclrBuffSize state).mcnt = crclrBuffSize := by
  fun_induction RingCopy.loop ring crclrBuffSize state with
  | case1 state hmcnt ih => exact ih (h.turn hhead hmcnt)
  | case2 state hmcnt => exact ⟨h, le_antisymm h.mcnt_le (not_lt.mp hmcnt)⟩

/-- A finished loop has rotated each ring array by the head. -/
theorem Copied.take_eq_rotate {ring : CircBuffer} {head : ℕ} {state : RingCopy}
    (h : Copied ring head state) (hmcnt : state.mcnt = crclrBuffSize) {channel : Channel}
    (hlength : (ring.array channel).length = crclrBuffSize) :
    (state.results.array channel).1.take crclrBuffSize = (ring.array channel).rotate head := by
  have hresults : crclrBuffSize ≤ (state.results.array channel).1.length := by
    rw [(state.results.array channel).2]
    decide
  apply List.ext_getElem
  · rw [List.length_take_of_le hresults, List.length_rotate, hlength]
  · intro index htaken hrotated
    have hindex : index < crclrBuffSize := by
      rwa [List.length_take_of_le hresults] at htaken
    have hsource : (head + index) % crclrBuffSize < (ring.array channel).length :=
      hlength.symm ▸ Nat.mod_lt _ (Nat.succ_pos 1023)
    have hvalue := h.values channel index (hmcnt.symm ▸ hindex)
    rw [List.getD_eq_getElem _ _ (hindex.trans_le hresults), List.getD_eq_getElem _ _ hsource]
      at hvalue
    rw [List.getElem_take, hvalue, List.getElem_rotate]
    congr 1
    rw [hlength, add_comm]

end RingCopy

/-! ## Agreement -/

/-- The ring after `circular_buffer_init` and one call for each of the given values. -/
def ringAfter (history : List (Quad ℤ)) : CircBuffer :=
  history.foldl circularBufferAddValue circularBufferInit

theorem shows_ringAfter (history : List (Quad ℤ)) :
    (ringAfter history).Shows history ∧ (ringAfter history).circBuffOverflow = true := by
  induction history using List.reverseRecOn with
  | nil => exact ⟨CircBuffer.shows_circularBufferInit, rfl⟩
  | append_singleton history values ih =>
    rw [ringAfter, List.foldl_concat]
    exact ⟨ih.1.addValue values, CircBuffer.circBuffOverflow_addValue ih.2 values⟩

/-- The transmission in front of its first packet, with the ring as the recording left it. -/
def Transmission.withRing (tx : Transmission) (ring : CircBuffer) : Transmission :=
  { tx with recorder := { tx.recorder with ring := ring, lastCircBuffRecord := ring.buffHead } }

theorem fillPacket_withRing (env : SendEnv) (total : ℕ) (tx : Transmission) {ring : CircBuffer}
    (hflag : ring.circBuffOverflow = true) :
    (fillPacket env 1 total (tx.withRing ring)).recorder.seedPacket =
      ringPacket total (tx.withRing ring).recorder := by
  have hring : (fillHeader 1 total (tx.withRing ring).recorder).ring.circBuffOverflow = true :=
    hflag
  rw [fillPacket, if_pos hring]
  rfl

/-- After any number of additions the loop of `main` ends, goes back to index zero at most once,
stays inside its arrays, and leaves what the sender copies into the first packet. -/
theorem copyRingToResults_eq_ringPacket (history : List (Quad ℤ)) (results : ResultArrays)
    (env : SendEnv) (total : ℕ) (tx : Transmission) :
    let ring := ringAfter history
    let copied := copyRingToResults ring ring.buffHead results
    let packet := (fillPacket env 1 total (tx.withRing ring)).recorder.seedPacket
    copied.mcnt = crclrBuffSize ∧ copied.turns.count .wrapped ≤ 1 ∧
      copied.turns.length ≤ crclrBuffSize + 1 ∧
      (∀ source target, .copied source target ∈ copied.turns →
        source < crclrBuffSize ∧ target < resVarLen) ∧
      copied.results.ch0Volt.1.take crclrBuffSize = packet.chan0Vlt.1 ∧
      copied.results.ch0Int.1.take crclrBuffSize = packet.chan0Int.1 ∧
      copied.results.ch1Volt.1.take crclrBuffSize = packet.chan1Vlt.1 ∧
      copied.results.ch1Int.1.take crclrBuffSize = packet.chan1Int.1 := by
  intro ring copied packet
  obtain ⟨hshows, hflag⟩ := shows_ringAfter history
  have hhead : ring.buffHead ≤ crclrBuffSize := (hshows 0).head_le
  have hloop : copied = RingCopy.loop ring crclrBuffSize ⟨results, ring.buffHead, 0, []⟩ :=
    if_pos hflag
  obtain ⟨hcopied, hmcnt⟩ := (RingCopy.copied_start ring results hhead).loop hhead
  rw [← hloop] at hcopied hmcnt
  have hring : (tx.withRing ring).recorder.ring.Shows history := hshows
  have hagree (channel : Channel) :
      (copied.results.array channel).1.take crclrBuffSize = (packet.array channel).1 := by
    calc
      (copied.results.array channel).1.take crclrBuffSize =
          (ring.array channel).rotate ring.buffHead :=
        hcopied.take_eq_rotate hmcnt (hshows channel).length_eq
      _ = Window.last crclrBuffSize 0 (history.map fun values ↦ values channel) :=
        (hshows channel).rotate_eq
      _ = ((ringPacket total (tx.withRing ring).recorder).array channel).1 :=
        (ringPacket_shows total hring rfl channel).symm
      _ = (packet.array channel).1 := by rw [← fillPacket_withRing env total tx hflag]
  have hcount : copied.turns.count .wrapped ≤ 1 := by
    obtain ⟨hnone, _⟩ | ⟨hone, _⟩ := hcopied.position
    · omega
    · omega
  refine ⟨hmcnt, hcount, ?_, ?_, hagree 0, hagree 1, hagree 2, hagree 3⟩
  · rw [hcopied.length_turns, hmcnt]
    omega
  · intro source target hmem
    obtain ⟨hsource, htarget⟩ := hcopied.inside source target hmem
    exact ⟨hsource, htarget.trans (by decide)⟩

end NrfExamples.MqttWorking
