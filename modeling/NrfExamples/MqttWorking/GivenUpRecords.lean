import Mathlib.Data.List.Perm.Subperm
import NrfExamples.MqttWorking.SenderRuns
import NrfExamples.MqttWorking.Transmission

/-!
# Which records are given up

The error counter of the sender is reset when a record is given up but not when one is read, so the
sender is a reader whose records share their retries. A complete transmission gives records up only
for their own failures exactly if every failed read with a number that is a multiple of 101 ends a
run of 101 failed reads.
-/

namespace NrfExamples.MqttWorking

open Measurement Memory Retry Trace

def SenderPhase.retrying : SenderPhase → Bool
  | .retrySleep _ _ => true
  | .packetLoop | .headerSleep | .ringSleep | .reading _ | .publishing | .done => false

namespace Sending

/-- The sender as a reader. Behind the failed read that passes the limit only the sleeps are left in
front of the placeholder. -/
def reader (s : Sending) : Reader :=
  let recorder := s.tx.recorder
  match s.phase with
  | .retrySleep _ _ =>
      if recorder.crcErrCounter > 100 then
        ⟨recorder.flashAddressRead + 10, 0, s.log ++ [.givenUp recorder.flashAddressRead]⟩
      else ⟨recorder.flashAddressRead, recorder.crcErrCounter, s.log⟩
  | _ => ⟨recorder.flashAddressRead, recorder.crcErrCounter, s.log⟩

end Sending

/-- The outcome of the checksum comparison, for a read. -/
def SendEvent.outcome : SendEvent → Option Bool
  | .read bytes => some (crcMatches bytes)
  | _ => none

def outcomes (events : List SendEvent) : List Bool := events.filterMap SendEvent.outcome

theorem outcomes_append (first second : List SendEvent) :
    outcomes (first ++ second) = outcomes first ++ outcomes second := List.filterMap_append

namespace Sending

/-- The reader of a state in which no retry is pending. -/
theorem reader_of_awake {s : Sending} (h : s.phase.retrying = false) :
    s.reader = ⟨s.tx.recorder.flashAddressRead, s.tx.recorder.crcErrCounter, s.log⟩ := by
  unfold reader
  split
  · rename_i slot sleeps hphase
    exact absurd (h.symm.trans (congrArg SenderPhase.retrying hphase)) Bool.false_ne_true
  · rfl

/-- A step outside the retries that keeps the address, the counter and the log keeps the reader. -/
theorem reader_of_same {s next : Sending} (h : s.phase.retrying = false)
    (hnext : next.phase.retrying = false)
    (haddress : next.tx.recorder.flashAddressRead = s.tx.recorder.flashAddressRead)
    (herrors : next.tx.recorder.crcErrCounter = s.tx.recorder.crcErrCounter)
    (hlog : next.log = s.log) : next.reader = s.reader := by
  rw [reader_of_awake h, reader_of_awake hnext, haddress, herrors, hlog]

theorem retrying_nextSlot (slot : ℕ) : (nextSlot slot).retrying = false := by
  unfold nextSlot
  split
  · rfl
  · rfl

theorem reader_takeRead {s : Sending} {slot : ℕ} (hphase : s.phase = .reading slot)
    (bytes : List Byte) :
    (s.takeRead slot bytes).reader = attempt 100 10 s.reader (crcMatches bytes) := by
  rw [reader_of_awake (s := s) (congrArg SenderPhase.retrying hphase)]
  by_cases hcrc : crcMatches bytes = true
  · rw [takeRead, if_pos hcrc, hcrc]
    exact reader_of_awake (retrying_nextSlot slot)
  · rw [takeRead, if_neg hcrc, Bool.eq_false_iff.mpr hcrc]
    unfold reader attempt
    by_cases hlimit : s.tx.recorder.crcErrCounter + 1 > 100
    · simp only [if_pos hlimit, if_neg Bool.false_ne_true]
    · simp only [if_neg hlimit, if_neg Bool.false_ne_true]

theorem reader_afterRetry {s : Sending} {slot : ℕ} {sleeps : List ℕ}
    (hphase : s.phase = .retrySleep slot sleeps) : (s.afterRetry slot).reader = s.reader := by
  by_cases hlimit : s.tx.recorder.crcErrCounter > 100
  · have hpending : s.reader = ⟨s.tx.recorder.flashAddressRead + 10, 0,
        s.log ++ [.givenUp s.tx.recorder.flashAddressRead]⟩ := by
      simp only [reader, hphase, if_pos hlimit]
    rw [hpending, afterRetry, if_pos hlimit]
    exact reader_of_awake (retrying_nextSlot slot)
  · have hwithin : s.reader =
        ⟨s.tx.recorder.flashAddressRead, s.tx.recorder.crcErrCounter, s.log⟩ := by
      simp only [reader, hphase, if_neg hlimit]
    rw [hwithin, afterRetry, if_neg hlimit]
    exact reader_of_awake rfl

/-- Every read is one attempt of the reader, and nothing else changes it. -/
theorem reader_step {s next : Sending} {event : SendEvent} (h : s.step event = some next) :
    next.reader = (outcomes [event]).foldl (attempt 100 10) s.reader := by
  cases moved_of_step h with
  | beginPacket hphase =>
    have hawake : s.phase.retrying = false := congrArg SenderPhase.retrying hphase
    by_cases hcase : s.pcktCnt ≤ s.total
    · rw [beginPacket, if_pos hcase]
      exact reader_of_same hawake rfl rfl rfl rfl
    · rw [beginPacket, if_neg hcase]
      exact reader_of_same hawake rfl rfl rfl rfl
  | chooseSource hphase =>
    have hawake : s.phase.retrying = false := congrArg SenderPhase.retrying hphase
    by_cases hcase : s.tx.recorder.ring.circBuffOverflow = true
    · rw [chooseSource, if_pos hcase]
      exact reader_of_same hawake rfl rfl rfl rfl
    · rw [chooseSource, if_neg hcase]
      exact reader_of_same hawake rfl rfl rfl rfl
  | copyFromRing hphase =>
    exact reader_of_same (congrArg SenderPhase.retrying hphase) rfl rfl rfl rfl
  | nextSleep slot sleeps rest hphase =>
    simp only [reader, hphase]
    rfl
  | afterRetry slot sleeps hphase => exact reader_afterRetry hphase
  | takeRead slot bytes hphase => exact reader_takeRead hphase bytes
  | finishPublish result hphase =>
    have hawake : s.phase.retrying = false := congrArg SenderPhase.retrying hphase
    by_cases hcase : result ≠ 0
    · rw [finishPublish, if_pos hcase]
      exact reader_of_same hawake rfl rfl rfl rfl
    · rw [finishPublish, if_neg hcase]
      exact reader_of_same hawake rfl rfl rfl rfl
  | pressed buttonState hasChanged hphase hpress => rfl
  | otherButton buttonState hasChanged hpress => rfl
  | wakeHandler handler handlerPublished => rfl

theorem reader_run {s final : Sending} {events : List SendEvent}
    (hrun : run step s events = some final) :
    final.reader = (outcomes events).foldl (attempt 100 10) s.reader := by
  induction events generalizing s with
  | nil =>
    rw [← Option.some.inj hrun]
    rfl
  | cons event events ih =>
    obtain ⟨next, hstep, hrest⟩ := Option.bind_eq_some_iff.mp hrun
    have hsplit : outcomes (event :: events) = outcomes [event] ++ outcomes events :=
      outcomes_append [event] events
    rw [ih hrest, reader_step hstep, hsplit, List.foldl_append]

/-- The log of a complete transmission is that of the reader. -/
theorem log_eq_attempts {recorder : Recorder} {handler : HandlerPhase} {events : List SendEvent}
    {final : Sending} (hrun : run step (start recorder handler) events = some final)
    (hdone : final.phase = .done) : final.log = (attempts 100 10 (outcomes events)).log := by
  have hreader : final.reader = attempts 100 10 (outcomes events) := reader_run hrun
  rw [← hreader, reader_of_awake (congrArg SenderPhase.retrying hdone)]

/-- A complete transmission gives records up only for their own failures exactly if, of its failed
reads, those with a number divisible by 101 end a run of 101 failed reads. -/
theorem ownFailures_iff (recorder : Recorder) (handler : HandlerPhase) (events : List SendEvent)
    (final : Sending) (hrun : run step (start recorder handler) events = some final)
    (hdone : final.phase = .done) :
    OwnFailures 101 final.log ↔ Grouped 101 (outcomes events) := by
  rw [log_eq_attempts hrun hdone]
  exact ownFailures_iff_grouped 10 (outcomes events)

/-! ## Transient errors -/

theorem length_reads_step {s next : Sending} {event : SendEvent} (h : s.step event = some next) :
    next.tx.reads.length = s.tx.reads.length + (outcomes [event]).length := by
  rw [(frame_of_step h).2.2, List.length_append]
  cases event with
  | advance | read | publish | button | handlerWake => rfl

/-- The outcomes of a served run, where the memory answers by the number of the read alone. -/
theorem outcomes_of_served {results : ℕ → List Byte} {publish : ℕ → ℤ} {s final : Sending}
    {events : List SendEvent} (hrun : run step s events = some final)
    (hserved : Along step (Served ⟨fun n _ ↦ results n, publish⟩) s events) :
    final.tx.reads.length = s.tx.reads.length + (outcomes events).length ∧
      outcomes events = (List.range' s.tx.reads.length (outcomes events).length).map
        fun n ↦ crcMatches (results n) := by
  induction events generalizing s with
  | nil =>
    rw [← Option.some.inj hrun]
    exact ⟨rfl, rfl⟩
  | cons event events ih =>
    obtain ⟨next, hstep, hrest⟩ := Option.bind_eq_some_iff.mp hrun
    obtain ⟨hfinal, houtcomes⟩ := ih hrest (hserved.2 next hstep)
    have hlength := length_reads_step hstep
    have hsplit : outcomes (event :: events) = outcomes [event] ++ outcomes events :=
      outcomes_append [event] events
    have hfirst : outcomes [event] = (List.range' s.tx.reads.length (outcomes [event]).length).map
        fun n ↦ crcMatches (results n) := by
      cases event with
      | read bytes => exact congrArg (fun bytes ↦ [crcMatches bytes]) hserved.1
      | advance | publish | button | handlerWake => rfl
    rw [hsplit, List.length_append]
    refine ⟨by rw [hfinal, hlength, Nat.add_assoc], ?_⟩
    rw [← List.range'_append_1, List.map_append, ← hfirst, ← hlength, ← houtcomes]

/-- Every other read fails. -/
def alternatingReads (n : ℕ) : List Byte :=
  if n % 2 = 0 then List.replicate 10 0 else encodeRecord fun _ ↦ 0

theorem crcMatches_alternatingReads (n : ℕ) :
    crcMatches (alternatingReads n) = decide (n % 2 = 1) := by
  unfold alternatingReads
  by_cases hparity : n % 2 = 0
  · rw [if_pos hparity, decide_eq_false (by omega)]
    decide +kernel
  · rw [if_neg hparity, decide_eq_true (by omega)]
    exact crcMatches_encodeRecord _

/-- With every other read failing, the record of the 101st failed read is given up for one failure
of its own. -/
theorem not_grouped_alternating {count : ℕ} (hcount : 201 ≤ count) :
    ¬ Grouped 101 ((List.range' 0 count).map fun n ↦ crcMatches (alternatingReads n)) := by
  obtain ⟨rest, rfl⟩ := Nat.exists_eq_add_of_le hcount
  have hsplit : List.range' 0 (201 + rest) =
      List.range' 0 200 ++ 200 :: List.range' 201 rest := by
    rw [← List.range'_append_1, List.range'_concat, List.append_assoc]
    rfl
  rw [hsplit, List.map_append]
  simp only [crcMatches_alternatingReads]
  intro hgrouped
  have hsuffix := hgrouped ((List.range' 0 200).map fun n ↦ decide (n % 2 = 1)) _ rfl
    (by decide +kernel)
  exact absurd hsuffix (by decide +kernel)

theorem length_reads_shortRecording (env : SendEnv) (hpublish : ∀ k, env.publish k = 0) :
    201 ≤
      (sendMeasuredTrainDataWithMultiplePacketsFromFlash env shortRecording).reads.length := by
  obtain ⟨packets, hsent⟩ := transmitted_recording env recorded_shortRecording (by decide)
  have hcount : packets.length = 1 := hsent.length_eq_iff.mpr fun k _ _ ↦ hpublish k
  have hsubset : (List.range 201).map (10 * ·) ⊆
      (sendMeasuredTrainDataWithMultiplePacketsFromFlash env shortRecording).reads := by
    intro address haddress
    obtain ⟨i, hi, rfl⟩ := List.mem_map.mp haddress
    refine (hsent.mem_reads _).mpr ⟨i, ?_, rfl⟩
    rw [hcount]
    exact (List.mem_range.mp hi).trans (by decide)
  have hnodup : ((List.range 201).map (10 * ·)).Nodup :=
    List.nodup_range.map fun _ _ h ↦ Nat.eq_of_mul_eq_mul_left (by decide) h
  simpa using (List.subperm_of_subset hnodup hsubset).length_le

/-- A complete transmission of the short recording in which every other read fails. -/
theorem exists_alternating_run : ∃ events final,
    run step (start shortRecording .idle) events = some final ∧ final.phase = .done ∧
      ¬ Grouped 101 (outcomes events) := by
  obtain ⟨final, ⟨events, hrun, hserved⟩, hdone, htx⟩ := reaches_transmission
    ⟨fun n _ ↦ alternatingReads n, fun _ ↦ 0⟩ shortRecording .idle
  obtain ⟨hlength, houtcomes⟩ := outcomes_of_served hrun hserved
  refine ⟨events, final, hrun, hdone, ?_⟩
  rw [houtcomes]
  apply not_grouped_alternating
  have hreads := length_reads_shortRecording ⟨fun n _ ↦ alternatingReads n, fun _ ↦ 0⟩ fun _ ↦ rfl
  rw [← htx, hlength] at hreads
  simpa [start] using hreads

theorem ownFailures_iff_alternating : ∃ events final,
    run step (start shortRecording .idle) events = some final ∧ final.phase = .done ∧
      (OwnFailures 101 final.log ↔ Grouped 101 (outcomes events)) := by
  obtain ⟨events, final, hrun, hdone, _⟩ := exists_alternating_run
  exact ⟨events, final, hrun, hdone, ownFailures_iff shortRecording .idle events final hrun hdone⟩

/-- A record is given up that did not fail 101 times. -/
theorem not_ownFailures_alternating :
    ¬ ∀ (recorder : Recorder) (handler : HandlerPhase) (events : List SendEvent) (final : Sending),
      run step (start recorder handler) events = some final → final.phase = .done →
        OwnFailures 101 final.log := by
  intro hall
  obtain ⟨events, final, hrun, hdone, hgrouped⟩ := exists_alternating_run
  have hown := hall shortRecording .idle events final hrun hdone
  rw [log_eq_attempts hrun hdone] at hown
  exact hgrouped ((ownFailures_iff_grouped 10 (outcomes events)).mp hown)

end Sending

end NrfExamples.MqttWorking
