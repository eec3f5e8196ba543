import NrfExamples.MqttWorking.SenderSteps

/-!
# Undisturbed runs of the sender

With the reads and publishes of an environment and without the handler, the steps of the sender
compute `sendMeasuredTrainDataWithMultiplePacketsFromFlash`. So what holds of every run holds of the
function, and the handler is all that the steps add to it.
-/

namespace NrfExamples.MqttWorking

open Trace

namespace Sending

/-- The events that an environment answers, with no activity of the handler. -/
def Served (env : SendEnv) (s : Sending) : SendEvent → Prop
  | .advance => True
  | .read bytes => bytes = nextRead env s.tx
  | .publish result => result = env.publish (s.pcktCnt - 1)
  | .button _ _ | .handlerWake => False

/-- A served run from one state to the other. -/
abbrev Reaches (env : SendEnv) : Sending → Sending → Prop := ReachesAlong step (Served env)

theorem reaches_of_advance {env : SendEnv} {s next final : Sending}
    (hstep : s.step .advance = some next) (h : Reaches env next final) : Reaches env s final :=
  have hserved : Served env s .advance := trivial
  ReachesAlong.head hserved hstep h

/-- Where the slot loop stands in front of a slot. -/
def atSlot (slot : ℕ) : SenderPhase := if slot < waveSampleLen then .reading slot else .publishing

/-- The sleeps behind a failed read pass by. -/
theorem reaches_afterRetry (env : SendEnv) (slot : ℕ) (sleeps : List ℕ) (s : Sending)
    (hphase : s.phase = .retrySleep slot sleeps) : Reaches env s (s.afterRetry slot) := by
  induction sleeps generalizing s with
  | nil =>
    have hstep : s.step .advance = some (s.afterRetry slot) := by simp only [step, advance, hphase]
    exact reaches_of_advance hstep (ReachesAlong.refl _ _)
  | cons sleep sleeps ih =>
    cases sleeps with
    | nil =>
      have hstep : s.step .advance = some (s.afterRetry slot) := by
        simp only [step, advance, hphase]
      exact reaches_of_advance hstep (ReachesAlong.refl _ _)
    | cons next rest =>
      have hstep : s.step .advance = some { s with phase := .retrySleep slot (next :: rest) } := by
        simp only [step, advance, hphase]
      have hrest := ih { s with phase := .retrySleep slot (next :: rest) } rfl
      exact reaches_of_advance hstep hrest

/-- One turn of the slot loop. -/
theorem reaches_readTurn (env : SendEnv) {slot : ℕ} {s : Sending}
    (hphase : s.phase = .reading slot) (hslot : slot < waveSampleLen) :
    ∃ log, Reaches env s
      { s with
        phase := atSlot (readSlot env slot s.tx).1
        tx := readTurn env slot s.tx
        log := log } := by
  have hstep : s.step (.read (nextRead env s.tx)) = some (s.takeRead slot (nextRead env s.tx)) := by
    simp only [step, hphase]
  have hserved : Served env s (.read (nextRead env s.tx)) := rfl
  by_cases hcrc : crcMatches (nextRead env s.tx) = true
  · have hturn : s.takeRead slot (nextRead env s.tx) =
        { s with
          phase := atSlot (readSlot env slot s.tx).1
          tx := readTurn env slot s.tx
          log := (s.takeRead slot (nextRead env s.tx)).log } := by
      simp only [takeRead, readTurn, readSlot, if_pos hcrc]
      rfl
    rw [hturn] at hstep
    exact ⟨_, ReachesAlong.head hserved hstep (ReachesAlong.refl _ _)⟩
  · have hsleep := reaches_afterRetry env slot
      (retrySleeps (s.tx.recorder.crcErrCounter + 1)) (s.takeRead slot (nextRead env s.tx))
      (by rw [takeRead, if_neg hcrc])
    have hturn : (s.takeRead slot (nextRead env s.tx)).afterRetry slot =
        { s with
          phase := atSlot (readSlot env slot s.tx).1
          tx := readTurn env slot s.tx
          log := ((s.takeRead slot (nextRead env s.tx)).afterRetry slot).log } := by
      by_cases hlimit : s.tx.recorder.crcErrCounter + 1 > 100
      · simp only [takeRead, afterRetry, readTurn, readSlot, if_neg hcrc, if_pos hlimit]
        rfl
      · simp only [takeRead, afterRetry, readTurn, readSlot, if_neg hcrc, if_neg hlimit, atSlot,
          if_pos hslot]
    rw [hturn] at hsleep
    exact ⟨_, ReachesAlong.head hserved hstep hsleep⟩

/-- The slot loop. -/
theorem reaches_fillFromPsram (env : SendEnv) (slot : ℕ) (tx : Transmission) (s : Sending)
    (hphase : s.phase = atSlot slot) (htx : s.tx = tx) :
    ∃ log, Reaches env s
      { s with phase := .publishing, tx := fillFromPsram env slot tx, log := log } := by
  induction slot, tx using fillFromPsram.induct env generalizing s with
  | case1 slot tx hslot ih =>
    subst htx
    have hreading : s.phase = .reading slot := hphase.trans (if_pos hslot)
    obtain ⟨log, hturn⟩ := reaches_readTurn env hreading hslot
    obtain ⟨log', hrest⟩ := ih
      { s with
        phase := atSlot (readSlot env slot s.tx).1
        tx := readTurn env slot s.tx
        log := log } rfl rfl
    rw [fillFromPsram, if_pos hslot]
    exact ⟨log', hturn.trans hrest⟩
  | case2 slot tx hslot =>
    subst htx
    have hpublishing : s.phase = .publishing := hphase.trans (if_neg hslot)
    rw [fillFromPsram, if_neg hslot, ← hpublishing]
    exact ⟨s.log, ReachesAlong.refl _ s⟩

/-- One packet up to its publish. -/
theorem reaches_fillPacket (env : SendEnv) {s : Sending} (hphase : s.phase = .packetLoop)
    (hle : s.pcktCnt ≤ s.total) :
    ∃ log, Reaches env s
      { s with
        phase := .publishing
        pcktCnt := s.pcktCnt + 1
        tx := fillPacket env s.pcktCnt s.total s.tx
        log := log } := by
  have hheader : s.step .advance = some (s.beginPacket) := by simp only [step, advance, hphase]
  have hbegin : s.beginPacket =
      { s with
        phase := .headerSleep
        pcktCnt := s.pcktCnt + 1
        tx := { s.tx with recorder := fillHeader s.pcktCnt s.total s.tx.recorder } } := if_pos hle
  have hchoose : s.beginPacket.step .advance = some s.beginPacket.chooseSource := by
    simp only [step, advance, hbegin]
  by_cases hflag : s.tx.recorder.ring.circBuffOverflow = true
  · have hring : (fillHeader s.pcktCnt s.total s.tx.recorder).ring.circBuffOverflow = true := hflag
    have hcopy : s.beginPacket.chooseSource.step .advance =
        some s.beginPacket.chooseSource.copyFromRing := by
      simp only [step, advance, chooseSource, hbegin, if_pos hring]
    have hfilled : s.beginPacket.chooseSource.copyFromRing =
        { s with
          phase := .publishing
          pcktCnt := s.pcktCnt + 1
          tx := fillPacket env s.pcktCnt s.total s.tx
          log := s.log } := by
      simp only [copyFromRing, chooseSource, hbegin, fillPacket, if_pos hring]
      rfl
    rw [hfilled] at hcopy
    have hlast := reaches_of_advance hcopy (ReachesAlong.refl (Served env) _)
    exact ⟨s.log, reaches_of_advance hheader (reaches_of_advance hchoose hlast)⟩
  · have hring : ¬ (fillHeader s.pcktCnt s.total s.tx.recorder).ring.circBuffOverflow = true :=
      hflag
    have hreading : s.beginPacket.chooseSource =
        { s with
          phase := atSlot 0
          pcktCnt := s.pcktCnt + 1
          tx := { s.tx with recorder := fillHeader s.pcktCnt s.total s.tx.recorder } } := by
      simp only [chooseSource, hbegin, if_neg hring]
      rfl
    obtain ⟨log, hfill⟩ := reaches_fillFromPsram env 0
      { s.tx with recorder := fillHeader s.pcktCnt s.total s.tx.recorder }
      s.beginPacket.chooseSource (by rw [hreading]) (by rw [hreading])
    have hfilled : fillPacket env s.pcktCnt s.total s.tx = fillFromPsram env 0
        { s.tx with recorder := fillHeader s.pcktCnt s.total s.tx.recorder } := by
      rw [fillPacket, if_neg hring]
    rw [hfilled]
    rw [hreading] at hfill hchoose
    exact ⟨log, reaches_of_advance hheader (reaches_of_advance hchoose hfill)⟩

/-- The publish of a packet. -/
theorem reaches_finishPublish (env : SendEnv) {s : Sending} (hphase : s.phase = .publishing) :
    Reaches env s (s.finishPublish (env.publish (s.pcktCnt - 1))) :=
  have hserved : Served env s (.publish (env.publish (s.pcktCnt - 1))) := rfl
  have hstep : s.step (.publish (env.publish (s.pcktCnt - 1))) =
      some (s.finishPublish (env.publish (s.pcktCnt - 1))) := if_pos hphase
  ReachesAlong.head hserved hstep (ReachesAlong.refl _ _)

/-- The packet loop. -/
theorem reaches_sendPackets (env : SendEnv) (total pcktCnt : ℕ) (tx : Transmission) (s : Sending)
    (hphase : s.phase = .packetLoop) (htotal : s.total = total) (hpcktCnt : s.pcktCnt = pcktCnt)
    (htx : s.tx = tx) :
    ∃ last log, Reaches env s
      { s with
        phase := .done
        pcktCnt := last
        tx := sendPackets env total pcktCnt tx
        log := log } := by
  induction pcktCnt, tx using sendPackets.induct env total generalizing s with
  | case1 pcktCnt tx hle hpublish =>
    subst htotal hpcktCnt htx
    obtain ⟨log, hfill⟩ := reaches_fillPacket env hphase hle
    have hlast := hfill.trans (reaches_finishPublish env rfl)
    simp only [finishPublish, Nat.add_sub_cancel, if_pos hpublish] at hlast
    rw [sendPackets, if_pos hle]
    simp only [if_pos hpublish]
    exact ⟨_, log, hlast⟩
  | case2 pcktCnt tx hle sent hpublish ih =>
    subst htotal hpcktCnt htx
    obtain ⟨log, hfill⟩ := reaches_fillPacket env hphase hle
    have hpacket := hfill.trans (reaches_finishPublish env rfl)
    simp only [finishPublish, Nat.add_sub_cancel, if_neg hpublish] at hpacket
    obtain ⟨last, log', hrest⟩ := ih
      { s with
        phase := .packetLoop
        pcktCnt := s.pcktCnt + 1
        tx := reportFailCounter sent
        log := log } rfl rfl rfl rfl
    rw [sendPackets, if_pos hle]
    simp only [if_neg hpublish]
    exact ⟨last, log', hpacket.trans hrest⟩
  | case3 pcktCnt tx hlt =>
    subst htotal hpcktCnt htx
    have hstep : s.step .advance = some s.beginPacket := by simp only [step, advance, hphase]
    have hend : s.beginPacket =
        { s with
          phase := .done
          pcktCnt := s.pcktCnt
          tx := sendPackets env s.total s.pcktCnt s.tx
          log := s.log } := by
      rw [beginPacket, if_neg hlt, sendPackets, if_neg hlt]
    rw [hend] at hstep
    exact ⟨s.pcktCnt, s.log, reaches_of_advance hstep (ReachesAlong.refl _ _)⟩

/-- The steps compute the function. -/
theorem reaches_transmission (env : SendEnv) (recorder : Recorder) (handler : HandlerPhase) :
    ∃ final, Reaches env (start recorder handler) final ∧ final.phase = .done ∧
      final.tx = sendMeasuredTrainDataWithMultiplePacketsFromFlash env recorder := by
  obtain ⟨last, log, h⟩ := reaches_sendPackets env (totalPacketToSend recorder) 1
    ⟨recorder.beginSending, [], []⟩ (start recorder handler) rfl rfl rfl rfl
  exact ⟨_, h, rfl, rfl⟩

end Sending

end NrfExamples.MqttWorking
