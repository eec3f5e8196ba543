import NrfExamples.Library.RetryBudget
import NrfExamples.Library.Trace
import NrfExamples.MqttWorking.Sender

/-!
# The sender between its sleeps

The sender sleeps behind the header of each packet, in front of the ring packet and behind every
failed read. While it sleeps, `button_handler` can run on the work queue. It fills the header of the
same packet and counts the same train counter, sleeps twice and publishes the packet.

`Sending.step` cuts the sender at its sleeps and at its calls of the driver and of `data_publish`,
and the handler at its sleeps. The bytes of a read and the result of a publish are events, and so is
the wake-up of either party; a block of the handler is enabled only while the sender sleeps. The
log records every attempt to read a record and every record that is given up.
-/

namespace NrfExamples.MqttWorking

open Memory Retry

/-! ## States and events -/

/-- Where the sender stands. The sleeps behind a failed read are listed with their lengths. -/
inductive SenderPhase where
  | packetLoop
  | headerSleep
  | ringSleep
  | reading (slot : ℕ)
  | retrySleep (slot : ℕ) (sleeps : List ℕ)
  | publishing
  | done
deriving DecidableEq

def SenderPhase.sleeping : SenderPhase → Bool
  | .headerSleep | .ringSleep | .retrySleep _ _ => true
  | .packetLoop | .reading _ | .publishing | .done => false

inductive HandlerPhase where
  | idle
  | firstSleep
  | secondSleep
deriving DecidableEq

/-- The sender with its transmission, and the handler with the packets that it published. -/
structure Sending where
  phase : SenderPhase
  total : ℕ
  pcktCnt : ℕ
  tx : Transmission
  log : List Entry
  handler : HandlerPhase
  handlerPublished : List SeedPacket

inductive SendEvent where
  | advance
  | read (bytes : List Byte)
  | publish (result : ℤ)
  | button (buttonState hasChanged : UInt32)
  | handlerWake

/-- The addresses that an event reads, where the next record is at the given one. -/
def SendEvent.readsAt (address : ℕ) : SendEvent → List ℕ
  | .read _ => [address]
  | .advance | .publish _ | .button _ _ | .handlerWake => []

/-! ## The sender -/

namespace Sending

/-- The state in which the sender is called. -/
def start (recorder : Recorder) (handler : HandlerPhase) : Sending where
  phase := .packetLoop
  total := totalPacketToSend recorder
  pcktCnt := 1
  tx := ⟨recorder.beginSending, [], []⟩
  log := []
  handler := handler
  handlerPublished := []

/-- The sleeps behind a failed read, in milliseconds. -/
def retrySleeps (errors : ℕ) : List ℕ :=
  [10] ++ (if errors > 30 then [25] else []) ++ (if errors > 60 then [55] else []) ++
    (if errors > 80 then [50] else []) ++ (if errors > 90 then [100] else [])

/-- Behind a slot that was assigned. -/
def nextSlot (slot : ℕ) : SenderPhase :=
  if slot + 1 < waveSampleLen then .reading (slot + 1) else .publishing

/-- One turn of the packet loop up to its first sleep, or the end of the loop. -/
def beginPacket (s : Sending) : Sending :=
  if s.pcktCnt ≤ s.total then
    { s with
      phase := .headerSleep
      pcktCnt := s.pcktCnt + 1
      tx := { s.tx with recorder := fillHeader s.pcktCnt s.total s.tx.recorder } }
  else
    { s with
      phase := .done
      tx := { s.tx with
        recorder := { s.tx.recorder with trainCounter := s.tx.recorder.trainCounter + 1 } } }

/-- Behind the sleep that follows the header. -/
def chooseSource (s : Sending) : Sending :=
  if s.tx.recorder.ring.circBuffOverflow then
    { s with
      phase := .ringSleep
      tx := { s.tx with
        recorder := { s.tx.recorder with
          ring := { s.tx.recorder.ring with circBuffOverflow := false } } } }
  else { s with phase := .reading 0 }

def copyFromRing (s : Sending) : Sending :=
  { s with
    phase := .publishing
    tx := { s.tx with recorder := fillFromRing s.tx.recorder } }

/-- A read with the checksum comparison. -/
def takeRead (slot : ℕ) (bytes : List Byte) (s : Sending) : Sending :=
  let recorder := s.tx.recorder
  let reads := s.tx.reads ++ [recorder.flashAddressRead]
  if crcMatches bytes then
    { s with
      phase := nextSlot slot
      tx := { s.tx with
        recorder := takeRecord slot (decodeRecord bytes) recorder
        reads := reads }
      log := s.log ++ [.attempt recorder.flashAddressRead true] }
  else
    { s with
      phase := .retrySleep slot (retrySleeps (recorder.crcErrCounter + 1))
      tx := { s.tx with
        recorder := { recorder with crcErrCounter := recorder.crcErrCounter + 1 }
        reads := reads }
      log := s.log ++ [.attempt recorder.flashAddressRead false] }

/-- Behind the last sleep of a failed read. -/
def afterRetry (slot : ℕ) (s : Sending) : Sending :=
  let recorder := s.tx.recorder
  if recorder.crcErrCounter > 100 then
    { s with
      phase := nextSlot slot
      tx := { s.tx with
        recorder := takeRecord slot placeholder
          { recorder with
            crcErrCounter := 0
            flashSampleFailCounter := recorder.flashSampleFailCounter + 1 } }
      log := s.log ++ [.givenUp recorder.flashAddressRead] }
  else { s with phase := .reading slot }

def finishPublish (result : ℤ) (s : Sending) : Sending :=
  let tx := publishPacket s.tx
  if result ≠ 0 then { s with phase := .done, tx := tx }
  else { s with phase := .packetLoop, tx := reportFailCounter tx }

/-- The sender leaves a sleep, or takes up the next packet. -/
def advance (s : Sending) : Option Sending :=
  match s.phase with
  | .packetLoop => some s.beginPacket
  | .headerSleep => some s.chooseSource
  | .ringSleep => some s.copyFromRing
  | .retrySleep slot (_ :: next :: rest) =>
      some { s with phase := .retrySleep slot (next :: rest) }
  | .retrySleep slot _ => some (s.afterRetry slot)
  | .reading _ | .publishing | .done => none

/-! ## The handler -/

def dkBtn1Msk : UInt32 := 1

/-- The arguments for which `button_handler` does anything. -/
def pressesButton1 (buttonState hasChanged : UInt32) : Prop :=
  hasChanged = dkBtn1Msk ∧ buttonState &&& dkBtn1Msk ≠ 0

instance (buttonState hasChanged : UInt32) : Decidable (pressesButton1 buttonState hasChanged) :=
  inferInstanceAs (Decidable (_ ∧ _))

/-- The assignments of the handler in front of its first sleep. -/
def fillButtonHeader (recorder : Recorder) : Recorder :=
  { recorder with
    seedPacket := { recorder.seedPacket with
      packetHeader := 0xBEEF
      packetVersion := 0x0101
      actualPacketNr := 1
      totalPacketNr := 1
      timestamp := 1748277406
      trainCounter := recorder.trainCounter
      crc := 0xABCD }
    trainCounter := recorder.trainCounter + 1 }

/-- The work queue runs one handler at a time. -/
def buttonHandler (buttonState hasChanged : UInt32) (s : Sending) : Option Sending :=
  match s.handler with
  | .idle =>
      some (if pressesButton1 buttonState hasChanged then
        { s with
          handler := .firstSleep
          tx := { s.tx with recorder := fillButtonHeader s.tx.recorder } }
      else s)
  | .firstSleep | .secondSleep => none

/-- The handler leaves one of its sleeps; behind the second one it publishes the packet. -/
def wakeHandler (s : Sending) : Option Sending :=
  match s.handler with
  | .idle => none
  | .firstSleep => some { s with handler := .secondSleep }
  | .secondSleep =>
      some { s with
        handler := .idle
        handlerPublished := s.handlerPublished ++ [s.tx.recorder.seedPacket] }

/-! ## Steps -/

def step (s : Sending) : SendEvent → Option Sending
  | .advance => s.advance
  | .read bytes =>
      match s.phase with
      | .reading slot => some (s.takeRead slot bytes)
      | _ => none
  | .publish result => if s.phase = .publishing then some (s.finishPublish result) else none
  | .button buttonState hasChanged =>
      if s.phase.sleeping then s.buttonHandler buttonState hasChanged else none
  | .handlerWake => if s.phase.sleeping then s.wakeHandler else none

/-- What a step can do. -/
inductive Moved (s : Sending) : SendEvent → Sending → Prop where
  | beginPacket (hphase : s.phase = .packetLoop) : Moved s .advance s.beginPacket
  | chooseSource (hphase : s.phase = .headerSleep) : Moved s .advance s.chooseSource
  | copyFromRing (hphase : s.phase = .ringSleep) : Moved s .advance s.copyFromRing
  | nextSleep (slot : ℕ) (sleeps rest : List ℕ) (hphase : s.phase = .retrySleep slot sleeps) :
      Moved s .advance { s with phase := .retrySleep slot rest }
  | afterRetry (slot : ℕ) (sleeps : List ℕ) (hphase : s.phase = .retrySleep slot sleeps) :
      Moved s .advance (s.afterRetry slot)
  | takeRead (slot : ℕ) (bytes : List Byte) (hphase : s.phase = .reading slot) :
      Moved s (.read bytes) (s.takeRead slot bytes)
  | finishPublish (result : ℤ) (hphase : s.phase = .publishing) :
      Moved s (.publish result) (s.finishPublish result)
  | pressed (buttonState hasChanged : UInt32) (hphase : s.phase.sleeping = true)
      (hpress : pressesButton1 buttonState hasChanged) :
      Moved s (.button buttonState hasChanged)
        { s with
          handler := .firstSleep
          tx := { s.tx with recorder := fillButtonHeader s.tx.recorder } }
  | otherButton (buttonState hasChanged : UInt32)
      (hpress : ¬ pressesButton1 buttonState hasChanged) :
      Moved s (.button buttonState hasChanged) s
  | wakeHandler (handler : HandlerPhase) (handlerPublished : List SeedPacket) :
      Moved s .handlerWake { s with handler := handler, handlerPublished := handlerPublished }

theorem moved_of_step {s next : Sending} {event : SendEvent} (h : s.step event = some next) :
    s.Moved event next := by
  cases event with
  | advance =>
    simp only [step, advance] at h
    split at h
    · rename_i hphase
      exact Option.some.inj h ▸ .beginPacket hphase
    · rename_i hphase
      exact Option.some.inj h ▸ .chooseSource hphase
    · rename_i hphase
      exact Option.some.inj h ▸ .copyFromRing hphase
    · rename_i hphase
      exact Option.some.inj h ▸ .nextSleep _ _ _ hphase
    · rename_i hphase
      exact Option.some.inj h ▸ .afterRetry _ _ hphase
    all_goals cases h
  | read bytes =>
    simp only [step] at h
    split at h
    · rename_i hphase
      exact Option.some.inj h ▸ .takeRead _ bytes hphase
    · cases h
  | publish result =>
    obtain ⟨hphase, heq⟩ := Option.ite_none_right_eq_some.mp h
    exact Option.some.inj heq ▸ .finishPublish result hphase
  | button buttonState hasChanged =>
    obtain ⟨hphase, heq⟩ := Option.ite_none_right_eq_some.mp h
    simp only [buttonHandler] at heq
    split at heq
    · by_cases hpress : pressesButton1 buttonState hasChanged
      · rw [if_pos hpress] at heq
        exact Option.some.inj heq ▸ .pressed _ _ hphase hpress
      · rw [if_neg hpress] at heq
        exact Option.some.inj heq ▸ .otherButton _ _ hpress
    all_goals cases heq
  | handlerWake =>
    obtain ⟨hphase, heq⟩ := Option.ite_none_right_eq_some.mp h
    simp only [wakeHandler] at heq
    split at heq
    · cases heq
    · exact Option.some.inj heq ▸ .wakeHandler _ _
    · exact Option.some.inj heq ▸ .wakeHandler _ _

/-- What every step leaves alone; only a read adds to the addresses read. -/
theorem frame_of_step {s next : Sending} {event : SendEvent} (h : s.step event = some next) :
    next.total = s.total ∧
      next.tx.recorder.recordBeginUnixTimeS = s.tx.recorder.recordBeginUnixTimeS ∧
      next.tx.reads = s.tx.reads ++ event.readsAt s.tx.recorder.flashAddressRead := by
  cases moved_of_step h with
  | beginPacket hphase =>
    unfold beginPacket
    split
    · exact ⟨rfl, rfl, (List.append_nil _).symm⟩
    · exact ⟨rfl, rfl, (List.append_nil _).symm⟩
  | chooseSource hphase =>
    unfold chooseSource
    split
    · exact ⟨rfl, rfl, (List.append_nil _).symm⟩
    · exact ⟨rfl, rfl, (List.append_nil _).symm⟩
  | afterRetry slot sleeps hphase =>
    unfold afterRetry
    dsimp only
    split
    · exact ⟨rfl, rfl, (List.append_nil _).symm⟩
    · exact ⟨rfl, rfl, (List.append_nil _).symm⟩
  | takeRead slot bytes hphase =>
    unfold takeRead
    dsimp only
    split
    · exact ⟨rfl, rfl, rfl⟩
    · exact ⟨rfl, rfl, rfl⟩
  | finishPublish result hphase =>
    unfold finishPublish
    dsimp only
    split
    · exact ⟨rfl, rfl, (List.append_nil _).symm⟩
    · exact ⟨rfl, rfl, (List.append_nil _).symm⟩
  | copyFromRing | nextSleep | pressed | otherButton | wakeHandler =>
    exact ⟨rfl, rfl, (List.append_nil _).symm⟩

end Sending

end NrfExamples.MqttWorking
