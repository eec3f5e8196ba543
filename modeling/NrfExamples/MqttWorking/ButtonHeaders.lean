import NrfExamples.MqttWorking.PacketContents
import NrfExamples.MqttWorking.SenderRuns
import NrfExamples.MqttWorking.Transmission

/-!
# Headers and the button

The sender writes the header of a packet and then sleeps before it publishes the packet. A press of
button 1 during such a sleep overwrites the header. The published packets carry their own headers
exactly if no press falls into a sleep of the sender, or if the header of the handler is the right
one: the recording has one packet and began at the time that the handler writes.
-/

namespace NrfExamples.MqttWorking

open Trace
open Measurement (shortRecording recorded_shortRecording)

/-! ## Headers -/

/-- The header fields that identify a packet. -/
structure Header where
  actualPacketNr : ℕ
  totalPacketNr : ℕ
  timestamp : UInt32
  trainCounter : UInt16
deriving DecidableEq

def SeedPacket.header (packet : SeedPacket) : Header :=
  ⟨packet.actualPacketNr, packet.totalPacketNr, packet.timestamp, packet.trainCounter⟩

/-- The first headers of a recording: the packets are numbered from one and agree otherwise. -/
def ownHeaders (recorder : Recorder) (trainCounter : UInt16) (count : ℕ) : List Header :=
  (List.range' 1 count).map fun nr ↦
    ⟨nr, totalPacketToSend recorder, recorder.recordBeginUnixTimeS, trainCounter⟩

def HeadersKept (recorder : Recorder) (headers : List Header) : Prop :=
  ∃ trainCounter, headers = ownHeaders recorder trainCounter headers.length

@[simp]
theorem length_ownHeaders (recorder : Recorder) (trainCounter : UInt16) (count : ℕ) :
    (ownHeaders recorder trainCounter count).length = count := by
  rw [ownHeaders, List.length_map, List.length_range']

theorem ownHeaders_succ (recorder : Recorder) (trainCounter : UInt16) (count : ℕ) :
    ownHeaders recorder trainCounter (count + 1) = ownHeaders recorder trainCounter count ++
      [⟨count + 1, totalPacketToSend recorder, recorder.recordBeginUnixTimeS, trainCounter⟩] := by
  rw [ownHeaders, List.range'_concat, List.map_append, Nat.one_mul, Nat.add_comm 1]
  rfl

theorem HeadersKept.of_beginning {recorder : Recorder} {headers all : List Header}
    (h : HeadersKept recorder all) (hbegins : headers <+: all) : HeadersKept recorder headers := by
  obtain ⟨trainCounter, hall⟩ := h
  refine ⟨trainCounter, ?_⟩
  calc
    headers = all.take headers.length := List.prefix_iff_eq_take.mp hbegins
    _ = ownHeaders recorder trainCounter headers.length := by
      rw [hall, ownHeaders, ← List.map_take, List.take_range'_of_length_ge hbegins.length_le]
      rfl

/-! ## The headers of the packets begun -/

def SendEvent.Presses : SendEvent → Prop
  | .button buttonState hasChanged => Sending.pressesButton1 buttonState hasChanged
  | _ => False

/-- A press is harmless where the header of the handler is that of the only packet. -/
def SendEvent.Harmless (recorder : Recorder) (event : SendEvent) : Prop :=
  event.Presses → totalPacketToSend recorder = 1 ∧ recorder.recordBeginUnixTimeS = 1748277406

/-- A packet is under way from its header to its publish. -/
def SenderPhase.filling : SenderPhase → Bool
  | .headerSleep | .ringSleep | .reading _ | .retrySleep _ _ | .publishing => true
  | .packetLoop | .done => false

namespace Sending

/-- The headers of the published packets and of the packet under way. -/
def headers (s : Sending) : List Header :=
  s.tx.published.map SeedPacket.header ++
    if s.phase.filling then [s.tx.recorder.seedPacket.header] else []

theorem published_begins_headers (s : Sending) :
    s.tx.published.map SeedPacket.header <+: s.headers := List.prefix_append _ _

theorem headers_of_idle {s : Sending} (h : s.phase.filling = false) :
    s.headers = s.tx.published.map SeedPacket.header := by
  rw [headers, h, if_neg Bool.false_ne_true, List.append_nil]

theorem headers_of_filling {s : Sending} (h : s.phase.filling = true) :
    s.headers = s.tx.published.map SeedPacket.header ++ [s.tx.recorder.seedPacket.header] := by
  rw [headers, if_pos h]

/-- What a step does to the headers. -/
inductive HeaderMoved (s : Sending) (event : SendEvent) (next : Sending) : Prop where
  | begins (hphase : s.phase = .packetLoop) (hle : s.pcktCnt ≤ s.total)
      (headers_eq : next.headers = s.headers ++ [⟨s.pcktCnt, s.total,
        s.tx.recorder.recordBeginUnixTimeS, s.tx.recorder.trainCounter⟩])
      (pcktCnt_eq : next.pcktCnt = s.pcktCnt + 1)
      (trainCounter_eq : next.tx.recorder.trainCounter = s.tx.recorder.trainCounter)
  | keeps (headers_eq : next.headers = s.headers)
      (pcktCnt_eq : next.pcktCnt = s.pcktCnt)
      (trainCounter_eq : next.phase ≠ .done →
        next.tx.recorder.trainCounter = s.tx.recorder.trainCounter)
  | overwrites (hpress : event.Presses) (others : List Header) (last : Header)
      (hheaders : s.headers = others ++ [last])
      (headers_eq : next.headers = others ++ [⟨1, 1, 1748277406, s.tx.recorder.trainCounter⟩])
      (pcktCnt_eq : next.pcktCnt = s.pcktCnt)

/-- A step inside a packet that leaves the header alone. -/
theorem HeaderMoved.of_filling {s next : Sending} {event : SendEvent}
    (hphase : s.phase.filling = true) (hnext : next.phase.filling = true)
    (hpublished : next.tx.published = s.tx.published)
    (hheader : next.tx.recorder.seedPacket.header = s.tx.recorder.seedPacket.header)
    (hpcktCnt : next.pcktCnt = s.pcktCnt)
    (htrainCounter : next.tx.recorder.trainCounter = s.tx.recorder.trainCounter) :
    HeaderMoved s event next :=
  .keeps (by rw [headers_of_filling hnext, headers_of_filling hphase, hpublished, hheader])
    hpcktCnt fun _ ↦ htrainCounter

theorem filling_of_sleeping {phase : SenderPhase} (h : phase.sleeping = true) :
    phase.filling = true := by
  cases phase with
  | headerSleep | ringSleep | retrySleep => rfl
  | packetLoop | reading | publishing | done => exact absurd h Bool.false_ne_true

theorem filling_nextSlot (slot : ℕ) : (nextSlot slot).filling = true := by
  unfold nextSlot
  split
  · rfl
  · rfl

theorem headerMoved_beginPacket {s : Sending} {event : SendEvent} (hphase : s.phase = .packetLoop) :
    HeaderMoved s event s.beginPacket := by
  have hidle : s.headers = s.tx.published.map SeedPacket.header :=
    headers_of_idle (congrArg SenderPhase.filling hphase)
  by_cases hle : s.pcktCnt ≤ s.total
  · rw [beginPacket, if_pos hle]
    refine .begins hphase hle ?_ rfl rfl
    rw [headers_of_filling rfl, hidle]
    rfl
  · rw [beginPacket, if_neg hle]
    refine .keeps ?_ rfl fun hne ↦ absurd rfl hne
    rw [headers_of_idle rfl, hidle]

theorem headerMoved_finishPublish {s : Sending} {event : SendEvent} (result : ℤ)
    (hphase : s.phase = .publishing) : HeaderMoved s event (s.finishPublish result) := by
  have hfilling : s.headers = s.tx.published.map SeedPacket.header ++
      [s.tx.recorder.seedPacket.header] := headers_of_filling (congrArg SenderPhase.filling hphase)
  by_cases hresult : result ≠ 0
  · rw [finishPublish, if_pos hresult]
    refine .keeps ?_ rfl fun _ ↦ rfl
    rw [headers_of_idle rfl, hfilling]
    exact List.map_append
  · rw [finishPublish, if_neg hresult]
    refine .keeps ?_ rfl fun _ ↦ rfl
    rw [headers_of_idle rfl, hfilling]
    exact List.map_append

theorem headerMoved_of_step {s next : Sending} {event : SendEvent} (h : s.step event = some next) :
    HeaderMoved s event next := by
  cases moved_of_step h with
  | beginPacket hphase => exact headerMoved_beginPacket hphase
  | finishPublish result hphase => exact headerMoved_finishPublish result hphase
  | chooseSource hphase =>
    have hfilling : s.phase.filling = true := congrArg SenderPhase.filling hphase
    by_cases hflag : s.tx.recorder.ring.circBuffOverflow = true
    · rw [chooseSource, if_pos hflag]
      exact .of_filling hfilling rfl rfl rfl rfl rfl
    · rw [chooseSource, if_neg hflag]
      exact .of_filling hfilling rfl rfl rfl rfl rfl
  | copyFromRing hphase =>
    have hfilling : s.phase.filling = true := congrArg SenderPhase.filling hphase
    exact .of_filling hfilling rfl rfl rfl rfl rfl
  | nextSleep slot sleeps rest hphase =>
    have hfilling : s.phase.filling = true := congrArg SenderPhase.filling hphase
    exact .of_filling hfilling rfl rfl rfl rfl rfl
  | afterRetry slot sleeps hphase =>
    have hfilling : s.phase.filling = true := congrArg SenderPhase.filling hphase
    by_cases hlimit : s.tx.recorder.crcErrCounter > 100
    · rw [afterRetry, if_pos hlimit]
      exact .of_filling hfilling (filling_nextSlot slot) rfl rfl rfl rfl
    · rw [afterRetry, if_neg hlimit]
      exact .of_filling hfilling rfl rfl rfl rfl rfl
  | takeRead slot bytes hphase =>
    have hfilling : s.phase.filling = true := congrArg SenderPhase.filling hphase
    by_cases hcrc : crcMatches bytes = true
    · rw [takeRead, if_pos hcrc]
      exact .of_filling hfilling (filling_nextSlot slot) rfl rfl rfl rfl
    · rw [takeRead, if_neg hcrc]
      exact .of_filling hfilling rfl rfl rfl rfl rfl
  | pressed buttonState hasChanged hphase hpress =>
    have hfilling : s.phase.filling = true := filling_of_sleeping hphase
    refine .overwrites hpress _ _ (headers_of_filling hfilling) ?_ rfl
    exact headers_of_filling hfilling
  | otherButton buttonState hasChanged hpress => exact .keeps rfl rfl fun _ ↦ rfl
  | wakeHandler handler handlerPublished => exact .keeps rfl rfl fun _ ↦ rfl

/-- Nothing follows the end of the sender. -/
theorem ne_done_of_step {s next : Sending} {event : SendEvent} (h : s.step event = some next) :
    s.phase ≠ .done := by
  intro hdone
  cases event with
  | advance | read | publish | button | handlerWake =>
    simp [step, advance, hdone, SenderPhase.sleeping] at h

/-! ## Harmless runs -/

/-- The headers begun so far are the right ones. Behind the last packet the train counter no longer
matters. -/
structure Orderly (recorder : Recorder) (s : Sending) : Prop where
  total_eq : s.total = totalPacketToSend recorder
  recordBegin_eq : s.tx.recorder.recordBeginUnixTimeS = recorder.recordBeginUnixTimeS
  headers_eq : ∃ trainCounter count, s.headers = ownHeaders recorder trainCounter count ∧
    count ≤ totalPacketToSend recorder ∧ (s.phase ≠ .done → s.pcktCnt = count + 1 ∧
      (count < totalPacketToSend recorder → s.tx.recorder.trainCounter = trainCounter))

theorem orderly_start (recorder : Recorder) (handler : HandlerPhase) :
    Orderly recorder (start recorder handler) where
  total_eq := rfl
  recordBegin_eq := rfl
  headers_eq := ⟨recorder.trainCounter, 0, rfl, Nat.zero_le _, fun _ ↦ ⟨rfl, fun _ ↦ rfl⟩⟩

variable {recorder : Recorder} {s next final : Sending} {event : SendEvent}
  {handler : HandlerPhase} {events : List SendEvent}

theorem Orderly.step (h : Orderly recorder s) (hharmless : event.Harmless recorder)
    (hstep : s.step event = some next) : Orderly recorder next := by
  obtain ⟨htotal, hrecordBegin, _⟩ := frame_of_step hstep
  obtain ⟨trainCounter, count, hheaders, hle, hawake⟩ := h.headers_eq
  obtain ⟨hpcktCnt, hcounter⟩ := hawake (ne_done_of_step hstep)
  refine ⟨htotal.trans h.total_eq, hrecordBegin.trans h.recordBegin_eq, ?_⟩
  cases headerMoved_of_step hstep with
  | begins _ hloop hnext hpcktCnt' hcounter' =>
    have hlt : count < totalPacketToSend recorder := by
      rw [← h.total_eq]
      omega
    refine ⟨trainCounter, count + 1, ?_, hlt, fun _ ↦ ⟨by omega, fun _ ↦ ?_⟩⟩
    · rw [hnext, hheaders, ownHeaders_succ, hpcktCnt, h.total_eq, h.recordBegin_eq, hcounter hlt]
    · exact hcounter'.trans (hcounter hlt)
  | keeps hnext hpcktCnt' hcounter' =>
    refine ⟨trainCounter, count, hnext.trans hheaders, hle, fun hphase ↦ ⟨?_, fun hlt ↦ ?_⟩⟩
    · exact hpcktCnt'.trans hpcktCnt
    · exact (hcounter' hphase).trans (hcounter hlt)
  | overwrites hpress others last hlast hnext hpcktCnt' =>
    -- the only packet: its header keeps the count and the time, and gets a counter of its own
    obtain ⟨hone, htime⟩ := hharmless hpress
    have hlength : others.length + 1 = count := by
      rw [← length_ownHeaders recorder trainCounter count, ← hheaders, hlast, List.length_append]
      rfl
    have hothers : others = [] := List.eq_nil_of_length_eq_zero (by omega)
    refine ⟨s.tx.recorder.trainCounter, 1, ?_, hone.ge, fun _ ↦ ⟨?_, fun hlt ↦ ?_⟩⟩
    · rw [hnext, hothers, ownHeaders, hone, htime]
      rfl
    · omega
    · omega

/-- In a run whose presses are harmless, all packets published so far carry their own headers. -/
theorem headersKept_of_harmless (hrun : run step (start recorder handler) events = some final)
    (hharmless : ∀ event ∈ events, event.Harmless recorder) :
    HeadersKept recorder (final.tx.published.map SeedPacket.header) := by
  have horderly : Orderly recorder final :=
    run_invariant_of_along (fun _ _ _ hallowed h hstep ↦ h.step hallowed hstep)
      (orderly_start recorder handler) (along_of_forall hharmless) hrun
  obtain ⟨trainCounter, count, hheaders, _⟩ := horderly.headers_eq
  have hkept : HeadersKept recorder final.headers := by
    refine ⟨trainCounter, ?_⟩
    rw [hheaders, length_ownHeaders]
  exact hkept.of_beginning final.published_begins_headers

/-! ## Presses -/

/-- One of the packets begun carries the header of the handler. -/
def Overwritten (s : Sending) : Prop :=
  ∃ header ∈ s.headers, header.totalPacketNr = 1 ∧ header.timestamp = 1748277406

theorem overwritten_of_press (hpress : event.Presses) (hstep : s.step event = some next) :
    next.Overwritten := by
  cases moved_of_step hstep with
  | pressed buttonState hasChanged hphase =>
    refine ⟨(fillButtonHeader s.tx.recorder).seedPacket.header, ?_, rfl, rfl⟩
    rw [headers_of_filling (by exact filling_of_sleeping hphase)]
    exact List.mem_append_right _ (List.mem_singleton_self _)
  | otherButton buttonState hasChanged hother => exact absurd hpress hother
  | beginPacket | chooseSource | copyFromRing | nextSleep | afterRetry | takeRead | finishPublish
  | wakeHandler => exact absurd hpress not_false

theorem Overwritten.step (h : s.Overwritten) (hstep : s.step event = some next) :
    next.Overwritten := by
  obtain ⟨header, hmem, hheader⟩ := h
  cases headerMoved_of_step hstep with
  | begins _ _ hnext =>
    rw [Overwritten, hnext]
    exact ⟨header, List.mem_append_left _ hmem, hheader⟩
  | keeps hnext =>
    rw [Overwritten, hnext]
    exact ⟨header, hmem, hheader⟩
  | overwrites _ others last _ hnext =>
    rw [Overwritten, hnext]
    exact ⟨_, List.mem_append_right others (List.mem_singleton_self _), rfl, rfl⟩

theorem overwritten_of_run (hrun : run step s events = some final) (hmem : event ∈ events)
    (hpress : event.Presses) : final.Overwritten := by
  obtain ⟨earlier, later, rfl⟩ := List.append_of_mem hmem
  rw [run_append] at hrun
  obtain ⟨reached, _, hrest⟩ := Option.bind_eq_some_iff.mp hrun
  obtain ⟨next, hstep, hlater⟩ := Option.bind_eq_some_iff.mp hrest
  exact run_invariant (fun _ _ _ h hstep ↦ h.step hstep) (overwritten_of_press hpress hstep) hlater

/-- Among right headers one of the handler is the only one. -/
theorem Overwritten.of_kept (h : s.Overwritten) (hdone : s.phase = .done)
    (hkept : HeadersKept recorder (s.tx.published.map SeedPacket.header)) :
    totalPacketToSend recorder = 1 ∧ recorder.recordBeginUnixTimeS = 1748277406 := by
  obtain ⟨header, hmem, htotal, htime⟩ := h
  obtain ⟨trainCounter, hheaders⟩ := hkept
  rw [headers_of_idle (congrArg SenderPhase.filling hdone), hheaders] at hmem
  obtain ⟨nr, _, rfl⟩ := List.mem_map.mp hmem
  exact ⟨htotal, htime⟩

/-- The packets of a complete transmission carry their own headers exactly if every press in it is
harmless. -/
theorem headersKept_iff (recorder : Recorder) (handler : HandlerPhase) (events : List SendEvent)
    (final : Sending) (hrun : run step (start recorder handler) events = some final)
    (hdone : final.phase = .done) :
    HeadersKept recorder (final.tx.published.map SeedPacket.header) ↔
      ∀ event ∈ events, event.Harmless recorder := by
  constructor
  · intro hkept event hmem hpress
    exact (overwritten_of_run hrun hmem hpress).of_kept hdone hkept
  · exact headersKept_of_harmless hrun

/-! ## The train counter -/

/-- All headers begun carry the same train counter, and so will the next one. -/
structure Counted (trainCounter : UInt16) (s : Sending) : Prop where
  headers : ∀ header ∈ s.headers, header.trainCounter = trainCounter
  next : s.phase ≠ .done → s.tx.recorder.trainCounter = trainCounter

theorem Counted.step {trainCounter : UInt16} (h : Counted trainCounter s)
    (hquiet : ¬ event.Presses) (hstep : s.step event = some next) : Counted trainCounter next := by
  have hcounter := h.next (ne_done_of_step hstep)
  cases headerMoved_of_step hstep with
  | begins _ _ hnext _ hcounter' =>
    refine ⟨fun header hmem ↦ ?_, fun _ ↦ hcounter'.trans hcounter⟩
    rw [hnext] at hmem
    cases List.mem_append.mp hmem with
    | inl hearlier => exact h.headers header hearlier
    | inr hlast =>
      rw [List.mem_singleton.mp hlast]
      exact hcounter
  | keeps hnext _ hcounter' =>
    refine ⟨fun header hmem ↦ ?_, fun hphase ↦ (hcounter' hphase).trans hcounter⟩
    rw [hnext] at hmem
    exact h.headers header hmem
  | overwrites hpress => exact absurd hpress hquiet

/-- The sender alone gives every packet the train counter of the recorder. -/
theorem trainCounter_published (env : SendEnv) (recorder : Recorder) :
    ∀ packet ∈ (sendMeasuredTrainDataWithMultiplePacketsFromFlash env recorder).published,
      packet.trainCounter = recorder.trainCounter := by
  obtain ⟨final, ⟨events, hrun, hserved⟩, _, htx⟩ := reaches_transmission env recorder .idle
  have hquiet : Along step (fun _ event ↦ ¬ event.Presses) (start recorder .idle) events := by
    refine hserved.mono fun s event hevent hpress ↦ ?_
    cases event with
    | button => exact hevent
    | advance | read | publish | handlerWake => exact hpress
  have hcounted : Counted recorder.trainCounter final :=
    run_invariant_of_along (fun _ _ _ hquiet h hstep ↦ h.step hquiet hstep)
      ⟨fun _ hmem ↦ absurd hmem List.not_mem_nil, fun _ ↦ rfl⟩ hquiet hrun
  intro packet hpacket
  rw [← htx] at hpacket
  exact hcounted.headers packet.header
    (List.mem_append_left _ (List.mem_map_of_mem hpacket))

/-! ## A press at the first sleep -/

def afterPress (s : Sending) : Sending :=
  { s with
    handler := .firstSleep
    tx := { s.tx with recorder := fillButtonHeader s.tx.recorder } }

theorem step_button (hsleeping : s.phase.sleeping = true) (hidle : s.handler = .idle) :
    s.step (.button 1 1) = some s.afterPress := by
  have hpress : pressesButton1 1 1 := by decide
  rw [step, if_pos hsleeping, buttonHandler, hidle]
  exact congrArg some (if_pos hpress)

/-- The state behind a press at the sleep that follows the first header. -/
def pressedAtFirst (recorder : Recorder) : Sending := (start recorder .idle).beginPacket.afterPress

theorem run_pressedAtFirst (htotal : 1 ≤ totalPacketToSend recorder) :
    run step (start recorder .idle) [.advance, .button 1 1] = some (pressedAtFirst recorder) := by
  have hbegun : (start recorder .idle).beginPacket.phase = .headerSleep ∧
      (start recorder .idle).beginPacket.handler = .idle := by
    rw [beginPacket, if_pos (by exact htotal)]
    exact ⟨rfl, rfl⟩
  calc
    run step (start recorder .idle) [.advance, .button 1 1] =
        run step (start recorder .idle).beginPacket [.button 1 1] := rfl
    _ = some (pressedAtFirst recorder) := by
      rw [run_cons, step_button (by rw [hbegun.1]; rfl) hbegun.2]
      rfl

/-- The sender goes on behind the press and sends the whole recording. -/
theorem reaches_pressedAtFirst (env : SendEnv) (hpublish : ∀ k, env.publish k = 0)
    (hflag : recorder.ring.circBuffOverflow = true) (htotal : 1 ≤ totalPacketToSend recorder) :
    ∃ final, Reaches env (pressedAtFirst recorder) final ∧ final.phase = .done := by
  have hpressed : (pressedAtFirst recorder).phase = .headerSleep ∧
      (pressedAtFirst recorder).tx.recorder.ring.circBuffOverflow = true := by
    rw [pressedAtFirst, afterPress, beginPacket, if_pos (by exact htotal)]
    exact ⟨rfl, hflag⟩
  have hchoose : (pressedAtFirst recorder).step .advance =
      some (pressedAtFirst recorder).chooseSource := by
    simp only [step, advance, hpressed.1]
  have hring : (pressedAtFirst recorder).chooseSource.phase = .ringSleep := by
    rw [chooseSource, if_pos hpressed.2]
  have hcopy : (pressedAtFirst recorder).chooseSource.step .advance =
      some (pressedAtFirst recorder).chooseSource.copyFromRing := by
    simp only [step, advance, hring]
  have hfilled : Reaches env (pressedAtFirst recorder).chooseSource.copyFromRing
      ((pressedAtFirst recorder).chooseSource.copyFromRing.finishPublish (env.publish _)) :=
    reaches_finishPublish env rfl
  rw [hpublish] at hfilled
  have hnext : ((pressedAtFirst recorder).chooseSource.copyFromRing.finishPublish 0).phase =
      .packetLoop := by
    rw [finishPublish, if_neg (by decide)]
  obtain ⟨_, _, hrest⟩ := reaches_sendPackets env _ _ _ _ hnext rfl rfl rfl
  exact ⟨_, reaches_of_advance hchoose (reaches_of_advance hcopy (hfilled.trans hrest)), rfl⟩

theorem exists_pressed_run (hflag : recorder.ring.circBuffOverflow = true)
    (htotal : 1 ≤ totalPacketToSend recorder) : ∃ events final,
    run step (start recorder .idle) events = some final ∧ final.phase = .done ∧
      SendEvent.button 1 1 ∈ events := by
  obtain ⟨final, ⟨events, hrun, _⟩, hdone⟩ :=
    reaches_pressedAtFirst (workingEnv recorder.psram) (fun _ ↦ rfl) hflag htotal
  refine ⟨[.advance, .button 1 1] ++ events, final, ?_, hdone, ?_⟩
  · rw [run_append, run_pressedAtFirst htotal, Option.bind_some, hrun]
  · exact List.mem_append_left events (List.mem_cons_of_mem _ (List.mem_singleton_self _))

theorem totalPacketToSend_shortRecording : totalPacketToSend shortRecording = 2 :=
  totalPacketToSend_eq recorded_shortRecording (by decide)

theorem headersKept_iff_pressed : ∃ events final,
    run step (start shortRecording .idle) events = some final ∧ final.phase = .done ∧
      (HeadersKept shortRecording (final.tx.published.map SeedPacket.header) ↔
        ∀ event ∈ events, event.Harmless shortRecording) := by
  obtain ⟨events, final, hrun, hdone, _⟩ := exists_pressed_run recorded_shortRecording.overflow
    (by rw [totalPacketToSend_shortRecording]; decide)
  exact ⟨events, final, hrun, hdone, headersKept_iff shortRecording .idle events final hrun hdone⟩

/-- A press at the sleep behind the first header of a recording with two packets. -/
theorem not_headersKept_pressed :
    ¬ ∀ (recorder : Recorder) (handler : HandlerPhase) (events : List SendEvent) (final : Sending),
      run step (start recorder handler) events = some final → final.phase = .done →
        HeadersKept recorder (final.tx.published.map SeedPacket.header) := by
  intro hall
  obtain ⟨events, final, hrun, hdone, hmem⟩ := exists_pressed_run recorded_shortRecording.overflow
    (by rw [totalPacketToSend_shortRecording]; decide)
  have hpress : pressesButton1 1 1 := by decide
  have hone := (overwritten_of_run hrun hmem hpress).of_kept hdone
    (hall shortRecording .idle events final hrun hdone)
  rw [totalPacketToSend_shortRecording] at hone
  exact absurd hone.1 (by decide)

end Sending

end NrfExamples.MqttWorking
