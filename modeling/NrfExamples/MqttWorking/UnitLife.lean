import NrfExamples.MqttWorking.ButtonHeaders
import NrfExamples.MqttWorking.PendingData

/-!
# The life of the unit

A life is a sequence of boots. The emulated EEPROM, the PSRAM and the retained log outlive a
reboot, every other variable starts from its initial value. The train counter is such a variable,
and a boot makes one recording, so every recording is transmitted with the train counter zero.
-/

namespace NrfExamples.MqttWorking

open Memory Measurement Trace

/-! ## Transmissions of a boot -/

def Effect.transmitted : Effect → Option (List SeedPacket)
  | .transmission published => some published
  | _ => none

theorem Effect.transmission_of_transmitted {effect : Effect} {published : List SeedPacket}
    (h : effect.transmitted = some published) : effect = .transmission published := by
  cases effect with
  | transmission other => exact congrArg Effect.transmission (Option.some.inj h)
  | mqttDisconnect | lteOffline | modemShutdown | eepromWrite | logPublish | alivePublish
  | telemetry => cases h

/-! ## The train counter within a boot -/

def Stage.beforeRecording : Stage → Bool
  | .boot | .remoteConfig | .measuring => true
  | .secondInit | .dataStage | .ended => false

namespace Program

/-- The recordings that a step transmits. -/
def transmissions (program : Program) : Event → List (List SeedPacket)
  | .poll env => (mqttPoolingProcedure env program.unit).effects.filterMap Effect.transmitted
  | _ => []

/-- Up to its only transmission a boot has counted no recording, and what is pending then is a
complete recording. -/
structure Uncounted (program : Program) : Prop where
  early : program.stage.beforeRecording = true →
    program.unit.dataReadyToSend = false ∧ program.unit.recorder.trainCounter = 0
  pending : program.unit.dataReadyToSend = true → program.unit.recorder.trainCounter = 0 ∧
    ∃ before after, Recorded program.unit.recorder before after ∧ after.length ≤ maxRecordedFrames

theorem uncounted_boot (settings : Settings) (psram : Store) (logRam : List Byte) :
    Uncounted (boot settings psram logRam) where
  early _ := ⟨rfl, rfl⟩
  pending hready := absurd hready Bool.false_ne_true

theorem initModemAndMqtt_recorder (libInit : ℤ) (unit : UnitState) :
    (initModemAndMqtt libInit unit).recorder = unit.recorder := by
  unfold initModemAndMqtt
  split
  · rfl
  · rfl

variable {program next : Program} {event : Event}

theorem Uncounted.step_initModem {libInit : ℤ} (h : Uncounted program)
    (hstep : step program (.initModem libInit) = some next) : Uncounted next := by
  have hready := (initModemAndMqtt_data libInit program.unit).1
  have hrecorder := initModemAndMqtt_recorder libInit program.unit
  rcases Program.step_initModem hstep with ⟨hstage, rfl⟩ | ⟨hstage, rfl⟩
  · constructor
    · intro _
      rw [hready, hrecorder]
      exact h.early (by rw [hstage]; rfl)
    · rw [hready, hrecorder]
      exact h.pending
  · constructor
    · intro hearly
      exact absurd hearly Bool.false_ne_true
    · simp only [hready, hrecorder]
      exact h.pending

theorem Uncounted.step_poll {env : PollEnv} (h : Uncounted program)
    (hstep : step program (.poll env) = some next) : Uncounted next := by
  obtain ⟨hpolling, hunit, hstage⟩ := Program.step_poll hstep
  have hearly : next.stage.beforeRecording = true → program.stage.beforeRecording = true := by
    rcases hstage with hsame | hended | ⟨hremote, _⟩
    · rw [hsame]
      exact id
    · rw [hended]
      exact fun hfalse ↦ absurd hfalse Bool.false_ne_true
    · rw [hremote]
      exact fun _ ↦ rfl
  rcases recorder_of_call env program.unit with ⟨hready, hrecorder⟩ | ⟨hready, hcleared⟩
  · constructor
    · intro hbefore
      rw [hunit, hready, hrecorder]
      exact h.early (hearly hbefore)
    · rw [hunit, hready, hrecorder]
      exact h.pending
  · constructor
    · intro hbefore
      exact absurd ((h.early (hearly hbefore)).1.symm.trans hready) Bool.false_ne_true
    · intro hpending
      rw [hunit, hcleared] at hpending
      exact absurd hpending Bool.false_ne_true

/-- The recorder behind a measurement is that of the machine. -/
theorem recorder_of_measure {now : UInt32} {frames : List Processed}
    (hstep : step program (.measure now frames) = some next) :
    ((start program.unit.recorder).run program.unit.settings now frames).phase = .finished ∧
      next = ⟨.secondInit, dataReady
        ((start program.unit.recorder).run program.unit.settings now frames).recorder
        program.unit⟩ := by
  have hstage := (Program.step_measure hstep).1
  simp only [Program.step, hstage] at hstep
  obtain ⟨hphase, hnext⟩ := Option.ite_none_right_eq_some.mp hstep
  exact ⟨hphase, (Option.some.inj hnext).symm⟩

theorem Uncounted.step_measure {now : UInt32} {frames : List Processed} (h : Uncounted program)
    (hstep : step program (.measure now frames) = some next) : Uncounted next := by
  have hstage := (Program.step_measure hstep).1
  obtain ⟨hphase, rfl⟩ := recorder_of_measure hstep
  obtain ⟨before, after, hfinished⟩ := exists_finishedAfter program.unit.recorder hphase
  constructor
  · intro hearly
    exact absurd hearly Bool.false_ne_true
  · intro _
    have hcounter : program.unit.recorder.trainCounter = 0 := (h.early (by rw [hstage]; rfl)).2
    exact ⟨(trainCounter_run frames).trans hcounter, before, after, hfinished.recorded,
      hfinished.length_le⟩

theorem Uncounted.step (h : Uncounted program) (hstep : step program event = some next) :
    Uncounted next := by
  cases event with
  | initModem libInit => exact h.step_initModem hstep
  | poll env => exact h.step_poll hstep
  | measure now frames => exact h.step_measure hstep

/-- Packets that carry the train counter of a unit that has not counted yet. -/
def ZeroCounted (published : List SeedPacket) : Prop :=
  published ≠ [] ∧ ∀ packet ∈ published, packet.trainCounter = 0

theorem Uncounted.transmissions (h : Uncounted program) :
    ∀ published ∈ transmissions program event, ZeroCounted published := by
  cases event with
  | initModem | measure => exact fun _ hmem ↦ absurd hmem List.not_mem_nil
  | poll env =>
    intro published hmem
    obtain ⟨effect, heffect, htransmitted⟩ := List.mem_filterMap.mp hmem
    rw [Effect.transmission_of_transmitted htransmitted] at heffect
    obtain ⟨other, _, hrecorder, hsent, _⟩ := cases_of_transmission heffect
    obtain ⟨hcounter, before, after, hrecorded, hlength⟩ :=
      h.pending (ready_of_transmission heffect)
    rw [published_of_sendAndCount hsent, hrecorder]
    constructor
    · obtain ⟨packets, htransmitted⟩ := transmitted_recording env.send hrecorded hlength
      rw [htransmitted.published_eq]
      exact List.cons_ne_nil _ _
    · intro packet hpacket
      exact (Sending.trainCounter_published env.send _ packet hpacket).trans hcounter

/-- Whatever a boot transmits carries the train counter zero. -/
theorem zeroCounted_of_boot (settings : Settings) (psram : Store) (logRam : List Byte)
    (events : List Event) :
    ∀ published ∈ outputs step transmissions (boot settings psram logRam) events,
      ZeroCounted published := by
  have huncounted : Along step (fun program _ ↦ Uncounted program) (boot settings psram logRam)
      events := by
    have hall : Along step (fun _ _ ↦ True) (boot settings psram logRam) events :=
      along_of_forall fun _ _ ↦ trivial
    exact along_of_along (fun _ _ _ h _ hstep ↦ h.step hstep) (fun _ _ h _ ↦ h)
      (uncounted_boot settings psram logRam) hall
  exact forall_mem_outputs (huncounted.mono fun _ _ h ↦ h.transmissions)

end Program

/-! ## Lives -/

/-- The memories that outlive a reboot, and the recordings transmitted so far. The settings are kept
in the emulated EEPROM. -/
structure Life where
  settings : Settings
  psram : Store
  logRam : List Byte
  recordings : List (List SeedPacket)

namespace Life

/-- A boot that ends in the reboot. -/
def boot (life : Life) (events : List Event) : Option Life :=
  let program := Program.boot life.settings life.psram life.logRam
  (run Program.step program events).bind fun final ↦
    if final.stage = .ended then
      some
        { settings := final.unit.settings
          psram := final.unit.recorder.psram
          logRam := final.unit.logRam
          recordings := life.recordings ++
            outputs Program.step Program.transmissions program events }
    else none

/-- The boot makes one recording and transmits it, and every packet is taken. -/
def RecordsOnce (life : Life) (events : List Event) : Prop :=
  (outputs Program.step Program.transmissions
    (Program.boot life.settings life.psram life.logRam) events).length = 1 ∧
  ∀ env, .poll env ∈ events → ∀ k, env.send.publish k = 0

/-- Recordings less than a full turn of the counter apart differ in their train counters. -/
def Distinguishable (recordings : List (List SeedPacket)) : Prop :=
  ∀ (i j : ℕ) (first second : List SeedPacket), i < j → j ≤ i + 65536 →
    recordings[i]? = some first → recordings[j]? = some second →
      ∀ packet ∈ first, ∀ other ∈ second, packet.trainCounter ≠ other.trainCounter

variable {life final : Life} {boots : List (List Event)}

/-- A boot adds its recordings to the life. -/
theorem recordings_of_boot {events : List Event} (hboot : life.boot events = some final) :
    final.recordings = life.recordings ++ outputs Program.step Program.transmissions
      (Program.boot life.settings life.psram life.logRam) events := by
  obtain ⟨program, _, hended⟩ := Option.bind_eq_some_iff.mp hboot
  obtain ⟨_, hfinal⟩ := Option.ite_none_right_eq_some.mp hended
  rw [← Option.some.inj hfinal]

theorem recordings_of_run (hrun : run boot life boots = some final)
    (honce : Along boot RecordsOnce life boots) :
    ∃ recordings, final.recordings = life.recordings ++ recordings ∧
      recordings.length = boots.length ∧
      ∀ published ∈ recordings, Program.ZeroCounted published := by
  induction boots generalizing life with
  | nil =>
    refine ⟨[], ?_, rfl, fun _ hmem ↦ absurd hmem List.not_mem_nil⟩
    rw [← Option.some.inj hrun, List.append_nil]
  | cons events boots ih =>
    obtain ⟨next, hboot, hrest⟩ := Option.bind_eq_some_iff.mp hrun
    obtain ⟨recordings, hfinal, hlength, hzero⟩ := ih hrest (honce.2 next hboot)
    refine ⟨outputs Program.step Program.transmissions
      (Program.boot life.settings life.psram life.logRam) events ++ recordings, ?_, ?_, ?_⟩
    · rw [hfinal, recordings_of_boot hboot, List.append_assoc]
    · rw [List.length_append, hlength, honce.1.1, List.length_cons, Nat.add_comm]
    · intro published hmem
      cases List.mem_append.mp hmem with
      | inl hfirst => exact Program.zeroCounted_of_boot _ _ _ _ published hfirst
      | inr hlater => exact hzero published hlater

/-- Recordings that all carry the train counter zero are distinguishable if there is at most one. -/
theorem distinguishable_iff_length_le {recordings : List (List SeedPacket)}
    (hzero : ∀ published ∈ recordings, Program.ZeroCounted published) :
    Distinguishable recordings ↔ recordings.length ≤ 1 := by
  constructor
  · intro hdistinct
    by_contra hlength
    obtain ⟨first, second, rest, rfl⟩ : ∃ first second rest,
        recordings = first :: second :: rest := by
      match recordings with
      | [] => exact absurd (Nat.zero_le 1) hlength
      | [_] => exact absurd le_rfl hlength
      | first :: second :: rest => exact ⟨first, second, rest, rfl⟩
    obtain ⟨hfirst, hzero₁⟩ := hzero first List.mem_cons_self
    obtain ⟨hsecond, hzero₂⟩ := hzero second (List.mem_cons_of_mem _ List.mem_cons_self)
    obtain ⟨packet, hpacket⟩ := List.exists_mem_of_ne_nil first hfirst
    obtain ⟨other, hother⟩ := List.exists_mem_of_ne_nil second hsecond
    apply hdistinct 0 1 first second (by decide) (by decide) rfl rfl packet hpacket other hother
    rw [hzero₁ packet hpacket, hzero₂ other hother]
  · intro hlength i j first second hij _ _ hsecond
    have hj : j < recordings.length := (List.getElem?_eq_some_iff.mp hsecond).1
    omega

/-- The recordings of a life are distinguishable only if there is at most one boot. -/
theorem distinguishable_iff (life final : Life) (boots : List (List Event))
    (hfirst : life.recordings = []) (hrun : run boot life boots = some final)
    (honce : Along boot RecordsOnce life boots) :
    Distinguishable final.recordings ↔ boots.length ≤ 1 := by
  obtain ⟨recordings, hfinal, hlength, hzero⟩ := recordings_of_run hrun honce
  rw [hfirst, List.nil_append] at hfinal
  rw [hfinal, distinguishable_iff_length_le hzero, hlength]

/-! ## Two boots -/

/-- A unit in its data stage with a pending recording. -/
def pendingUnit (settings : Settings) (recorder : Recorder) (logRam : List Byte) : UnitState :=
  { Program.dataReady recorder (UnitState.boot settings recorder.psram logRam) with
    modemLib := true
    autoResetCounterAfterSuccesfulMeasurement := 6 }

/-- A quiet call with no request pending sends and counts. -/
theorem call_quiet (send : SendEnv) {unit : UnitState}
    (hconfig : unit.inbox.flags.configRequestFlag = false)
    (hdump : unit.inbox.flags.dumpLogFlag = false)
    (hreset : unit.inbox.flags.mqttTriggerReset = false)
    (hskip : unit.inbox.flags.mqttSkipInitProcedure = false)
    (halive : unit.inbox.firstAliveFlag ≠ 2) :
    mqttPoolingProcedure (PollEnv.quiet send) unit = sendAndCount (PollEnv.quiet send) unit := by
  have hreceive : receive (PollEnv.quiet send) unit = .skip unit := rfl
  have hsolve : solveConfig unit = .skip unit := by
    rw [solveConfig, hconfig, if_neg Bool.false_ne_true]
  have hlog : dumpLog unit = .skip unit := by rw [dumpLog, hdump, if_neg Bool.false_ne_true]
  have hafter := afterCommands_of_clear (PollEnv.quiet send) hreset hskip
  rw [aliveTimeout_of_ne halive, Procedure.Progress.skip_andThen] at hafter
  rw [mqttPoolingProcedure, hreceive, Procedure.Progress.skip_andThen, hsolve,
    Procedure.Progress.skip_andThen, hlog, Procedure.Progress.skip_andThen]
  exact hafter

/-- Behind a transmission that does not use up the automatic reset the call goes on. -/
theorem sendAndCount_of_ready (env : PollEnv) {unit : UnitState}
    (halive : unit.inbox.firstAliveFlag ≠ 1) (hready : unit.dataReadyToSend = true)
    (hpos : unit.autoResetCounterAfterSuccesfulMeasurement > 0)
    (hmore : unit.autoResetCounterAfterSuccesfulMeasurement - 1 ≠ 0) :
    (sendAndCount env unit).exit = none ∧
      (sendAndCount env unit).state.settings = unit.settings ∧
      ((sendAndCount env unit).effects.filterMap Effect.transmitted).length = 1 := by
  have hsend : sendData env.send unit = ⟨_, _, none⟩ := if_pos hready
  have hcounter : (sendData env.send unit).state.autoResetCounterAfterSuccesfulMeasurement =
      unit.autoResetCounterAfterSuccesfulMeasurement := by rw [hsend]
  have hauto := autoReset_of_pos (hcounter.symm ▸ hpos)
  rw [hcounter, if_neg hmore] at hauto
  rw [sendAndCount, sendAlive, if_neg halive, Procedure.Progress.skip_andThen,
    Procedure.Progress.andThen_of_continues (exit_sendData _ _), hauto, hsend]
  exact ⟨rfl, rfl, rfl⟩

/-- A quiet call transmits the pending recording and goes on. -/
theorem quiet_pendingUnit (send : SendEnv) (settings : Settings) (recorder : Recorder)
    (logRam : List Byte) :
    let call := mqttPoolingProcedure (PollEnv.quiet send) (pendingUnit settings recorder logRam)
    call.exit = none ∧ call.state.settings = settings ∧
      (call.effects.filterMap Effect.transmitted).length = 1 := by
  intro call
  have hcall : call = sendAndCount (PollEnv.quiet send) (pendingUnit settings recorder logRam) :=
    call_quiet send rfl rfl rfl rfl (show (0 : UInt8) ≠ 2 by decide)
  rw [hcall]
  exact sendAndCount_of_ready _ (show (0 : UInt8) ≠ 1 by decide) rfl
    (show (6 : UInt16) > 0 by decide) (show (6 : UInt16) - 1 ≠ 0 by decide)

/-- A call whose `poll` fails returns at once. -/
theorem call_failingPoll (unit : UnitState) :
    mqttPoolingProcedure Program.failingPoll unit = ⟨unit, [], some .minusOne⟩ := rfl

/-- A boot with a short recording: a quiet call transmits it, and the next call ends the boot. -/
def shortBoot : List Event :=
  Program.shortRun Program.failingPoll ++
    [.poll (PollEnv.quiet (workingEnv fun _ ↦ 0)), .poll Program.failingPoll]

theorem run_shortRun (psram : Store) (logRam : List Byte) :
    ∃ recorder, run Program.step (Program.boot ⟨0, 2, 0, 0⟩ psram logRam)
        (Program.shortRun Program.failingPoll) =
      some ⟨.dataStage, pendingUnit ⟨0, 2, 0, 0⟩ recorder logRam⟩ := by
  obtain ⟨recorder, hmeasure⟩ := Program.step_shortMeasurement
    { UnitState.boot ⟨0, 2, 0, 0⟩ psram logRam with modemLib := true } rfl
  refine ⟨recorder, ?_⟩
  calc
    run Program.step (Program.boot ⟨0, 2, 0, 0⟩ psram logRam)
        (Program.shortRun Program.failingPoll) =
        (Program.step ⟨.measuring,
          { UnitState.boot ⟨0, 2, 0, 0⟩ psram logRam with modemLib := true }⟩
          Program.shortMeasurement).bind (run Program.step · [.initModem 0]) := rfl
    _ = some ⟨.dataStage, pendingUnit ⟨0, 2, 0, 0⟩ recorder logRam⟩ := by
      rw [hmeasure]
      rfl

theorem transmissions_failingPoll (program : Program) :
    program.transmissions (.poll Program.failingPoll) = [] := by
  rw [Program.transmissions, call_failingPoll]
  rfl

/-- Nothing is transmitted before the data stage. -/
theorem outputs_shortRun (program : Program) : outputs Program.step Program.transmissions program
    (Program.shortRun Program.failingPoll) = [] := by
  have hsilent : ∀ event ∈ Program.shortRun Program.failingPoll, ∀ program : Program,
      program.transmissions event = [] := by
    rw [Program.shortRun, List.forall_mem_cons, List.forall_mem_cons, List.forall_mem_cons,
      List.forall_mem_singleton]
    exact ⟨fun _ ↦ rfl, transmissions_failingPoll, fun _ ↦ rfl, fun _ ↦ rfl⟩
  have hnone : ∀ published ∈ outputs Program.step Program.transmissions program
      (Program.shortRun Program.failingPoll), False := by
    apply forall_mem_outputs
    refine (along_of_forall hsilent).mono fun program event hempty published hmem ↦ ?_
    rw [hempty program] at hmem
    exact List.not_mem_nil hmem
  exact List.eq_nil_iff_forall_not_mem.mpr hnone

theorem step_quiet {unit : UnitState} {send : SendEnv}
    (hexit : (mqttPoolingProcedure (PollEnv.quiet send) unit).exit = none) :
    Program.step ⟨.dataStage, unit⟩ (.poll (PollEnv.quiet send)) =
      some ⟨.dataStage, (mqttPoolingProcedure (PollEnv.quiet send) unit).state⟩ := by
  simp only [Program.step, hexit]

theorem step_failingPoll (unit : UnitState) :
    Program.step ⟨.dataStage, unit⟩ (.poll Program.failingPoll) = some ⟨.ended, unit⟩ := by
  simp only [Program.step, call_failingPoll]

/-- One more boot with a short recording. -/
theorem boot_shortBoot (life : Life) (hsettings : life.settings = ⟨0, 2, 0, 0⟩) :
    (∃ next, life.boot shortBoot = some next ∧ next.settings = ⟨0, 2, 0, 0⟩) ∧
      RecordsOnce life shortBoot := by
  obtain ⟨settings, psram, logRam, recordings⟩ := life
  obtain rfl : settings = ⟨0, 2, 0, 0⟩ := hsettings
  obtain ⟨recorder, hrun⟩ := run_shortRun psram logRam
  obtain ⟨hexit, hkept, hone⟩ :=
    quiet_pendingUnit (workingEnv fun _ ↦ 0) ⟨0, 2, 0, 0⟩ recorder logRam
  have hboot : run Program.step (Program.boot ⟨0, 2, 0, 0⟩ psram logRam) shortBoot =
      some ⟨.ended, (mqttPoolingProcedure (PollEnv.quiet (workingEnv fun _ ↦ 0))
        (pendingUnit ⟨0, 2, 0, 0⟩ recorder logRam)).state⟩ := by
    rw [shortBoot, Trace.run_append, hrun, Option.bind_some, run_cons, step_quiet hexit,
      Option.bind_some, run_cons, step_failingPoll]
    rfl
  have houtputs : outputs Program.step Program.transmissions
      (Program.boot ⟨0, 2, 0, 0⟩ psram logRam) shortBoot =
        (mqttPoolingProcedure (PollEnv.quiet (workingEnv fun _ ↦ 0))
          (pendingUnit ⟨0, 2, 0, 0⟩ recorder logRam)).effects.filterMap Effect.transmitted := by
    rw [shortBoot, outputs_append, outputs_shortRun, hrun]
    simp only [Option.elim, outputs, step_quiet hexit, step_failingPoll, transmissions_failingPoll,
      List.nil_append, List.append_nil]
    rfl
  constructor
  · rw [boot, hboot, Option.bind_some, if_pos rfl]
    exact ⟨_, rfl, hkept⟩
  · constructor
    · rw [houtputs]
      exact hone
    · intro env hmem
      have hcases : env = Program.failingPoll ∨ env = PollEnv.quiet (workingEnv fun _ ↦ 0) := by
        simpa [shortBoot, Program.shortRun, Program.shortMeasurement, or_comm] using hmem
      rcases hcases with rfl | rfl
      · exact fun _ ↦ rfl
      · exact fun _ ↦ rfl

/-- Two boots, each with a short recording. -/
theorem exists_two_boots : ∃ final, run boot ⟨⟨0, 2, 0, 0⟩, fun _ ↦ 0, [], []⟩
      [shortBoot, shortBoot] = some final ∧
    Along boot RecordsOnce ⟨⟨0, 2, 0, 0⟩, fun _ ↦ 0, [], []⟩ [shortBoot, shortBoot] := by
  obtain ⟨⟨next, hnext, hsettings⟩, hfirst⟩ :=
    boot_shortBoot ⟨⟨0, 2, 0, 0⟩, fun _ ↦ 0, [], []⟩ rfl
  obtain ⟨⟨final, hfinal, _⟩, hsecond⟩ := boot_shortBoot next hsettings
  refine ⟨final, ?_, hfirst, fun other hother ↦ ?_⟩
  · rw [run_cons, hnext, Option.bind_some, run_cons, hfinal]
    rfl
  · rw [← Option.some.inj (hnext.symm.trans hother)]
    exact ⟨hsecond, fun _ _ ↦ trivial⟩

theorem distinguishable_iff_two_boots : ∃ final,
    run boot ⟨⟨0, 2, 0, 0⟩, fun _ ↦ 0, [], []⟩ [shortBoot, shortBoot] = some final ∧
      (Distinguishable final.recordings ↔ [shortBoot, shortBoot].length ≤ 1) := by
  obtain ⟨final, hrun, honce⟩ := exists_two_boots
  exact ⟨final, hrun, distinguishable_iff ⟨⟨0, 2, 0, 0⟩, fun _ ↦ 0, [], []⟩ final _ rfl hrun honce⟩

/-- Two recordings in a row carry the same train counter. -/
theorem not_distinguishable_two_boots : ¬ ∀ (life final : Life) (boots : List (List Event)),
    life.recordings = [] → run boot life boots = some final →
      Along boot RecordsOnce life boots → Distinguishable final.recordings := by
  intro hall
  obtain ⟨final, hrun, honce⟩ := exists_two_boots
  obtain ⟨recordings, hfinal, hlength, hzero⟩ := recordings_of_run hrun honce
  have hdistinct := hall _ final _ rfl hrun honce
  rw [hfinal, List.nil_append, distinguishable_iff_length_le hzero, hlength] at hdistinct
  exact absurd hdistinct (by decide)

end Life

end NrfExamples.MqttWorking
