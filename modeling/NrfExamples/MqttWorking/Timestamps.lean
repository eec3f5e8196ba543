import NrfExamples.MqttWorking.Rtcc
import NrfExamples.MqttWorking.UnitLife

/-!
# Timestamps of the packets

The program with its clock. The network time is queried behind the first modem initialisation and
in front of a transmission; the trigger reads the clock, and the sender puts this reading into
every packet of the recording. So the first query of a boot decides its timestamps: if it fails,
they are zero, otherwise they follow the network time at the trigger, however long the unit waited
for it and whatever came in between.
-/

namespace NrfExamples.MqttWorking

open Measurement ReferenceClock Trace

/-! ## The program and its clock -/

structure TimedProgram where
  program : Program
  clock : ClockState

inductive TimedEvent where
  | initModem (libInit : ℤ) (query : TimeQuery)
  | poll (env : PollEnv) (query : TimeQuery)
  /-- The uptime is that of the trigger. -/
  | measure (trigger : ℤ) (frames : List Processed)

/-- `modem_get_time_procedure` and the reading that is logged behind it. -/
def ClockState.query (query : TimeQuery) (clock : ClockState) : Option ClockState :=
  (clock.step (.modemGetTime query)).bind (step · (.getUnixTime query.storedAt))

namespace TimedProgram

def boot (settings : Settings) (psram : Memory.Store) (logRam : List Memory.Byte) (uptime : ℤ) :
    TimedProgram :=
  ⟨Program.boot settings psram logRam, ClockState.start uptime⟩

/-- The second modem initialisation does not query the time. A polling call queries it exactly
when it transmits. -/
def step (timed : TimedProgram) : TimedEvent → Option TimedProgram
  | .initModem libInit query =>
      (Program.step timed.program (.initModem libInit)).bind fun program ↦
        if timed.program.stage = .boot then (timed.clock.query query).map (⟨program, ·⟩)
        else some ⟨program, timed.clock⟩
  | .poll env query =>
      (Program.step timed.program (.poll env)).bind fun program ↦
        if (timed.program.transmissions (.poll env)).isEmpty then some ⟨program, timed.clock⟩
        else (timed.clock.query query).map (⟨program, ·⟩)
  | .measure trigger frames =>
      (timed.clock.step (.getUnixTime trigger)).bind fun clock ↦
        (Program.step timed.program
          (.measure (rtccGetUnixTime trigger timed.clock.rtcc).1 frames)).map (⟨·, clock⟩)

/-- The recordings that a step transmits. -/
def transmissions (timed : TimedProgram) : TimedEvent → List (List SeedPacket)
  | .poll env _ => timed.program.transmissions (.poll env)
  | .initModem _ _ | .measure _ _ => []

end TimedProgram

/-- The sender alone gives every packet the time of the recorder. -/
theorem timestamp_published (env : SendEnv) (recorder : Recorder) :
    ∀ packet ∈ (sendMeasuredTrainDataWithMultiplePacketsFromFlash env recorder).published,
      packet.timestamp = recorder.recordBeginUnixTimeS := by
  obtain ⟨final, ⟨events, hrun, hserved⟩, _, htx⟩ :=
    Sending.reaches_transmission env recorder .idle
  have hharmless : Along Sending.step (fun _ event ↦ event.Harmless recorder)
      (Sending.start recorder .idle) events := by
    refine hserved.mono fun s event hevent hpress ↦ ?_
    cases event with
    | button => exact absurd hevent id
    | advance | read | publish | handlerWake => exact absurd hpress id
  have horderly : Sending.Orderly recorder final :=
    run_invariant_of_along (fun _ _ _ hallowed h hstep ↦ h.step hallowed hstep)
      (Sending.orderly_start recorder .idle) hharmless hrun
  obtain ⟨trainCounter, count, hheaders, _⟩ := horderly.headers_eq
  intro packet hpacket
  rw [← htx] at hpacket
  have hmem : packet.header ∈ final.headers :=
    List.mem_append_left _ (List.mem_map_of_mem hpacket)
  rw [hheaders] at hmem
  obtain ⟨nr, _, hheader⟩ := List.mem_map.mp hmem
  exact (congrArg Header.timestamp hheader).symm

/-- A stage in front of the recording is not reached again. -/
theorem Program.beforeRecording_of_step {program next : Program} {event : Event}
    (hstep : program.step event = some next) (hnext : next.stage.beforeRecording = true) :
    program.stage.beforeRecording = true := by
  cases event with
  | initModem libInit =>
    rcases Program.step_initModem hstep with ⟨hstage, _⟩ | ⟨_, rfl⟩
    · rw [hstage]
      rfl
    · exact absurd hnext Bool.false_ne_true
  | poll env =>
    rcases (Program.step_poll hstep).2.2 with hsame | hended | ⟨hremote, _⟩
    · rwa [← hsame]
    · rw [hended] at hnext
      exact absurd hnext Bool.false_ne_true
    · rw [hremote]
      rfl
  | measure now frames =>
    rw [(Program.step_measure hstep).1]
    rfl

/-- The clock behind the first query of a boot. -/
def ClockState.FirstQueried (offset delay : ℤ) (query : TimeQuery) (clock : ClockState) : Prop :=
  if query.unixTimeMs.isSome then clock.Synchronised offset delay else clock.Unset

namespace TimedProgram

variable {timed next final : TimedProgram} {event : TimedEvent} {offset delay : ℤ}
  {query : TimeQuery}

/-- The event of the program, with the reading of the clock at the trigger. -/
def untimed (timed : TimedProgram) : TimedEvent → Event
  | .initModem libInit _ => .initModem libInit
  | .poll env _ => .poll env
  | .measure trigger frames => .measure (rtccGetUnixTime trigger timed.clock.rtcc).1 frames

/-- A step of the program with its clock is a step of the program. -/
theorem program_of_step (hstep : timed.step event = some next) :
    timed.program.step (timed.untimed event) = some next.program := by
  cases event with
  | initModem libInit query =>
    obtain ⟨program, hprogram, hclock⟩ := Option.bind_eq_some_iff.mp hstep
    rw [untimed, hprogram]
    split at hclock
    · obtain ⟨clock, _, rfl⟩ := Option.map_eq_some_iff.mp hclock
      rfl
    · rw [← Option.some.inj hclock]
  | poll env query =>
    obtain ⟨program, hprogram, hclock⟩ := Option.bind_eq_some_iff.mp hstep
    rw [untimed, hprogram]
    split at hclock
    · rw [← Option.some.inj hclock]
    · obtain ⟨clock, _, rfl⟩ := Option.map_eq_some_iff.mp hclock
      rfl
  | measure trigger frames =>
    obtain ⟨clock, _, hmeasured⟩ := Option.bind_eq_some_iff.mp hstep
    obtain ⟨program, hprogram, rfl⟩ := Option.map_eq_some_iff.mp hmeasured
    exact hprogram

/-- Where nothing is pending nothing is transmitted. -/
theorem transmissions_of_idle (hidle : timed.program.unit.dataReadyToSend = false) :
    timed.transmissions event = [] := by
  cases event with
  | initModem | measure => rfl
  | poll env query =>
    apply List.eq_nil_iff_forall_not_mem.mpr
    intro published hmem
    obtain ⟨effect, heffect, htransmitted⟩ := List.mem_filterMap.mp hmem
    rw [Effect.transmission_of_transmitted htransmitted] at heffect
    exact Bool.false_ne_true (hidle.symm.trans (ready_of_transmission heffect))

/-- The unit waits for its trigger behind the first query. -/
structure Awaiting (offset delay : ℤ) (query : TimeQuery) (timed : TimedProgram) : Prop where
  left_boot : timed.program.stage ≠ .boot
  idle : timed.program.unit.dataReadyToSend = false
  clock : timed.clock.FirstQueried offset delay query

theorem Awaiting.step (h : timed.Awaiting offset delay query) (hstep : timed.step event = some next)
    (hnext : next.program.stage.beforeRecording = true) : next.Awaiting offset delay query := by
  have hprogram := program_of_step hstep
  cases event with
  | initModem libInit other =>
    rcases Program.step_initModem hprogram with ⟨hstage, _⟩ | ⟨_, hdata⟩
    · exact absurd hstage h.left_boot
    · rw [hdata] at hnext
      exact absurd hnext Bool.false_ne_true
  | poll env other =>
    obtain ⟨program, _, hclock⟩ := Option.bind_eq_some_iff.mp hstep
    have hnone : timed.transmissions (.poll env other) = [] := transmissions_of_idle h.idle
    rw [transmissions] at hnone
    rw [hnone, if_pos List.isEmpty_nil] at hclock
    obtain rfl := Option.some.inj hclock
    obtain ⟨_, hunit, hstage⟩ := Program.step_poll hprogram
    refine ⟨?_, ?_, h.clock⟩
    · rcases hstage with hsame | hended | ⟨_, hmeasuring, _⟩
      · rw [hsame]
        exact h.left_boot
      · rw [hended]
        decide
      · rw [hmeasuring]
        decide
    · rw [hunit]
      rcases recorder_of_call env timed.program.unit with ⟨hready, _⟩ | ⟨_, hready⟩
      · exact hready.trans h.idle
      · exact hready
  | measure trigger frames =>
    obtain ⟨_, recorder, hmeasured⟩ := Program.step_measure hprogram
    rw [hmeasured] at hnext
    exact absurd hnext Bool.false_ne_true

/-- The recording is over, and if it is pending it carries the given time. -/
structure Carries (timestamp : UInt32) (timed : TimedProgram) : Prop where
  late : timed.program.stage.beforeRecording = false
  pending : timed.program.unit.dataReadyToSend = true →
    timed.program.unit.recorder.recordBeginUnixTimeS = timestamp

theorem Carries.step {timestamp : UInt32} (h : timed.Carries timestamp)
    (hstep : timed.step event = some next) : next.Carries timestamp := by
  have hprogram := program_of_step hstep
  have hlate : next.program.stage.beforeRecording = false := by
    cases hnext : next.program.stage.beforeRecording with
    | false => rfl
    | true => exact (Program.beforeRecording_of_step hprogram hnext).symm.trans h.late
  refine ⟨hlate, ?_⟩
  cases event with
  | initModem libInit query =>
    rcases Program.step_initModem hprogram with ⟨_, hdata⟩ | ⟨_, hdata⟩
    · rw [hdata, (Program.initModemAndMqtt_data libInit _).1, Program.initModemAndMqtt_recorder]
      exact h.pending
    · rw [hdata, (Program.initModemAndMqtt_data libInit _).1, Program.initModemAndMqtt_recorder]
      exact h.pending
  | poll env query =>
    rw [(Program.step_poll hprogram).2.1]
    rcases recorder_of_call env timed.program.unit with ⟨hready, hrecorder⟩ | ⟨_, hready⟩
    · rw [hready, hrecorder]
      exact h.pending
    · rw [hready]
      exact fun hfalse ↦ absurd hfalse Bool.false_ne_true
  | measure trigger frames =>
    rw [untimed] at hprogram
    have hstage := h.late
    rw [(Program.step_measure hprogram).1] at hstage
    exact absurd hstage.symm Bool.false_ne_true

/-- What is transmitted behind the recording carries its time. -/
theorem Carries.transmissions {timestamp : UInt32} (h : timed.Carries timestamp) :
    ∀ published ∈ timed.transmissions event, ∀ packet ∈ published,
      packet.timestamp = timestamp := by
  cases event with
  | initModem | measure => exact fun _ hmem ↦ absurd hmem List.not_mem_nil
  | poll env query =>
    intro published hmem packet hpacket
    obtain ⟨effect, heffect, htransmitted⟩ := List.mem_filterMap.mp hmem
    rw [Effect.transmission_of_transmitted htransmitted] at heffect
    obtain ⟨other, _, hrecorder, hsent, _⟩ := cases_of_transmission heffect
    rw [published_of_sendAndCount hsent, hrecorder] at hpacket
    rw [timestamp_published env.send _ packet hpacket]
    exact h.pending (ready_of_transmission heffect)

/-! ## Boots -/

end TimedProgram

end NrfExamples.MqttWorking
