import NrfExamples.Library.Trace
import NrfExamples.MqttWorking.SamplingPipeline

/-!
# Timer ticks and sampled frames

The timer interrupt sets `ADC_SAMPLE_FLAG`, and the loops of `main` test it, clear it and then read
and process one frame. The flag counts to one, so a tick that finds it set gets no frame of its own.
`SampleLoop` lets the interrupt in between any two of these steps, on a clock, with budgets for what
the loops and the timer may take. Every frame answers one tick, in their order, and every tick gets
its frame in every run exactly if the budgets leave enough time between two ticks.
-/

namespace NrfExamples.MqttWorking

open Trace

/-- Microseconds: at least `gap` from one tick to the next, at most `pass` from one test of the flag
to the next, and of these at most `clear` up to the assignment that clears it. -/
structure SampleTiming where
  gap : ℕ
  pass : ℕ
  clear : ℕ
  clear_le : clear ≤ pass

/-- The time from one compare event of the timer to the next. -/
def timeToWaitUs : ℕ := 500

/-- The comments in the loops give at most 294 microseconds for the calls on one frame. -/
def commentedTiming : SampleTiming := ⟨timeToWaitUs, 300, 5, by decide⟩

/-- Where a loop is: in front of the test, behind a test that found the flag set, or behind the
assignment that clears it. -/
inductive LoopPhase where
  | polling
  | taken
  | sampling
deriving DecidableEq

/-- `setAt` is the tick that set the flag, `sampledTick` the one whose frame is being sampled. -/
structure SampleLoop where
  adcSampleFlag : Bool
  phase : LoopPhase
  stage : SamplingStage
  now : ℕ
  lastTest : ℕ
  lastTick : Option ℕ
  setAt : ℕ
  sampledTick : ℕ

inductive SampleEvent where
  | tick
  | test
  | clear
  | process (frame : Quad ℤ)

def SamplingStage.Finished : SamplingStage → Prop
  | .gathering _ _ => False
  | .measuring _ _ measurement => measurement.phase = .finished

instance : DecidablePred SamplingStage.Finished
  | .gathering _ _ => isFalse id
  | .measuring _ _ measurement => inferInstanceAs (Decidable (measurement.phase = .finished))

namespace SampleLoop

variable (timing : SampleTiming) (settings : Settings) (unixTime : UInt32) (recorder : Recorder)

/-- The offset loop has just cleared a flag that was set before it was entered. -/
def start : SampleLoop where
  adcSampleFlag := false
  phase := .sampling
  stage := .boot
  now := 0
  lastTest := 0
  lastTick := none
  setAt := 0
  sampledTick := 0

/-- The loop is within its budgets. -/
def OnTime (loop : SampleLoop) (time : ℕ) : Prop :=
  loop.now ≤ time ∧ time ≤ loop.lastTest + timing.pass ∧
    (loop.phase = .taken → time ≤ loop.lastTest + timing.clear)

instance (loop : SampleLoop) (time : ℕ) : Decidable (loop.OnTime timing time) :=
  inferInstanceAs (Decidable (_ ∧ _ ∧ _))

/-- The handler of the timer. -/
def timerHandler (loop : SampleLoop) (time : ℕ) : SampleLoop :=
  { loop with
    adcSampleFlag := true
    lastTick := some time
    setAt := if loop.adcSampleFlag then loop.setAt else time }

/-- The test `if (ADC_SAMPLE_FLAG == 1)`. The loop is not entered again behind the recording. -/
def testFlag (loop : SampleLoop) (time : ℕ) : SampleLoop :=
  { loop with
    phase := if loop.adcSampleFlag then .taken else .polling
    lastTest := time }

def clearFlag (loop : SampleLoop) : SampleLoop :=
  { loop with
    adcSampleFlag := false
    phase := .sampling
    sampledTick := loop.setAt }

def processFrame (loop : SampleLoop) (frame : Quad ℤ) : SampleLoop :=
  { loop with
    phase := .polling
    stage := loop.stage.step settings unixTime recorder frame }

/-- One event at the given time. -/
def step (loop : SampleLoop) (event : ℕ × SampleEvent) : Option SampleLoop :=
  let later := { loop with now := event.1 }
  if loop.OnTime timing event.1 then
    match event.2, loop.phase with
    | .tick, _ =>
        if ∀ last ∈ loop.lastTick, last + timing.gap ≤ event.1 then
          some (later.timerHandler event.1)
        else none
    | .test, .polling => if loop.stage.Finished then none else some (later.testFlag event.1)
    | .clear, .taken => some later.clearFlag
    | .process frame, .sampling => some (later.processFrame settings unixTime recorder frame)
    | _, _ => none
  else none

/-! ## Ticks and frames -/

/-- A tick. -/
def ticked (_ : SampleLoop) : ℕ × SampleEvent → List ℕ
  | (time, .tick) => [time]
  | _ => []

/-- A tick that sets the flag. -/
def flagged (loop : SampleLoop) : ℕ × SampleEvent → List ℕ
  | (time, .tick) => if loop.adcSampleFlag then [] else [time]
  | _ => []

/-- The tick that a processed frame answers. -/
def answered (loop : SampleLoop) : ℕ × SampleEvent → List ℕ
  | (_, .process _) => [loop.sampledTick]
  | _ => []

def processed (_ : SampleLoop) : ℕ × SampleEvent → List (Quad ℤ)
  | (_, .process frame) => [frame]
  | _ => []

/-- The ticks that still wait for their frame. -/
def waiting (loop : SampleLoop) : List ℕ :=
  (if loop.phase = .sampling then [loop.sampledTick] else []) ++
    if loop.adcSampleFlag then [loop.setAt] else []

/-- A frame is begun one pass and one way to the assignment behind its tick at the latest. -/
def BeginsInTime (timing : SampleTiming) (loop : SampleLoop) (event : ℕ × SampleEvent) : Prop :=
  event.2 = .clear → event.1 ≤ loop.setAt + timing.pass + timing.clear

/-- A tick finds the flag cleared. -/
def FindsCleared (loop : SampleLoop) (event : ℕ × SampleEvent) : Prop :=
  event.2 = .tick → loop.adcSampleFlag = false

variable {timing settings unixTime recorder} {loop next : SampleLoop} {event : ℕ × SampleEvent}

theorem flagged_sublist (loop : SampleLoop) (event : ℕ × SampleEvent) :
    (loop.flagged event).Sublist (loop.ticked event) := by
  obtain ⟨time, kind⟩ := event
  cases kind with
  | tick =>
    simp only [flagged, ticked]
    split
    · exact List.nil_sublist _
    · exact List.Sublist.refl _
  | test => exact List.Sublist.refl _
  | clear => exact List.Sublist.refl _
  | process frame => exact List.Sublist.refl _

theorem flagged_eq_iff : loop.flagged event = loop.ticked event ↔ loop.FindsCleared event := by
  obtain ⟨time, kind⟩ := event
  cases kind with
  | tick => simp [flagged, ticked, FindsCleared]
  | test => simp [flagged, ticked, FindsCleared]
  | clear => simp [flagged, ticked, FindsCleared]
  | process frame => simp [flagged, ticked, FindsCleared]

/-- What a step does, with the budgets it keeps. -/
theorem step_cases (h : loop.step timing settings unixTime recorder event = some next) :
    loop.OnTime timing event.1 ∧
      ((event.2 = .tick ∧ (∀ last ∈ loop.lastTick, last + timing.gap ≤ event.1) ∧
          next = { loop with now := event.1 }.timerHandler event.1) ∨
        (event.2 = .test ∧ loop.phase = .polling ∧
          next = { loop with now := event.1 }.testFlag event.1) ∨
        (event.2 = .clear ∧ loop.phase = .taken ∧
          next = { loop with now := event.1 }.clearFlag) ∨
        ∃ frame, event.2 = .process frame ∧ loop.phase = .sampling ∧
          next = { loop with now := event.1 }.processFrame settings unixTime recorder frame) := by
  obtain ⟨time, kind⟩ := event
  simp only [step] at h
  split at h
  · rename_i htime
    refine ⟨htime, ?_⟩
    split at h
    · split at h
      · rename_i hgap
        exact Or.inl ⟨rfl, hgap, (Option.some.inj h).symm⟩
      · cases h
    · rename_i hphase
      split at h
      · cases h
      · exact Or.inr (Or.inl ⟨rfl, hphase, (Option.some.inj h).symm⟩)
    · rename_i hphase
      exact Or.inr (Or.inr (Or.inl ⟨rfl, hphase, (Option.some.inj h).symm⟩))
    · rename_i frame hphase
      exact Or.inr (Or.inr (Or.inr ⟨frame, rfl, hphase, (Option.some.inj h).symm⟩))
    · cases h
  · cases h

/-! ## Steps -/

/-- A flag that was found set is still set, and one that is set is tested in time. -/
structure Prompt (timing : SampleTiming) (loop : SampleLoop) : Prop where
  lastTest_le : loop.lastTest ≤ loop.now
  flag_of_taken : loop.phase = .taken → loop.adcSampleFlag = true
  untested : loop.adcSampleFlag = true → loop.phase ≠ .taken → loop.lastTest ≤ loop.setAt
  tested : loop.adcSampleFlag = true → loop.lastTest ≤ loop.setAt + timing.pass

theorem prompt_start : start.Prompt timing where
  lastTest_le := le_rfl
  flag_of_taken h := nomatch h
  untested h := nomatch h
  tested h := nomatch h

/-- The handler sets a flag that is not set yet. -/
theorem Prompt.timerHandler (h : loop.Prompt timing) {time : ℕ} (htime : loop.now ≤ time) :
    ({ loop with now := time }.timerHandler time).Prompt timing where
  lastTest_le := h.lastTest_le.trans htime
  flag_of_taken _ := rfl
  untested _ hphase := by
    simp only [SampleLoop.timerHandler]
    split
    · rename_i hflag
      exact h.untested hflag hphase
    · exact h.lastTest_le.trans htime
  tested _ := by
    simp only [SampleLoop.timerHandler]
    split
    · rename_i hflag
      exact h.tested hflag
    · exact (h.lastTest_le.trans htime).trans (Nat.le_add_right _ _)

theorem Prompt.step (h : loop.Prompt timing)
    (hstep : loop.step timing settings unixTime recorder event = some next) :
    next.Prompt timing := by
  obtain ⟨⟨hnow, hpass, _⟩, htick | htest | hclear | hprocess⟩ := step_cases hstep
  · obtain ⟨_, _, rfl⟩ := htick
    exact h.timerHandler hnow
  · obtain ⟨_, hphase, rfl⟩ := htest
    exact
      { lastTest_le := le_rfl
        flag_of_taken := by
          intro htaken
          by_contra hflag
          have hunset : ¬ loop.adcSampleFlag = true := hflag
          simp only [testFlag, if_neg hunset, reduceCtorEq] at htaken
        untested := by
          intro hflag htaken
          exact absurd (if_pos hflag) htaken
        tested := by
          intro hflag
          have htested := h.untested hflag (by simp [hphase])
          exact hpass.trans (Nat.add_le_add_right htested _) }
  · obtain ⟨_, _, rfl⟩ := hclear
    exact
      { lastTest_le := h.lastTest_le.trans hnow
        flag_of_taken := nofun
        untested := nofun
        tested := nofun }
  · obtain ⟨_, _, hphase, rfl⟩ := hprocess
    exact
      { lastTest_le := h.lastTest_le.trans hnow
        flag_of_taken := nofun
        untested := fun hflag _ ↦ h.untested hflag (by simp [hphase])
        tested := h.tested }

/-- A step answers the oldest waiting tick, or takes one more. -/
theorem answered_append_waiting (h : loop.Prompt timing)
    (hstep : loop.step timing settings unixTime recorder event = some next) :
    loop.answered event ++ next.waiting = loop.waiting ++ loop.flagged event := by
  obtain ⟨time, kind⟩ := event
  obtain ⟨_, htick | htest | hclear | hprocess⟩ := step_cases hstep
  · obtain ⟨rfl, _, rfl⟩ := htick
    cases hflag : loop.adcSampleFlag with
    | true => simp [answered, flagged, waiting, timerHandler, hflag]
    | false => simp [answered, flagged, waiting, timerHandler, hflag]
  · obtain ⟨rfl, hphase, rfl⟩ := htest
    cases hflag : loop.adcSampleFlag with
    | true => simp [answered, flagged, waiting, testFlag, hflag, hphase]
    | false => simp [answered, flagged, waiting, testFlag, hflag, hphase]
  · obtain ⟨rfl, hphase, rfl⟩ := hclear
    simp [answered, flagged, waiting, clearFlag, hphase, h.flag_of_taken hphase]
  · obtain ⟨frame, rfl, hphase, rfl⟩ := hprocess
    simp only [answered, flagged, waiting, hphase, if_true, List.append_nil]
    rfl

theorem Prompt.beginsInTime (h : loop.Prompt timing)
    (hstep : loop.step timing settings unixTime recorder event = some next) :
    loop.BeginsInTime timing event := by
  intro hkind
  obtain ⟨⟨_, _, hclear⟩, htick | htest | hcleared | hprocess⟩ := step_cases hstep
  · exact absurd (hkind.symm.trans htick.1) nofun
  · exact absurd (hkind.symm.trans htest.1) nofun
  · have htested := h.tested (h.flag_of_taken hcleared.2.1)
    exact (hclear hcleared.2.1).trans (Nat.add_le_add_right htested _)
  · obtain ⟨frame, hprocess, _⟩ := hprocess
    exact absurd (hkind.symm.trans hprocess) nofun

/-- Until the next tick may come, a set flag is cleared. -/
structure Separated (timing : SampleTiming) (loop : SampleLoop) : Prop where
  prompt : loop.Prompt timing
  lastTick_eq : loop.adcSampleFlag = true → loop.lastTick = some loop.setAt

theorem Separated.findsCleared (h : loop.Separated timing)
    (hbudget : timing.pass + timing.clear < timing.gap)
    (hstep : loop.step timing settings unixTime recorder event = some next) :
    loop.FindsCleared event := by
  intro hkind
  by_contra hcleared
  have hflag : loop.adcSampleFlag = true := Bool.of_not_eq_false hcleared
  obtain ⟨⟨_, hpass, htaken⟩, htick | htest | hclear | hprocess⟩ := step_cases hstep
  · have hgap := htick.2.1 loop.setAt (h.lastTick_eq hflag)
    by_cases hphase : loop.phase = .taken
    · have hclear := htaken hphase
      have htested := h.prompt.tested hflag
      omega
    · have htested := h.prompt.untested hflag hphase
      omega
  · exact absurd (hkind.symm.trans htest.1) nofun
  · exact absurd (hkind.symm.trans hclear.1) nofun
  · obtain ⟨frame, hprocess, _⟩ := hprocess
    exact absurd (hkind.symm.trans hprocess) nofun

theorem Separated.step (h : loop.Separated timing)
    (hbudget : timing.pass + timing.clear < timing.gap)
    (hstep : loop.step timing settings unixTime recorder event = some next) :
    next.Separated timing where
  prompt := h.prompt.step hstep
  lastTick_eq := by
    have hcleared := h.findsCleared hbudget hstep
    obtain ⟨_, htick | htest | hclear | hprocess⟩ := step_cases hstep
    · obtain ⟨hkind, _, rfl⟩ := htick
      intro _
      simp only [timerHandler, hcleared hkind, Bool.false_eq_true, if_false]
    · obtain ⟨_, _, rfl⟩ := htest
      exact h.lastTick_eq
    · obtain ⟨_, _, rfl⟩ := hclear
      exact nofun
    · obtain ⟨_, _, _, rfl⟩ := hprocess
      exact h.lastTick_eq

/-! ## Runs -/

variable {events : List (ℕ × SampleEvent)} {final : SampleLoop}

/-- The pipeline takes the frames that were read, in their order. -/
theorem stage_of_run
    (hrun : run (step timing settings unixTime recorder) loop events = some final) :
    final.stage =
      (outputs (step timing settings unixTime recorder) processed loop events).foldl
        (SamplingStage.step settings unixTime recorder) loop.stage := by
  induction events generalizing loop with
  | nil =>
    rw [← Option.some.inj hrun]
    rfl
  | cons event events ih =>
    obtain ⟨next, hnext, hrest⟩ := Option.bind_eq_some_iff.mp hrun
    have hstage : next.stage = (loop.processed event).foldl
        (SamplingStage.step settings unixTime recorder) loop.stage := by
      obtain ⟨time, kind⟩ := event
      obtain ⟨_, htick | htest | hclear | hprocess⟩ := step_cases hnext
      · obtain ⟨rfl, _, rfl⟩ := htick
        rfl
      · obtain ⟨rfl, _, rfl⟩ := htest
        rfl
      · obtain ⟨rfl, _, rfl⟩ := hclear
        rfl
      · obtain ⟨frame, rfl, _, rfl⟩ := hprocess
        rfl
    rw [outputs, hnext, Option.elim_some, List.foldl_append, ← hstage]
    exact ih hrest

/-- The ticks that set the flag are answered, up to those that still wait. -/
theorem answered_of_run
    (hrun : run (step timing settings unixTime recorder) start events = some final) :
    outputs (step timing settings unixTime recorder) answered start events ++ final.waiting =
      0 :: outputs (step timing settings unixTime recorder) flagged start events := by
  have hkept (loop : SampleLoop) (event : ℕ × SampleEvent) (next : SampleLoop)
      (h : loop.Prompt timing)
      (hstep : loop.step timing settings unixTime recorder event = some next) :
      next.Prompt timing := h.step hstep
  have hanswered (loop : SampleLoop) (event : ℕ × SampleEvent) (next : SampleLoop)
      (h : loop.Prompt timing)
      (hstep : loop.step timing settings unixTime recorder event = some next) :
      loop.answered event ++ next.waiting = loop.waiting ++ loop.flagged event :=
    answered_append_waiting h hstep
  exact outputs_append_stored (congruence_eq ℕ) hkept hanswered prompt_start hrun

/-- The flag counts every tick exactly if each finds it cleared. -/
theorem answered_eq_ticked_iff
    (hrun : run (step timing settings unixTime recorder) start events = some final) :
    outputs (step timing settings unixTime recorder) answered start events ++ final.waiting =
        0 :: outputs (step timing settings unixTime recorder) ticked start events ↔
      Along (step timing settings unixTime recorder) FindsCleared start events := by
  rw [answered_of_run hrun, List.cons_inj_right, outputs_eq_iff flagged_sublist]
  exact ⟨Along.mono fun _ _ ↦ flagged_eq_iff.mp, Along.mono fun _ _ ↦ flagged_eq_iff.mpr⟩

/-! ## Too little time -/

theorem step_tick {time : ℕ} (htime : loop.OnTime timing time)
    (hgap : ∀ last ∈ loop.lastTick, last + timing.gap ≤ time) :
    loop.step timing settings unixTime recorder (time, .tick) =
      some ({ loop with now := time }.timerHandler time) := by
  simp only [step, if_pos htime, if_pos hgap]

/-- The first frame is processed, the flag tested, and set by a tick at once. -/
def firstTick : List (ℕ × SampleEvent) := [(0, .process fun _ ↦ 0), (0, .test), (0, .tick)]

theorem run_firstTick (timing : SampleTiming) (settings : Settings) (unixTime : UInt32)
    (recorder : Recorder) : ∃ stage : SamplingStage, ¬ stage.Finished ∧
      run (step timing settings unixTime recorder) start firstTick =
        some ⟨true, .polling, stage, 0, 0, some 0, 0, 0⟩ := by
  refine ⟨SamplingStage.boot.step settings unixTime recorder fun _ ↦ 0, ?_, ?_⟩
  · simp [SamplingStage.step, SamplingStage.boot, SamplingStage.Finished, offsetGatherCnt]
  · simp [firstTick, run, step, OnTime, start, SampleLoop.processFrame, testFlag, timerHandler,
      SamplingStage.step, SamplingStage.boot, SamplingStage.Finished, offsetGatherCnt]

/-- Where the budgets leave too little time, the second tick can come before the flag of the first
one is cleared. -/
theorem exists_tick_finds_set (hbudget : timing.gap ≤ timing.pass + timing.clear) :
    ∃ before reached next, run (step timing settings unixTime recorder) start before =
        some reached ∧ reached.adcSampleFlag = true ∧
      reached.step timing settings unixTime recorder (timing.gap, .tick) = some next := by
  obtain ⟨stage, hstage, hfirst⟩ := run_firstTick timing settings unixTime recorder
  by_cases hpass : timing.gap ≤ timing.pass
  · -- The loop is still on its way to the next test.
    refine ⟨firstTick, _, _, hfirst, rfl, step_tick ?_ ?_⟩
    · exact ⟨Nat.zero_le _, by simpa using hpass, nofun⟩
    · simp
  · -- The loop has tested the flag and not cleared it.
    have htest : step timing settings unixTime recorder ⟨true, .polling, stage, 0, 0, some 0, 0, 0⟩
        (timing.pass, .test) =
          some ⟨true, .taken, stage, timing.pass, timing.pass, some 0, 0, 0⟩ := by
      simp [step, OnTime, hstage, testFlag]
    refine ⟨firstTick ++ [(timing.pass, .test)],
      ⟨true, .taken, stage, timing.pass, timing.pass, some 0, 0, 0⟩, _, ?_, rfl, step_tick ?_ ?_⟩
    · rw [run_append, hfirst, Option.bind_some, run_cons, htest, Option.bind_some, run_nil]
    · have hclear := timing.clear_le
      exact ⟨(not_le.mp hpass).le, by dsimp only; omega, fun _ ↦ hbudget⟩
    · simp

/-! ## The budgets -/

/-- In every run the pipeline takes the frames that were read. The ticks they answer, followed by
those that still wait, are ticks of the timer in their order, behind the one that was pending at the
start, and each frame is begun in time behind its tick. Every tick gets its own frame in every run
exactly if two ticks are further apart than one pass of the loop and one way from the test to the
assignment. -/
theorem frame_for_each_tick_iff (timing : SampleTiming) (settings : Settings) (unixTime : UInt32)
    (recorder : Recorder) :
    (∀ events final, run (step timing settings unixTime recorder) start events = some final →
      final.stage = (outputs (step timing settings unixTime recorder) processed start events).foldl
          (SamplingStage.step settings unixTime recorder) .boot ∧
        (outputs (step timing settings unixTime recorder) answered start events ++
          final.waiting).Sublist
            (0 :: outputs (step timing settings unixTime recorder) ticked start events) ∧
        Along (step timing settings unixTime recorder) (BeginsInTime timing) start events) ∧
      ((∀ events final, run (step timing settings unixTime recorder) start events = some final →
          outputs (step timing settings unixTime recorder) answered start events ++ final.waiting =
            0 :: outputs (step timing settings unixTime recorder) ticked start events) ↔
        timing.pass + timing.clear < timing.gap) := by
  refine ⟨fun events final hrun ↦ ⟨stage_of_run hrun, ?_, ?_⟩, ?_, ?_⟩
  · rw [answered_of_run hrun]
    exact (outputs_sublist flagged_sublist _ _).cons_cons 0
  · exact along_of_run (fun _ _ _ h hstep ↦ ⟨h.beginsInTime hstep, h.step hstep⟩) prompt_start hrun
  · intro hall
    by_contra hbudget
    obtain ⟨before, reached, next, hreached, hflag, htick⟩ :=
      exists_tick_finds_set (not_lt.mp hbudget)
    have hrun : run (step timing settings unixTime recorder) start
        (before ++ [(timing.gap, .tick)]) = some next := by
      rw [run_append, hreached, Option.bind_some, run_cons, htick, Option.bind_some, run_nil]
    have hcleared := ((answered_eq_ticked_iff hrun).mp (hall _ _ hrun)).at_step hreached rfl
    exact absurd (hflag.symm.trans hcleared) (by decide)
  · intro hbudget events final hrun
    rw [answered_eq_ticked_iff hrun]
    have hstart : start.Separated timing := ⟨prompt_start, nofun⟩
    exact along_of_run (fun _ _ _ h hstep ↦ ⟨h.findsCleared hbudget hstep, h.step hbudget hstep⟩)
      hstart hrun

/-- Three frames of a loop that takes 290 microseconds for each, with two ticks of the timer. -/
def threeFrames : List (ℕ × SampleEvent) :=
  [(290, .process fun _ ↦ 0), (291, .test), (500, .tick), (501, .test), (502, .clear),
    (792, .process fun _ ↦ 0), (793, .test), (1000, .tick), (1001, .test), (1002, .clear),
    (1292, .process fun _ ↦ 0)]

theorem run_threeFrames (settings : Settings) (unixTime : UInt32) (recorder : Recorder) :
    ∃ stage,
      run (step commentedTiming settings unixTime recorder) start threeFrames =
          some ⟨false, .polling, stage, 1292, 1001, some 1000, 1000, 1000⟩ ∧
        outputs (step commentedTiming settings unixTime recorder) ticked start threeFrames =
          [500, 1000] :=
  ⟨_, rfl, rfl⟩

/-- With these times no tick is lost. The three frames answer the tick that was pending at the
start and the two of the timer. -/
theorem frame_for_each_tick_commented :
    ∃ final : SampleLoop,
      run (step commentedTiming ⟨0, 2, 0, 0⟩ 0 (Recorder.boot fun _ ↦ 0)) start threeFrames =
          some final ∧
        outputs (step commentedTiming ⟨0, 2, 0, 0⟩ 0 (Recorder.boot fun _ ↦ 0)) answered start
          threeFrames ++ final.waiting = [0, 500, 1000] := by
  obtain ⟨stage, hrun, hticked⟩ := run_threeFrames ⟨0, 2, 0, 0⟩ 0 (Recorder.boot fun _ ↦ 0)
  refine ⟨_, hrun, ?_⟩
  rw [(frame_for_each_tick_iff _ _ _ _).2.mpr (by decide) _ _ hrun, hticked]

end SampleLoop

end NrfExamples.MqttWorking
