import NrfExamples.Library.Trace
import NrfExamples.MqttWorking.PollingCases

/-!
# Both polling loops end

A polling loop calls the procedure until it returns minus one or reboots. In the remote
configuration stage the alive flag and its timeout counter allow three calls. In the data stage the
automatic reset counts six calls down. A reset request clears the alive flag, which would disable
the timeout, but the same call then reboots.
-/

namespace NrfExamples.MqttWorking

open Procedure

/-- One turn of a polling loop, or `none` when the call ends the loop. -/
def pollStep (unit : UnitState) (env : PollEnv) : Option UnitState :=
  match (mqttPoolingProcedure env unit).exit with
  | some _ => none
  | none => some (mqttPoolingProcedure env unit).state

theorem pollStep_eq_some {unit next : UnitState} {env : PollEnv}
    (h : pollStep unit env = some next) :
    (mqttPoolingProcedure env unit).exit = none ∧
      (mqttPoolingProcedure env unit).state = next := by
  unfold pollStep at h
  cases hexit : (mqttPoolingProcedure env unit).exit with
  | some exit =>
    rw [hexit] at h
    cases h
  | none =>
    rw [hexit] at h
    exact ⟨rfl, Option.some.inj h⟩

/-! ## A call that returns one -/

/-- What a call that returns one did to the two counters and the alive flag. -/
structure Continued (unit next : UnitState) : Prop where
  timeout : unit.inbox.firstAliveFlag = 2 → next.inbox.firstAliveFlag = 2 ∧
    next.initialStageTimeoutCounter = unit.initialStageTimeoutCounter + 1 ∧
    next.initialStageTimeoutCounter ≠ 2
  alive : unit.inbox.firstAliveFlag = 1 → next.inbox.firstAliveFlag = 2 ∧
    next.initialStageTimeoutCounter = unit.initialStageTimeoutCounter
  auto : unit.autoResetCounterAfterSuccesfulMeasurement > 0 →
    next.autoResetCounterAfterSuccesfulMeasurement =
      unit.autoResetCounterAfterSuccesfulMeasurement - 1 ∧
    next.autoResetCounterAfterSuccesfulMeasurement ≠ 0

variable {env : PollEnv} {unit : UnitState}

theorem Continued.of_kept {received other next : UnitState} (hkept : Kept received other)
    (halive : received.inbox.firstAliveFlag = unit.inbox.firstAliveFlag)
    (htimeout : received.initialStageTimeoutCounter = unit.initialStageTimeoutCounter)
    (hauto : received.autoResetCounterAfterSuccesfulMeasurement =
      unit.autoResetCounterAfterSuccesfulMeasurement)
    (h : Continued other next) : Continued unit next where
  timeout hflag := by
    rw [← htimeout, ← hkept.timeout]
    exact h.timeout (hkept.alive.trans (halive.trans hflag))
  alive hflag := by
    rw [← htimeout, ← hkept.timeout]
    exact h.alive (hkept.alive.trans (halive.trans hflag))
  auto hpos := by
    rw [← hauto, ← hkept.auto] at hpos ⊢
    exact h.auto hpos

/-- Sending changes the alive flag from one to two and neither counter. -/
theorem dataSent_aliveSent (env : PollEnv) (unit : UnitState) :
    (dataSent env (aliveSent unit)).inbox = (aliveSent unit).inbox ∧
      (dataSent env (aliveSent unit)).initialStageTimeoutCounter =
        unit.initialStageTimeoutCounter ∧
      (dataSent env (aliveSent unit)).autoResetCounterAfterSuccesfulMeasurement =
        unit.autoResetCounterAfterSuccesfulMeasurement := by
  unfold dataSent sendData
  split <;> exact ⟨rfl, rfl, rfl⟩

/-- The automatic reset either leaves or counts. -/
theorem autoReset_continues (h : (autoReset unit).exit = none) :
    (autoReset unit).state.inbox = unit.inbox ∧
      (autoReset unit).state.initialStageTimeoutCounter = unit.initialStageTimeoutCounter ∧
      (unit.autoResetCounterAfterSuccesfulMeasurement > 0 →
        (autoReset unit).state.autoResetCounterAfterSuccesfulMeasurement =
          unit.autoResetCounterAfterSuccesfulMeasurement - 1 ∧
        (autoReset unit).state.autoResetCounterAfterSuccesfulMeasurement ≠ 0) := by
  by_cases hpos : unit.autoResetCounterAfterSuccesfulMeasurement > 0
  · rw [autoReset_of_pos hpos] at h ⊢
    by_cases hzero : unit.autoResetCounterAfterSuccesfulMeasurement - 1 = 0
    · rw [if_pos hzero] at h
      cases h
    · rw [if_neg hzero]
      exact ⟨rfl, rfl, fun _ ↦ ⟨rfl, hzero⟩⟩
  · rw [autoReset_of_zero hpos]
    exact ⟨rfl, rfl, fun hpos' ↦ absurd hpos' hpos⟩

/-- A call that returns one passes the reset, skip and timeout blocks. -/
theorem afterCommands_continues (h : (afterCommands env unit).exit = none) :
    unit.inbox.flags.mqttTriggerReset = false ∧ Continued unit (afterCommands env unit).state := by
  rcases afterCommands_cases env unit with
    ⟨exit, inbox, counter, _, _, heq⟩ | ⟨hreset, _, counter, hcounter, heq⟩
  · rw [heq] at h
    cases h
  · rw [heq, sendAndCount_eq] at h ⊢
    have hsent := dataSent_aliveSent env { unit with initialStageTimeoutCounter := counter }
    have hcount := autoReset_continues h
    refine ⟨hreset, ?_⟩
    exact
      { timeout := fun htwo ↦ by
          rw [hcount.1, hcount.2.1, hsent.1, hsent.2.1]
          exact ⟨by simp [aliveSent, htwo], hcounter.alive htwo⟩
        alive := fun hone ↦ by
          have hne : unit.inbox.firstAliveFlag ≠ 2 := by
            rw [hone]
            decide
          rw [hcount.1, hcount.2.1, hsent.1, hsent.2.1]
          exact ⟨by simp [aliveSent, hone], hcounter.other hne⟩
        auto := fun hpos ↦ by
          rw [hsent.2.2] at hcount
          exact hcount.2.2 hpos }

/-- A request for a reset that arrives in the call ends it, so the alive flag is not cleared in a
call that returns one. -/
theorem continued_of_pollStep {next : UnitState} (h : pollStep unit env = some next) :
    Continued unit next := by
  have hcall := pollStep_eq_some h
  by_cases hsucceeds : env.Succeeds
  · rcases mqttPoolingProcedure_of_succeeds hsucceeds unit with
      ⟨other, effects, hkept, _, _, heq⟩
    rcases delivered_cases env unit with ⟨inbox, hinbox, _, hflag⟩
    rw [heq] at hcall
    rw [hinbox] at hkept
    have hafter := afterCommands_continues hcall.1
    have hreset : inbox.flags.mqttTriggerReset = false := hkept.reset.symm.trans hafter.1
    -- A reset request is the only message that clears the flag, and it would have ended the call.
    have halive : inbox.firstAliveFlag = unit.inbox.firstAliveFlag := by
      apply hflag.resolve_right
      intro hrst
      rw [hreset] at hrst
      exact absurd hrst.1 (by decide)
    rw [← hcall.2]
    exact Continued.of_kept hkept halive rfl rfl hafter.2
  · rcases mqttPoolingProcedure_of_fails hsucceeds unit with ⟨inbox, effects, _, _, heq⟩
    rw [heq] at hcall
    cases hcall.1

/-! ## The two loops -/

/-- The states in which the remote configuration loop calls the procedure again. -/
def FirstStage (unit : UnitState) : Prop :=
  unit.inbox.firstAliveFlag = 1 ∧ unit.initialStageTimeoutCounter = 0 ∨
    unit.inbox.firstAliveFlag = 2 ∧ unit.initialStageTimeoutCounter < 2

/-- The calls left in the remote configuration stage. -/
def firstRank (unit : UnitState) : ℕ :=
  if unit.inbox.firstAliveFlag = 1 then 3 else 2 - unit.initialStageTimeoutCounter.toNat

theorem firstStage_step (unit : UnitState) (env : PollEnv) (next : UnitState)
    (hstage : FirstStage unit) (hstep : pollStep unit env = some next) :
    FirstStage next ∧ firstRank next < firstRank unit := by
  have hcontinued := continued_of_pollStep hstep
  rcases hstage with ⟨halive, hcounter⟩ | ⟨halive, hcounter⟩
  · have hnext := hcontinued.alive halive
    rw [hcounter] at hnext
    exact ⟨Or.inr ⟨hnext.1, by rw [hnext.2]; decide⟩, by simp [firstRank, halive, hnext.1, hnext.2]⟩
  · have hnext := hcontinued.timeout halive
    have hzero : unit.initialStageTimeoutCounter = 0 := by
      have hne := hnext.2.2
      rw [hnext.2.1] at hne
      grind
    rw [hzero] at hnext
    refine ⟨Or.inr ⟨hnext.1, by rw [hnext.2.1]; decide⟩, ?_⟩
    simp [firstRank, halive, hnext.1, hnext.2.1, hzero]

theorem firstRank_pos {unit : UnitState} (hstage : FirstStage unit) : 0 < firstRank unit := by
  unfold firstRank
  rcases hstage with ⟨halive, _⟩ | ⟨halive, hcounter⟩
  · rw [if_pos halive]
    decide
  · rw [halive, if_neg (by decide)]
    have hlt : unit.initialStageTimeoutCounter.toNat < 2 := hcounter
    omega

/-- The calls left in the data stage. -/
def dataRank (unit : UnitState) : ℕ := unit.autoResetCounterAfterSuccesfulMeasurement.toNat

theorem dataStage_step (unit : UnitState) (env : PollEnv) (next : UnitState)
    (hstage : unit.autoResetCounterAfterSuccesfulMeasurement > 0)
    (hstep : pollStep unit env = some next) :
    next.autoResetCounterAfterSuccesfulMeasurement > 0 ∧ dataRank next < dataRank unit := by
  have hnext := (continued_of_pollStep hstep).auto hstage
  have hpos : 0 < unit.autoResetCounterAfterSuccesfulMeasurement.toNat := hstage
  constructor
  · exact UInt16.pos_iff_ne_zero.mpr hnext.2
  · rw [dataRank, dataRank, hnext.1, UInt16.toNat_sub_of_le _ _ hstage]
    exact Nat.sub_lt hpos (by decide)

/-- From the boot values at most three calls are made, and from the values that `main` sets after a
recording at most six, before one of them returns minus one or reboots. -/
theorem polling_bounded (unit : UnitState) (envs : List PollEnv) :
    (unit.inbox.firstAliveFlag = 1 → unit.initialStageTimeoutCounter = 0 →
      unit.autoResetCounterAfterSuccesfulMeasurement = 0 → envs.length = 3 →
        Trace.run pollStep unit envs = none) ∧
    (unit.inbox.firstAliveFlag = 0 → unit.autoResetCounterAfterSuccesfulMeasurement = 6 →
      envs.length = 6 → Trace.run pollStep unit envs = none) := by
  constructor
  · intro halive hcounter _ hlength
    by_contra hcontinues
    obtain ⟨final, hrun⟩ := Option.ne_none_iff_exists'.mp hcontinues
    have hstage : FirstStage unit := Or.inl ⟨halive, hcounter⟩
    have hbound := Trace.length_add_rank_le firstStage_step hstage hrun
    have hrank : firstRank unit = 3 := if_pos halive
    have hpos := firstRank_pos hbound.1
    omega
  · intro _ hauto hlength
    by_contra hcontinues
    obtain ⟨final, hrun⟩ := Option.ne_none_iff_exists'.mp hcontinues
    have hstage : unit.autoResetCounterAfterSuccesfulMeasurement > 0 := by rw [hauto]; decide
    have hbound := Trace.length_add_rank_le dataStage_step hstage hrun
    have hrank : dataRank unit = 6 := by rw [dataRank, hauto]; rfl
    have hpos : 0 < dataRank final := hbound.1
    omega

theorem polling_bounded_quiet :
    let unit := UnitState.boot ⟨55, 35, 4000, 0⟩ (fun _ ↦ 0) []
    let env := PollEnv.quiet (workingEnv fun _ ↦ 0)
    let later := { unit with
      inbox := { unit.inbox with firstAliveFlag := 0 }
      autoResetCounterAfterSuccesfulMeasurement := 6 }
    Trace.run pollStep unit (List.replicate 3 env) = none ∧
      Trace.run pollStep later (List.replicate 6 env) = none :=
  ⟨(polling_bounded _ _).1 rfl rfl rfl rfl, (polling_bounded _ _).2 rfl rfl rfl⟩

end NrfExamples.MqttWorking
