import NrfExamples.Library.Semaphore
import NrfExamples.Library.Trace
import NrfExamples.Library.Word
import NrfExamples.Library.WorkQueue

/-!
# Requests for assistance data

The modem asks for assistance data with an event whose handler overwrites `last_agnss` and submits
`agnss_data_get_work`. The work decides whether the request is worth an answer, and with LTE on
demand it connects, requests the data and disconnects. The event can arrive at any moment, so the
work may see a request change between two of its tests.

A step of the work is one read of `last_agnss` or one call. With LTE on demand a call of the LTE
library may come in between, which is what `lte_ready` waits for.
-/

namespace NrfExamples.Gnss

open Trace

/-! ## Requests -/

/-- The data that are needed of one satellite system. -/
structure SystemNeed where
  systemId : BitVec 8
  svMaskEphe : BitVec 64
  svMaskAlm : BitVec 64
deriving DecidableEq

/-- `nrf_modem_gnss_agnss_data_frame`. -/
structure AgnssFrame where
  dataFlags : BitVec 32
  system : List SystemNeed
deriving DecidableEq

/-- `system[0]`, which is zero in a frame that was never read. -/
def AgnssFrame.gps (frame : AgnssFrame) : SystemNeed := frame.system.headD ⟨0, 0, 0⟩

/-- The choice of the assistance that is compiled in. -/
inductive Assistance where
  | nrfCloud
  | supl
  | minimal
deriving DecidableEq

/-- The configuration, with the bits of `data_flags` that the modem library defines. -/
structure AssistanceConfig where
  assistance : Assistance
  lteOnDemand : Bool
  nequickRequest : BitVec 32
  integrityRequest : BitVec 32
  gpsSysTimeAndSvTowRequest : BitVec 32
  positionRequest : BitVec 32

/-- One operand of the conditions that ignore a request. -/
inductive Test where
  | noEphe
  | noAlm
  | noFlags
  /-- No flags but those of the mask. -/
  | noOther (mask : BitVec 32)
  /-- None of the flags of the mask. -/
  | noneOf (mask : BitVec 32)
deriving DecidableEq

def Test.passes (frame : AgnssFrame) : Test → Bool
  | .noEphe => frame.gps.svMaskEphe == 0
  | .noAlm => frame.gps.svMaskAlm == 0
  | .noFlags => frame.dataFlags == 0
  | .noOther mask => frame.dataFlags &&& ~~~mask == 0
  | .noneOf mask => frame.dataFlags &&& mask == 0

namespace AssistanceConfig

variable (config : AssistanceConfig)

/-- The conditions in their order, each with its operands. -/
def conditions : List (List Test) :=
  match config.assistance with
  | .nrfCloud => [[.noFlags, .noEphe, .noAlm]]
  | .supl =>
      [[.noEphe, .noAlm, .noOther (config.nequickRequest ||| config.integrityRequest)],
        [.noFlags, .noEphe, .noAlm]]
  | .minimal =>
      [[.noneOf config.gpsSysTimeAndSvTowRequest, .noneOf config.positionRequest],
        [.noFlags, .noEphe, .noAlm]]

/-- The request is not worth an answer. -/
def ignores (frame : AgnssFrame) : Bool :=
  config.conditions.any fun tests ↦ tests.all fun test ↦ test.passes frame

end AssistanceConfig

/-! ## The work -/

inductive GnssWork where
  | agnssDataGetWork
deriving DecidableEq

/-- Where `agnss_data_get_work_fn` stands. -/
inductive WorkPoint where
  /-- Behind the operands of a condition that hold so far. -/
  | testing (tests : List Test) (conditions : List (List Test))
  /-- In front of `requesting_assistance = true`. -/
  | needed
  /-- In front of the call that activates LTE. -/
  | connecting
  /-- In front of `k_sem_take`. -/
  | waiting
  /-- In front of `assistance_request`. -/
  | requesting
  | disconnecting
  /-- In front of `requesting_assistance = false`. -/
  | answered
deriving DecidableEq

/-- The start of the next condition. -/
def WorkPoint.condition : List (List Test) → WorkPoint
  | [] => .needed
  | tests :: conditions => .testing tests conditions

inductive NwRegStatus where
  | registeredHome
  | registeredRoaming
  | other

structure AssistanceState where
  lastAgnss : AgnssFrame
  /-- The event handler stands in front of `k_work_submit_to_queue`. -/
  submitting : Bool
  work : WorkQueue GnssWork WorkPoint
  lteReady : Semaphore 1
  requestingAssistance : Bool

inductive AssistanceEvent where
  /-- `NRF_MODEM_GNSS_EVT_AGNSS_REQ`, with the result of the read and the frame. -/
  | evtAgnssReq (retval : ℤ) (frame : AgnssFrame)
  | submit
  /-- `LTE_LC_EVT_NW_REG_STATUS`. -/
  | nwRegStatus (status : NwRegStatus)
  /-- The thread of `gnss_work_q` takes the work. -/
  | take
  /-- The next step of the work, with the result of the call if it is one. -/
  | advance (result : ℤ)

namespace AssistanceState

def start : AssistanceState where
  lastAgnss := ⟨0, []⟩
  submitting := false
  work := WorkQueue.empty
  lteReady := Semaphore.empty
  requestingAssistance := false

def evtAgnssReq (retval : ℤ) (frame : AgnssFrame) (state : AssistanceState) : AssistanceState :=
  if retval = 0 then { state with lastAgnss := frame, submitting := true } else state

def lteLcEventHandler (status : NwRegStatus) (state : AssistanceState) : AssistanceState :=
  match status with
  | .registeredHome | .registeredRoaming => { state with lteReady := state.lteReady.give }
  | .other => state

def goto (point : WorkPoint) (state : AssistanceState) : AssistanceState :=
  { state with work := state.work.goto point }

def finish (state : AssistanceState) : AssistanceState := { state with work := state.work.finish }

/-- A step of `agnss_data_get_work_fn` with `lte_connect` and `lte_disconnect`. The wait lasts until
the semaphore is available. -/
def agnssDataGetWorkFn (config : AssistanceConfig) (result : ℤ) (state : AssistanceState) :
    WorkPoint → Option AssistanceState
  | .testing [] _ => some state.finish
  | .testing (test :: tests) conditions =>
      if test.passes state.lastAgnss then some (state.goto (.testing tests conditions))
      else some (state.goto (.condition conditions))
  | .needed =>
      let next := { state with requestingAssistance := true }
      if config.lteOnDemand then some (next.goto .connecting) else some (next.goto .requesting)
  | .connecting =>
      if result = 0 then some (state.goto .waiting) else some (state.goto .requesting)
  | .waiting => state.lteReady.take.map fun lteReady ↦
      { state with lteReady := lteReady }.goto .requesting
  | .requesting =>
      if config.lteOnDemand then some (state.goto .disconnecting) else some (state.goto .answered)
  | .disconnecting => some (state.goto .answered)
  | .answered => some { state with requestingAssistance := false }.finish

/-- The event handlers and the work take their next steps in any order. The modem calls its handler
again only when it has returned. -/
def step (config : AssistanceConfig) (state : AssistanceState) (event : AssistanceEvent) :
    Option AssistanceState :=
  match event with
  | .evtAgnssReq retval frame =>
      if state.submitting then none else some (state.evtAgnssReq retval frame)
  | .submit =>
      if state.submitting then
        some { state with submitting := false, work := state.work.submit .agnssDataGetWork }
      else none
  | .nwRegStatus status => some (state.lteLcEventHandler status)
  | .take => (state.work.take (.condition config.conditions)).map fun work ↦
      { state with work := work }
  | .advance result => state.work.running.bind fun handler ↦
      state.agnssDataGetWorkFn config result handler.point

/-! ## What a step of the work does -/

/-- The point of the work, if it runs. -/
def point? (state : AssistanceState) : Option WorkPoint := state.work.running.map Handler.point

/-- Go on to another point, or return. -/
def leave (state : AssistanceState) (target : Option WorkPoint) : AssistanceState :=
  target.elim state.finish fun point ↦ state.goto point

/-- The steps of the work: from a point to another one or to the return, and the state that it
leaves behind. -/
inductive Moves (config : AssistanceConfig) (result : ℤ) (state : AssistanceState) :
    WorkPoint → Option WorkPoint → AssistanceState → Prop where
  | ignored (conditions : List (List Test)) :
      Moves config result state (.testing [] conditions) none state
  | passed {test : Test} (hpasses : test.passes state.lastAgnss = true) (tests : List Test)
      (conditions : List (List Test)) : Moves config result state
        (.testing (test :: tests) conditions) (some (.testing tests conditions)) state
  | failed {test : Test} (hfails : test.passes state.lastAgnss = false) (tests : List Test)
      (conditions : List (List Test)) : Moves config result state
        (.testing (test :: tests) conditions) (some (.condition conditions)) state
  | connect (hdemand : config.lteOnDemand = true) : Moves config result state .needed
      (some .connecting) { state with requestingAssistance := true }
  | connected (hdemand : config.lteOnDemand = false) : Moves config result state .needed
      (some .requesting) { state with requestingAssistance := true }
  | activated (hresult : result = 0) :
      Moves config result state .connecting (some .waiting) state
  | notActivated (hresult : result ≠ 0) :
      Moves config result state .connecting (some .requesting) state
  | wokenUp {lteReady : Semaphore 1} (htake : state.lteReady.take = some lteReady) :
      Moves config result state .waiting (some .requesting) { state with lteReady := lteReady }
  | disconnect (hdemand : config.lteOnDemand = true) :
      Moves config result state .requesting (some .disconnecting) state
  | stay (hdemand : config.lteOnDemand = false) :
      Moves config result state .requesting (some .answered) state
  | disconnected : Moves config result state .disconnecting (some .answered) state
  | answered : Moves config result state .answered none
      { state with requestingAssistance := false }

variable {config : AssistanceConfig} {state next : AssistanceState} {event : AssistanceEvent}
  {result : ℤ}

/-- These are all steps of the work. -/
theorem moves_of_work {point : WorkPoint}
    (hstep : state.agnssDataGetWorkFn config result point = some next) :
    ∃ target left, Moves config result state point target left ∧ next = left.leave target := by
  fun_cases agnssDataGetWorkFn config result state point with
  | case1 conditions => exact ⟨_, _, .ignored conditions, (Option.some.inj hstep).symm⟩
  | case2 test tests conditions hpasses =>
    have hnext := (if_pos hpasses).symm.trans hstep
    exact ⟨_, _, .passed hpasses tests conditions, (Option.some.inj hnext).symm⟩
  | case3 test tests conditions hfails =>
    have hnext := (if_neg hfails).symm.trans hstep
    have hfalse := Bool.eq_false_iff.mpr hfails
    exact ⟨_, _, .failed hfalse tests conditions, (Option.some.inj hnext).symm⟩
  | case4 _ hdemand =>
    have hnext := (if_pos hdemand).symm.trans hstep
    exact ⟨_, _, .connect hdemand, (Option.some.inj hnext).symm⟩
  | case5 _ hdemand =>
    have hnext := (if_neg hdemand).symm.trans hstep
    exact ⟨_, _, .connected (Bool.eq_false_iff.mpr hdemand), (Option.some.inj hnext).symm⟩
  | case6 hresult =>
    have hnext := (if_pos hresult).symm.trans hstep
    exact ⟨_, _, .activated hresult, (Option.some.inj hnext).symm⟩
  | case7 hresult =>
    have hnext := (if_neg hresult).symm.trans hstep
    exact ⟨_, _, .notActivated hresult, (Option.some.inj hnext).symm⟩
  | case8 =>
    obtain ⟨lteReady, htake, hnext⟩ := Option.map_eq_some_iff.mp hstep
    exact ⟨_, _, .wokenUp htake, hnext.symm⟩
  | case9 hdemand =>
    have hnext := (if_pos hdemand).symm.trans hstep
    exact ⟨_, _, .disconnect hdemand, (Option.some.inj hnext).symm⟩
  | case10 hdemand =>
    have hnext := (if_neg hdemand).symm.trans hstep
    exact ⟨_, _, .stay (Bool.eq_false_iff.mpr hdemand), (Option.some.inj hnext).symm⟩
  | case11 => exact ⟨_, _, .disconnected, (Option.some.inj hstep).symm⟩
  | case12 => exact ⟨_, _, .answered, (Option.some.inj hstep).symm⟩

theorem Moves.kept {point : WorkPoint} {target : Option WorkPoint} {left : AssistanceState}
    (h : Moves config result state point target left) : left.work = state.work ∧
      left.lastAgnss = state.lastAgnss ∧ left.submitting = state.submitting := by
  cases h <;> exact ⟨rfl, rfl, rfl⟩

section Leave

variable (state) (target : Option WorkPoint)

@[simp]
theorem lastAgnss_leave : (state.leave target).lastAgnss = state.lastAgnss := by
  cases target <;> rfl

@[simp]
theorem submitting_leave : (state.leave target).submitting = state.submitting := by
  cases target <;> rfl

@[simp]
theorem requestingAssistance_leave :
    (state.leave target).requestingAssistance = state.requestingAssistance := by
  cases target <;> rfl

@[simp]
theorem lteReady_leave : (state.leave target).lteReady = state.lteReady := by
  cases target <;> rfl

@[simp]
theorem pending_leave (item : GnssWork) :
    (state.leave target).work.Pending item ↔ state.work.Pending item := by
  cases target <;> rfl

theorem point?_leave {handler : Handler GnssWork WorkPoint}
    (hrunning : state.work.running = some handler) : (state.leave target).point? = target := by
  cases target with
  | none => rfl
  | some point =>
    have hmoved : (state.work.goto point).running = some { handler with point := point } :=
      Option.map_eq_some_iff.mpr ⟨handler, hrunning, rfl⟩
    exact Option.map_eq_some_iff.mpr ⟨_, hmoved, rfl⟩

end Leave

/-- A step of the work happens at its point and leads to another one. -/
theorem advance_cases (hstep : state.step config (.advance result) = some next) :
    ∃ point target left, state.point? = some point ∧ next.point? = target ∧
      Moves config result state point target left ∧ next = left.leave target := by
  obtain ⟨handler, hrunning, hwork⟩ := Option.bind_eq_some_iff.mp hstep
  obtain ⟨target, left, hmoves, rfl⟩ := moves_of_work hwork
  refine ⟨handler.point, target, left, Option.map_eq_some_iff.mpr ⟨handler, hrunning, rfl⟩, ?_,
    hmoves, rfl⟩
  apply point?_leave
  rw [hmoves.kept.1, hrunning]

/-- The thread takes the work when it is idle, and enters it at its first condition. -/
theorem take_cases (hstep : state.step config .take = some next) : ∃ work,
    next = { state with work := work } ∧ state.point? = none ∧
      next.point? = some (.condition config.conditions) ∧
      state.work.Pending .agnssDataGetWork := by
  obtain ⟨work, htake, rfl⟩ := Option.map_eq_some_iff.mp hstep
  obtain ⟨item, hidle, hrunning, hpending⟩ := WorkQueue.take_spec htake
  refine ⟨work, rfl, ?_, ?_, (hpending _).mpr (Or.inl rfl)⟩
  · rw [point?, hidle, Option.map_none]
  · rw [point?, hrunning, Option.map_some]

/-- Nothing cancels the work. -/
def Uncanceled (state : AssistanceState) : Prop := ¬ state.work.Canceling .agnssDataGetWork

theorem uncanceled_start : start.Uncanceled := fun ⟨_, hmem, _⟩ ↦ nomatch hmem

theorem Uncanceled.leave (h : state.Uncanceled) (target : Option WorkPoint) :
    (state.leave target).Uncanceled := by
  rintro ⟨handler, hmem, hitem, hcanceled⟩
  cases target with
  | none => cases hmem
  | some point =>
    obtain ⟨before, hbefore, hbeforeItem, hbeforeCanceled⟩ := WorkQueue.running_goto hmem
    exact h ⟨before, hbefore, hbeforeItem.symm.trans hitem, hbeforeCanceled.symm.trans hcanceled⟩

theorem Uncanceled.step (h : state.Uncanceled) (hstep : state.step config event = some next) :
    next.Uncanceled := by
  cases event with
  | evtAgnssReq retval frame =>
    have hnext := (Option.ite_none_left_eq_some.mp hstep).2
    rw [← Option.some.inj hnext]
    unfold evtAgnssReq
    split
    · exact h
    · exact h
  | submit =>
    have hnext := (Option.ite_none_right_eq_some.mp hstep).2
    rw [← Option.some.inj hnext]
    exact (WorkQueue.canceling_schedule 0).not.mpr h
  | nwRegStatus status =>
    rw [← Option.some.inj hstep]
    cases status with
    | registeredHome | registeredRoaming | other => exact h
  | take =>
    obtain ⟨work, htake, rfl⟩ := Option.map_eq_some_iff.mp hstep
    obtain ⟨_, _, hrunning, _⟩ := WorkQueue.take_spec htake
    rintro ⟨handler, hmem, _, hcanceled⟩
    rw [hrunning] at hmem
    rw [← Option.some.inj hmem] at hcanceled
    exact Bool.false_ne_true hcanceled
  | advance result =>
    obtain ⟨_, target, left, _, _, hmoves, rfl⟩ := advance_cases hstep
    have hleft : left.Uncanceled := by
      rw [Uncanceled, hmoves.kept.1]
      exact h
    exact hleft.leave target

end AssistanceState

/-! ## The newest request -/

inductive Decision where
  | ignored
  | requested (frame : AgnssFrame)
deriving DecidableEq

/-- What becomes of a request that does not change while the work looks at it. -/
def AssistanceConfig.decision (config : AssistanceConfig) (frame : AgnssFrame) : Decision :=
  if config.ignores frame then .ignored else .requested frame

inductive AssistanceAction where
  /-- The call that activates LTE, with its result. -/
  | activate (result : ℤ)
  | decided (decision : Decision)
  | deactivate
deriving DecidableEq

namespace AssistanceState

/-- The actions of the work at a point. -/
def actionsAt (state : AssistanceState) (result : ℤ) : WorkPoint → List AssistanceAction
  | .testing [] _ => [.decided .ignored]
  | .connecting => [.activate result]
  | .requesting => [.decided (.requested state.lastAgnss)]
  | .disconnecting => [.deactivate]
  | .testing (_ :: _) _ | .needed | .waiting | .answered => []

def actions (state : AssistanceState) : AssistanceEvent → List AssistanceAction
  | .advance result => state.point?.elim [] (state.actionsAt result)
  | .evtAgnssReq _ _ | .submit | .nwRegStatus _ | .take => []

/-- The decisions among the actions. -/
def decisions (state : AssistanceState) (event : AssistanceEvent) : List Decision :=
  (state.actions event).filterMap fun action ↦
    match action with
    | .decided decision => some decision
    | .activate _ | .deactivate => none

/-- The work neither runs nor is submitted or about to be. -/
structure AtRest (state : AssistanceState) : Prop where
  not_submitting : state.submitting = false
  not_pending : ¬ state.work.Pending .agnssDataGetWork
  not_running : state.point? = none

/-- At a point whose tests agree with the request, the decision is ahead or was the last one. -/
def Decides (config : AssistanceConfig) (frame : AgnssFrame) (history : List Decision) :
    Option WorkPoint → Prop
  | some (.testing tests conditions) =>
      config.ignores frame = (tests.all (Test.passes frame) ||
        conditions.any fun tests ↦ tests.all (Test.passes frame))
  | some .needed | some .connecting | some .waiting | some .requesting =>
      config.ignores frame = false
  | some .disconnecting | some .answered | none =>
      history.getLast? = some (config.decision frame)

/-- The request is the newest one, and a decision on it is ahead or was the last one. -/
structure Settles (config : AssistanceConfig) (frame : AgnssFrame) (history : List Decision)
    (state : AssistanceState) : Prop where
  last_eq : state.lastAgnss = frame
  uncanceled : state.Uncanceled
  ahead : state.submitting = true ∨ state.work.Pending .agnssDataGetWork ∨
    Decides config frame history state.point?

variable {config : AssistanceConfig} {state next : AssistanceState} {event : AssistanceEvent}
  {result : ℤ} {frame : AgnssFrame} {history : List Decision}

theorem decides_condition {conditions : List (List Test)}
    (h : config.ignores frame = conditions.any fun tests ↦ tests.all (Test.passes frame)) :
    Decides config frame history (some (.condition conditions)) := by
  cases conditions with
  | nil => exact h
  | cons tests conditions => exact h

/-- The steps of the work keep the decision ahead, or make it. -/
theorem Decides.advance {point : WorkPoint} {target : Option WorkPoint} {left : AssistanceState}
    (hpoint : state.point? = some point) (h : Decides config state.lastAgnss history (some point))
    (hmoves : Moves config result state point target left) :
    Decides config state.lastAgnss (history ++ state.decisions (.advance result)) target := by
  have hdecided (decision : Decision)
      (hdecision : config.decision state.lastAgnss = decision) :
      (history ++ [decision]).getLast? = some (config.decision state.lastAgnss) := by
    rw [hdecision]
    exact List.getLast?_concat
  rw [decisions, actions, hpoint, Option.elim_some]
  cases hmoves with
  | ignored conditions => exact hdecided .ignored (if_pos h)
  | passed hpasses tests conditions =>
    rw [Decides, List.all_cons, hpasses, Bool.true_and] at h
    exact h
  | failed hfails tests conditions =>
    rw [Decides, List.all_cons, hfails, Bool.false_and, Bool.false_or] at h
    exact decides_condition h
  | connect | connected | activated | notActivated | wokenUp => exact h
  | disconnect | stay =>
    exact hdecided (.requested state.lastAgnss) (if_neg (Bool.eq_false_iff.mp h))
  | disconnected | answered =>
    rw [← List.append_nil history] at h
    exact h

theorem Settles.step (h : Settles config frame history state)
    (hkept : ∀ retval other, event = .evtAgnssReq retval other → retval ≠ 0)
    (hstep : state.step config event = some next) :
    Settles config frame (history ++ state.decisions event) next := by
  have huncanceled := h.uncanceled.step hstep
  cases event with
  | evtAgnssReq retval other =>
    have hnext := (Option.ite_none_left_eq_some.mp hstep).2
    have hsame : state.evtAgnssReq retval other = state := if_neg (hkept retval other rfl)
    rw [← Option.some.inj hnext, hsame, decisions, actions, List.filterMap_nil, List.append_nil]
    exact h
  | submit =>
    have hnext := (Option.ite_none_right_eq_some.mp hstep).2
    rw [← Option.some.inj hnext] at huncanceled ⊢
    refine ⟨h.last_eq, huncanceled, Or.inr (Or.inl ?_)⟩
    exact (WorkQueue.pending_schedule 0).mpr (Or.inr ⟨rfl, h.uncanceled⟩)
  | nwRegStatus status =>
    rw [← Option.some.inj hstep, decisions, actions, List.filterMap_nil, List.append_nil]
    cases status with
    | registeredHome | registeredRoaming | other => exact ⟨h.last_eq, h.uncanceled, h.ahead⟩
  | take =>
    obtain ⟨work, rfl, _, hpoint, _⟩ := take_cases hstep
    refine ⟨h.last_eq, huncanceled, Or.inr (Or.inr ?_)⟩
    rw [hpoint]
    exact decides_condition rfl
  | advance result =>
    obtain ⟨point, target, left, hpoint, htarget, hmoves, rfl⟩ := advance_cases hstep
    obtain ⟨hwork, hlast, hsubmitting⟩ := hmoves.kept
    refine ⟨?_, huncanceled, ?_⟩
    · rw [lastAgnss_leave, hlast, h.last_eq]
    · rw [submitting_leave, hsubmitting, pending_leave, hwork]
      apply h.ahead.imp id
      apply Or.imp id
      intro hdecides
      rw [htarget]
      rw [hpoint] at hdecides
      have hlastFrame := h.last_eq
      subst hlastFrame
      exact hdecides.advance hpoint hmoves

/-- Behind the newest request the work does not come to rest before it has decided, and its last
decision is the one for this request, whatever it saw of older requests in between. -/
theorem newest_decided {before after : List AssistanceEvent} {final : AssistanceState}
    (hrun : run (step config) start (before ++ .evtAgnssReq 0 frame :: after) = some final)
    (hnewest : ∀ retval other, .evtAgnssReq retval other ∈ after → retval ≠ 0)
    (hrest : final.AtRest) :
    ∃ stored, run (step config) start (before ++ [.evtAgnssReq 0 frame]) = some stored ∧
      (outputs (step config) decisions stored after).getLast? = some (config.decision frame) := by
  rw [run_append] at hrun
  obtain ⟨reached, hbefore, hrest'⟩ := Option.bind_eq_some_iff.mp hrun
  obtain ⟨stored, hstored, hafter⟩ := Option.bind_eq_some_iff.mp hrest'
  have huncanceled : reached.Uncanceled :=
    run_invariant (fun _ _ _ h hstep ↦ Uncanceled.step h hstep) uncanceled_start hbefore
  have hnext := (Option.ite_none_left_eq_some.mp hstored).2
  have hframe : stored = { reached with lastAgnss := frame, submitting := true } :=
    (Option.some.inj hnext).symm
  have hsettles : Settles config frame [] stored := by
    rw [hframe]
    exact ⟨rfl, huncanceled, Or.inl rfl⟩
  have hstep : ∀ history state event next,
      (∀ retval other, event = .evtAgnssReq retval other → retval ≠ 0) →
      Settles config frame history state → step config state event = some next →
      Settles config frame (history ++ decisions state event) next :=
    fun _ _ _ _ hkept h hstep ↦ h.step hkept hstep
  have hkept : ∀ event ∈ after, ∀ retval other,
      event = .evtAgnssReq retval other → retval ≠ 0 := by
    rintro _ hevent retval other rfl
    exact hnewest retval other hevent
  have hfinal := outputs_invariant hstep hsettles (along_of_forall hkept) hafter
  refine ⟨stored, ?_, ?_⟩
  · rw [run_append, hbefore, Option.bind_some, run_cons, hstored]
    rfl
  · rcases hfinal.ahead with hsubmitting | hpending | hdecides
    · exact absurd (hrest.not_submitting.symm.trans hsubmitting) Bool.false_ne_true
    · exact absurd hpending hrest.not_pending
    · rw [hrest.not_running] at hdecides
      exact hdecides

/-- SUPL assistance with LTE on demand. -/
def suplConfig : AssistanceConfig where
  assistance := .supl
  lteOnDemand := true
  nequickRequest := 4
  integrityRequest := 32
  gpsSysTimeAndSvTowRequest := 8
  positionRequest := 16

/-- A request for everything. -/
def everything : AgnssFrame := ⟨63, [⟨1, 0xFFFFFFFF, 0xFFFFFFFF⟩]⟩

/-- A request that SUPL does not answer. -/
def onlyNequick : AgnssFrame := ⟨4, [⟨1, 0, 0⟩]⟩

/-- The start of a run whose second request arrives between two tests of the first one. -/
def untilOvertaken : List AssistanceEvent :=
  [.evtAgnssReq 0 everything, .submit, .take, .advance 0]

def behindOvertaken : List AssistanceEvent :=
  [.advance 0, .submit, .advance 0, .advance 0, .nwRegStatus .registeredHome, .advance 0,
    .advance 0, .advance 0, .advance 0, .take, .advance 0, .advance 0, .advance 0, .advance 0]

theorem run_overtaken : ∃ final, run (step suplConfig) start
    (untilOvertaken ++ .evtAgnssReq 0 onlyNequick :: behindOvertaken) = some final ∧
      final.AtRest :=
  ⟨_, rfl, rfl, by decide, rfl⟩

/-- The work passes the second request on as if it were the first one, and ignores it later. -/
theorem newest_decided_overtaken : ∃ stored,
    run (step suplConfig) start (untilOvertaken ++ [.evtAgnssReq 0 onlyNequick]) = some stored ∧
      (outputs (step suplConfig) decisions stored behindOvertaken).getLast? =
        some (suplConfig.decision onlyNequick) := by
  obtain ⟨final, hrun, hrest⟩ := run_overtaken
  refine newest_decided hrun (fun retval other hmem ↦ ?_) hrest
  simp [behindOvertaken] at hmem

end AssistanceState

/-! ## Sessions -/

/-- What the work does from its start to its return. -/
inductive Session where
  | ignored
  | served (activation : ℤ) (frame : AgnssFrame)

/-- The actions of a session. With LTE on demand the request is made between the activation and the
deactivation, even where the former failed. -/
def Session.actions (config : AssistanceConfig) : Session → List AssistanceAction
  | .ignored => [.decided .ignored]
  | .served activation frame =>
      if config.lteOnDemand then
        [.activate activation, .decided (.requested frame), .deactivate]
      else [.decided (.requested frame)]

/-- `requesting_assistance` is set. -/
def WorkPoint.serves : WorkPoint → Bool
  | .testing _ _ | .needed => false
  | .connecting | .waiting | .requesting | .disconnecting | .answered => true

namespace AssistanceState

/-- The actions of the session that is not over yet. -/
def Opened (config : AssistanceConfig) (actions : List AssistanceAction) :
    Option WorkPoint → Prop
  | none | some (.testing _ _) | some .needed => actions = []
  | some .connecting => config.lteOnDemand = true ∧ actions = []
  | some .waiting => config.lteOnDemand = true ∧ actions = [.activate 0]
  | some .requesting =>
      if config.lteOnDemand then ∃ activation, actions = [.activate activation] else actions = []
  | some .disconnecting => config.lteOnDemand = true ∧ ∃ activation frame,
      actions = [.activate activation, .decided (.requested frame)]
  | some .answered => ∃ activation frame, actions = (Session.served activation frame).actions config

/-- The actions so far are those of whole sessions and of an opened one. -/
structure Bracketed (config : AssistanceConfig) (history : List AssistanceAction)
    (state : AssistanceState) : Prop where
  sessions : ∃ (sessions : List Session) (opened : List AssistanceAction),
    history = sessions.flatMap (Session.actions config) ++ opened ∧
      Opened config opened state.point?
  flag_eq : state.requestingAssistance = state.point?.any WorkPoint.serves

variable {config : AssistanceConfig} {state next : AssistanceState} {event : AssistanceEvent}
  {result : ℤ} {history opened : List AssistanceAction}

theorem opened_condition (conditions : List (List Test)) :
    Opened config [] (some (.condition conditions)) := by
  cases conditions with
  | nil => rfl
  | cons tests conditions => rfl

/-- A step of the work goes on with the session, or ends it. -/
theorem Opened.advance {point : WorkPoint} {target : Option WorkPoint} {left : AssistanceState}
    (h : Opened config opened (some point)) (hmoves : Moves config result state point target left) :
    Opened config (opened ++ state.actionsAt result point) target ∨
      ∃ session : Session, opened ++ state.actionsAt result point = session.actions config ∧
        Opened config [] target := by
  cases hmoves with
  | ignored conditions =>
    obtain rfl : opened = [] := h
    exact Or.inr ⟨.ignored, rfl, rfl⟩
  | passed hpasses tests conditions =>
    obtain rfl : opened = [] := h
    exact Or.inl rfl
  | failed hfails tests conditions =>
    obtain rfl : opened = [] := h
    exact Or.inl (opened_condition conditions)
  | connect hdemand =>
    obtain rfl : opened = [] := h
    exact Or.inl ⟨hdemand, rfl⟩
  | connected hdemand =>
    obtain rfl : opened = [] := h
    apply Or.inl
    rw [Opened, hdemand]
    rfl
  | activated hresult =>
    obtain ⟨hdemand, rfl⟩ := h
    rw [hresult]
    exact Or.inl ⟨hdemand, rfl⟩
  | notActivated hresult =>
    obtain ⟨hdemand, rfl⟩ := h
    apply Or.inl
    rw [Opened, if_pos hdemand]
    exact ⟨result, rfl⟩
  | wokenUp htake =>
    obtain ⟨hdemand, rfl⟩ := h
    apply Or.inl
    rw [Opened, if_pos hdemand]
    exact ⟨0, rfl⟩
  | disconnect hdemand =>
    rw [Opened, if_pos hdemand] at h
    obtain ⟨activation, rfl⟩ := h
    exact Or.inl ⟨hdemand, activation, state.lastAgnss, rfl⟩
  | stay hdemand =>
    rw [Opened, if_neg (Bool.eq_false_iff.mp hdemand)] at h
    rw [h]
    refine Or.inl ⟨0, state.lastAgnss, ?_⟩
    rw [Session.actions, if_neg (Bool.eq_false_iff.mp hdemand)]
    rfl
  | disconnected =>
    obtain ⟨hdemand, activation, frame, rfl⟩ := h
    refine Or.inl ⟨activation, frame, ?_⟩
    rw [Session.actions, if_pos hdemand]
    rfl
  | answered =>
    obtain ⟨activation, frame, rfl⟩ := h
    exact Or.inr ⟨.served activation frame, List.append_nil _, rfl⟩

theorem Bracketed.advance {point : WorkPoint} {target : Option WorkPoint} {left : AssistanceState}
    (h : Bracketed config history state) (hpoint : state.point? = some point)
    (hmoves : Moves config result state point target left) :
    (∃ (sessions : List Session) (opened : List AssistanceAction),
      history ++ state.actionsAt result point =
        sessions.flatMap (Session.actions config) ++ opened ∧ Opened config opened target) ∧
      left.requestingAssistance = target.any WorkPoint.serves := by
  constructor
  · obtain ⟨sessions, opened, rfl, hopened⟩ := h.sessions
    rw [hpoint] at hopened
    rcases hopened.advance hmoves with hnext | ⟨session, hsession, hnext⟩
    · exact ⟨sessions, _, List.append_assoc _ _ _, hnext⟩
    · refine ⟨sessions ++ [session], [], ?_, hnext⟩
      rw [List.append_assoc, hsession, List.flatMap_append, List.flatMap_singleton, List.append_nil]
  · have hflag := h.flag_eq
    rw [hpoint] at hflag
    cases hmoves with
    | failed hfails tests conditions =>
      rw [hflag]
      cases conditions with
      | nil => rfl
      | cons tests conditions => rfl
    | ignored | passed | connect | connected | activated | notActivated | wokenUp | disconnect |
      stay | disconnected | answered => first | rfl | exact hflag

theorem Bracketed.step (h : Bracketed config history state)
    (hstep : state.step config event = some next) :
    Bracketed config (history ++ state.actions event) next := by
  cases event with
  | evtAgnssReq retval other =>
    have hnext := (Option.ite_none_left_eq_some.mp hstep).2
    rw [← Option.some.inj hnext, actions, List.append_nil]
    unfold evtAgnssReq
    split
    · exact ⟨h.sessions, h.flag_eq⟩
    · exact h
  | submit =>
    have hnext := (Option.ite_none_right_eq_some.mp hstep).2
    have hpoint : ({ state with
        submitting := false
        work := state.work.submit .agnssDataGetWork } : AssistanceState).point? = state.point? :=
      congrArg (Option.map Handler.point) (WorkQueue.running_schedule _ _ _)
    rw [← Option.some.inj hnext, actions, List.append_nil]
    exact ⟨hpoint ▸ h.sessions, hpoint ▸ h.flag_eq⟩
  | nwRegStatus status =>
    rw [← Option.some.inj hstep, actions, List.append_nil]
    cases status with
    | registeredHome | registeredRoaming | other => exact ⟨h.sessions, h.flag_eq⟩
  | take =>
    obtain ⟨work, rfl, hidle, hpoint, _⟩ := take_cases hstep
    obtain ⟨sessions, opened, hhistory, hopened⟩ := h.sessions
    have hflag := h.flag_eq
    rw [hidle] at hopened hflag
    obtain rfl : opened = [] := hopened
    refine ⟨⟨sessions, [], ?_, ?_⟩, ?_⟩
    · rw [actions, List.append_nil, hhistory]
    · rw [hpoint]
      exact opened_condition _
    · rw [hpoint]
      cases hconditions : config.conditions with
      | nil => exact hflag
      | cons tests conditions => exact hflag
  | advance result =>
    obtain ⟨point, target, left, hpoint, htarget, hmoves, rfl⟩ := advance_cases hstep
    obtain ⟨hsessions, hflag⟩ := h.advance hpoint hmoves
    refine ⟨?_, ?_⟩
    · rw [actions, hpoint, htarget]
      exact hsessions
    · rw [requestingAssistance_leave, htarget]
      exact hflag

theorem bracketed_start : Bracketed config [] start := ⟨⟨[], [], rfl, rfl⟩, rfl⟩

/-- Whatever the interleaving, the work does one whole session after the other, at rest none is
open, and `requesting_assistance` is set exactly while one is served. -/
theorem sessions_of_run {events : List AssistanceEvent} {final : AssistanceState}
    (hrun : run (step config) start events = some final) :
    Bracketed config (outputs (step config) actions start events) final := by
  have hstep : ∀ history state event next, True → Bracketed config history state →
      step config state event = some next →
      Bracketed config (history ++ actions state event) next :=
    fun _ _ _ _ _ h hstep ↦ h.step hstep
  exact outputs_invariant hstep bracketed_start (along_of_forall fun _ _ ↦ trivial) hrun

theorem sessions_of_run_overtaken : ∃ final, run (step suplConfig) start
    (untilOvertaken ++ .evtAgnssReq 0 onlyNequick :: behindOvertaken) = some final ∧
      Bracketed suplConfig (outputs (step suplConfig) actions start
        (untilOvertaken ++ .evtAgnssReq 0 onlyNequick :: behindOvertaken)) final := by
  obtain ⟨final, hrun, _⟩ := run_overtaken
  exact ⟨final, hrun, sessions_of_run hrun⟩

end AssistanceState

/-! ## Waiting for LTE -/

/-- What decides how long `lte_connect` waits. -/
inductive LteMark where
  /-- LTE was activated. -/
  | activated
  | registered
  /-- `k_sem_take` returned. -/
  | wokenUp
deriving DecidableEq

/-- A registration was reported since the last wait ended. -/
def Unanswered (marks : List LteMark) : Prop :=
  (marks.filter (· ≠ .activated)).getLast? = some .registered

namespace AssistanceState

/-- The marks of the work at a point. -/
def marksAt (result : ℤ) : WorkPoint → List LteMark
  | .connecting => if result = 0 then [.activated] else []
  | .waiting => [.wokenUp]
  | .testing _ _ | .needed | .requesting | .disconnecting | .answered => []

def marks (state : AssistanceState) : AssistanceEvent → List LteMark
  | .nwRegStatus .registeredHome | .nwRegStatus .registeredRoaming => [.registered]
  | .advance result => state.point?.elim [] (marksAt result)
  | .evtAgnssReq _ _ | .submit | .nwRegStatus .other | .take => []

/-- The step that activates LTE. -/
def Activates (state : AssistanceState) (event : AssistanceEvent) : Prop :=
  state.point? = some .connecting ∧ event = .advance 0

variable {config : AssistanceConfig} {state next : AssistanceState} {event : AssistanceEvent}
  {result : ℤ} {history : List LteMark}

@[simp]
theorem unanswered_activated : Unanswered (history ++ [.activated]) ↔ Unanswered history := by
  simp [Unanswered]

@[simp]
theorem unanswered_registered : Unanswered (history ++ [.registered]) := by
  simp [Unanswered]

@[simp]
theorem not_unanswered_wokenUp : ¬ Unanswered (history ++ [.wokenUp]) := by
  simp [Unanswered]

theorem condition_ne_waiting (conditions : List (List Test)) :
    WorkPoint.condition conditions ≠ .waiting := by
  cases conditions with
  | nil => exact WorkPoint.noConfusion
  | cons tests conditions => exact WorkPoint.noConfusion

/-! ### Steps -/

/-- A step that leaves no mark neither gives nor takes the semaphore and begins no wait. -/
structure Unmarked (state next : AssistanceState) (event : AssistanceEvent) : Prop where
  marks_eq : state.marks event = []
  lteReady_eq : next.lteReady = state.lteReady
  waiting : next.point? = some .waiting → state.point? = some .waiting

/-- What the step that leaves a mark does to the semaphore and to the wait. -/
def Marked (state next : AssistanceState) (event : AssistanceEvent) : LteMark → Prop
  | .activated => state.Activates event ∧ next.lteReady = state.lteReady ∧
      next.point? = some .waiting
  | .registered => next.lteReady.count ≠ 0
  | .wokenUp => next.lteReady.count = 0 ∧ next.point? ≠ some .waiting

theorem marks_of_advance {point : WorkPoint} {target : Option WorkPoint} {left : AssistanceState}
    (hpoint : state.point? = some point) (hmoves : Moves config result state point target left)
    (hnext : next = left.leave target) (htarget : next.point? = target) :
    Unmarked state next (.advance result) ∨
      ∃ mark, state.marks (.advance result) = [mark] ∧
        Marked state next (.advance result) mark := by
  have hready : next.lteReady = left.lteReady := by rw [hnext, lteReady_leave]
  have hmarks : state.marks (.advance result) = marksAt result point := by
    rw [marks, hpoint, Option.elim_some]
  have hnot (hne : target ≠ some .waiting) :
      next.point? = some .waiting → state.point? = some .waiting :=
    fun hwaiting ↦ absurd (htarget.symm.trans hwaiting) hne
  cases hmoves with
  | ignored | passed | connect | connected | disconnect | stay | disconnected | answered =>
    exact Or.inl ⟨hmarks, hready, hnot (by simp)⟩
  | failed hfails tests conditions =>
    refine Or.inl ⟨hmarks, hready, hnot fun heq ↦ ?_⟩
    exact condition_ne_waiting conditions (Option.some.inj heq)
  | activated hresult =>
    refine Or.inr ⟨.activated, hmarks.trans (if_pos hresult), ⟨hpoint, ?_⟩, hready, htarget⟩
    rw [hresult]
  | notActivated hresult =>
    exact Or.inl ⟨hmarks.trans (if_neg hresult), hready, hnot (by simp)⟩
  | wokenUp htake =>
    have hcount := Semaphore.count_take htake
    have hlimit := state.lteReady.count_le
    refine Or.inr ⟨.wokenUp, hmarks, ?_, ?_⟩
    · rw [hready]
      dsimp only
      omega
    · rw [htarget]
      simp

theorem marks_of_step (hstep : state.step config event = some next) :
    Unmarked state next event ∨
      ∃ mark, state.marks event = [mark] ∧ Marked state next event mark := by
  cases event with
  | evtAgnssReq retval other =>
    have hnext := (Option.ite_none_left_eq_some.mp hstep).2
    rw [← Option.some.inj hnext]
    unfold evtAgnssReq
    split
    · exact Or.inl ⟨rfl, rfl, id⟩
    · exact Or.inl ⟨rfl, rfl, id⟩
  | submit =>
    have hnext := (Option.ite_none_right_eq_some.mp hstep).2
    rw [← Option.some.inj hnext]
    refine Or.inl ⟨rfl, rfl, fun hwaiting ↦ ?_⟩
    rw [point?, WorkQueue.submit, WorkQueue.running_schedule] at hwaiting
    exact hwaiting
  | nwRegStatus status =>
    rw [← Option.some.inj hstep]
    cases status with
    | registeredHome | registeredRoaming =>
      exact Or.inr ⟨.registered, rfl, Semaphore.count_give_ne_zero one_pos _⟩
    | other => exact Or.inl ⟨rfl, rfl, id⟩
  | take =>
    obtain ⟨work, rfl, _, hpoint, _⟩ := take_cases hstep
    refine Or.inl ⟨rfl, rfl, fun hwaiting ↦ ?_⟩
    exact absurd (Option.some.inj (hpoint.symm.trans hwaiting)) (condition_ne_waiting _)
  | advance result =>
    obtain ⟨point, target, left, hpoint, htarget, hmoves, hnext⟩ := advance_cases hstep
    exact marks_of_advance hpoint hmoves hnext htarget

/-! ### Runs -/

/-- The semaphore is available if a registration was reported since the last wait ended. -/
def Tracks (history : List LteMark) (state : AssistanceState) : Prop :=
  state.lteReady.count ≠ 0 ↔ Unanswered history

theorem Tracks.step (h : Tracks history state) (hstep : state.step config event = some next) :
    Tracks (history ++ state.marks event) next := by
  rcases marks_of_step hstep with hnone | ⟨mark, hmark, hmarked⟩
  · rwa [Tracks, hnone.marks_eq, hnone.lteReady_eq, List.append_nil]
  · rw [Tracks, hmark]
    cases mark with
    | activated => rwa [hmarked.2.1, unanswered_activated]
    | registered => exact iff_of_true hmarked unanswered_registered
    | wokenUp => exact iff_of_false (fun hcount ↦ hcount hmarked.1) not_unanswered_wokenUp

theorem tracks_of_run {events : List AssistanceEvent} {final : AssistanceState}
    (hrun : run (step config) start events = some final) :
    Tracks (outputs (step config) marks start events) final := by
  have hstep : ∀ history state event next, True → Tracks history state →
      step config state event = some next → Tracks (history ++ marks state event) next :=
    fun _ _ _ _ _ h hstep ↦ h.step hstep
  have hstart : Tracks [] start :=
    iff_of_false (fun hcount ↦ hcount rfl) (Option.some_ne_none _).symm
  exact outputs_invariant hstep hstart (along_of_forall fun _ _ ↦ trivial) hrun

/-- A wait that can end does so behind a registration reported since its activation. -/
def Awaits (history : List LteMark) (state : AssistanceState) : Prop :=
  state.point? = some .waiting → state.lteReady.count ≠ 0 →
    history.getLast? = some .registered

theorem Awaits.step (h : Awaits history state)
    (hactivates : state.Activates event → state.lteReady.count = 0)
    (hstep : state.step config event = some next) :
    Awaits (history ++ state.marks event) next := by
  intro hwaiting hcount
  rcases marks_of_step hstep with hnone | ⟨mark, hmark, hmarked⟩
  · rw [hnone.lteReady_eq] at hcount
    rw [hnone.marks_eq, List.append_nil]
    exact h (hnone.waiting hwaiting) hcount
  · cases mark with
    | activated =>
      rw [hmarked.2.1] at hcount
      exact absurd (hactivates hmarked.1) hcount
    | registered =>
      rw [hmark]
      exact List.getLast?_concat
    | wokenUp => exact absurd hwaiting hmarked.2

/-- In every state reached, a wait ends only behind a registration reported since its activation,
exactly if the run never activates LTE with a registration reported since the last wait ended. -/
theorem awaits_iff (config : AssistanceConfig) (events : List AssistanceEvent) :
    (∀ before after reached, events = before ++ after →
      run (step config) start before = some reached →
      Awaits (outputs (step config) marks start before) reached) ↔
    ∀ before event after reached, events = before ++ event :: after →
      run (step config) start before = some reached → reached.Activates event →
      ¬ Unanswered (outputs (step config) marks start before) := by
  constructor
  · rintro hall before event after reached hevents hrun ⟨hpoint, rfl⟩ hleft
    have hcount := (tracks_of_run hrun).mpr hleft
    obtain ⟨handler, hrunning, hconnecting⟩ := Option.map_eq_some_iff.mp hpoint
    have hstep : reached.step config (.advance 0) = some (reached.leave (some .waiting)) := by
      rw [step, hrunning, Option.bind_some, hconnecting]
      rfl
    have hwaiting : (reached.leave (some .waiting)).point? = some .waiting :=
      point?_leave reached _ hrunning
    have hsplit : events = (before ++ [.advance 0]) ++ after := by
      rw [hevents, List.append_assoc]
      rfl
    have hreached : run (step config) start (before ++ [.advance 0]) =
        some (reached.leave (some .waiting)) := by
      rw [run_append, hrun, Option.bind_some, run_cons, hstep]
      rfl
    have hlast := hall _ after _ hsplit hreached hwaiting hcount
    have hmarks : outputs (step config) marks start (before ++ [.advance 0]) =
        outputs (step config) marks start before ++ [.activated] := by
      rw [outputs_append, hrun, Option.elim_some, outputs, hstep, Option.elim_some, outputs,
        List.append_nil, marks, hpoint]
      rfl
    rw [hmarks, List.getLast?_concat] at hlast
    cases hlast
  · intro hnone before after reached hevents hrun
    have hempty : Along (step config)
        (fun state event ↦ state.Activates event → state.lteReady.count = 0) start before := by
      by_contra hnot
      obtain ⟨front, event, back, state, hfront, hreached, hfails⟩ := exists_of_not_along hnot
      obtain ⟨hactivates, hcount⟩ := Classical.not_imp.mp hfails
      apply hnone front event (back ++ after) state _ hreached hactivates
      · exact (tracks_of_run hreached).mp hcount
      · rw [hevents, hfront, List.append_assoc]
        rfl
    have hstep : ∀ history state event next,
        (state.Activates event → state.lteReady.count = 0) → Awaits history state →
        step config state event = some next → Awaits (history ++ marks state event) next :=
      fun _ _ _ _ hactivates h hstep ↦ h.step hactivates hstep
    have hstart : Awaits [] start := fun hwaiting _ ↦ absurd hwaiting (Option.some_ne_none _).symm
    exact outputs_invariant hstep hstart hempty hrun

end AssistanceState

end NrfExamples.Gnss
