import NrfExamples.AwsIot.Client
import NrfExamples.Library.Trace

/-!
# Reconnection after a disconnect

The connected event cancels `connect_work`. If its handler runs, the work item is being cancelled
until the handler returns, and a disconnected event that arrives in this window cannot schedule it
again: the client stays offline. `reconnects_iff` says that this is the only way in which an offline
client comes to have no connection attempt ahead.
-/

namespace NrfExamples.AwsIot

open Trace

namespace Client

/-- A connection attempt is ahead: `connect_work` is delayed or queued, or its handler runs, has its
reschedule ahead and is not being cancelled. -/
def ConnectAhead (client : Client) : Prop :=
  client.work.Pending .connectWork ∨ ∃ handler ∈ client.work.running,
    handler.item = .connectWork ∧ handler.point ≠ .exit ∧ handler.canceled = false

instance (client : Client) : Decidable client.ConnectAhead := inferInstanceAs (Decidable (_ ∨ _))

/-- The client is never offline without a connection attempt ahead. -/
def Reconnects (client : Client) : Prop := client.cloudConnected = false → client.ConnectAhead

/-- A disconnected event is not delivered while `connect_work` is being cancelled. -/
def OutsideCancel (client : Client) (event : Event) : Prop :=
  event = .disconnected → ¬ client.work.Canceling .connectWork

variable {config : Config} {client next : Client} {event : Event}

/-! ## Offline states -/

/-- Offline, an attempt is ahead and `connect_work` is not being cancelled. -/
def Attempting (client : Client) : Prop :=
  client.cloudConnected = false → client.ConnectAhead ∧ ¬ client.work.Canceling .connectWork

theorem attempting_start : start.Attempting := fun _ ↦ by decide

theorem attempting_of_same (h : client.Attempting)
    (hflag : next.cloudConnected = client.cloudConnected)
    (hrunning : next.work.running = client.work.running)
    (hpending : client.work.Pending .connectWork → next.work.Pending .connectWork) :
    next.Attempting := by
  intro hoffline
  obtain ⟨hahead, hcancel⟩ := h (hflag.symm.trans hoffline)
  constructor
  · rw [ConnectAhead, hrunning]
    exact hahead.imp_left hpending
  · rwa [WorkQueue.Canceling, hrunning]

theorem attempting_onDisconnected (h : ¬ client.work.Canceling .connectWork) :
    client.onDisconnected.Attempting := by
  have hfree : ¬ (client.work.cancel .shadowUpdateWork).Canceling .connectWork := by
    rwa [WorkQueue.canceling_cancel_of_ne (by decide)]
  refine fun _ ↦ ⟨Or.inl ?_, ?_⟩
  · exact (WorkQueue.pending_schedule 0).mpr (Or.inr ⟨rfl, hfree⟩)
  · rwa [onDisconnected, WorkQueue.canceling_schedule]

theorem attempting_take {work : WorkQueue WorkItem Point} (h : client.Attempting)
    (htake : client.work.take .entry = some work) :
    ({ client with work := work } : Client).Attempting := by
  obtain ⟨item, hidle, hrunning, hpending⟩ := WorkQueue.take_spec htake
  intro hoffline
  have hahead : client.work.Pending .connectWork := by
    refine (h hoffline).1.resolve_right fun ⟨handler, hmem, _⟩ ↦ ?_
    exact nomatch hidle.symm.trans hmem
  constructor
  · cases (hpending .connectWork).mp hahead with
    | inl hitem => exact Or.inr ⟨_, hrunning, hitem.symm, Point.noConfusion, rfl⟩
    | inr hlater => exact Or.inl hlater
  · rintro ⟨handler, hmem, _, hcanceled⟩
    rw [← Option.some.inj (hrunning.symm.trans hmem)] at hcanceled
    exact Bool.false_ne_true hcanceled

theorem cloudConnected_workFn (item : WorkItem) (point : Point) :
    (workFn config item point client).cloudConnected = client.cloudConnected := by
  cases item with
  | connectWork | shadowUpdateWork | shadowUpdateVersionWork =>
    cases point with
    | entry | call | exit => rfl

/-- A handler only changes its point, or returns. -/
theorem running_workFn {item : WorkItem} {point : Point} {handler : Handler WorkItem Point}
    (h : handler ∈ (workFn config item point client).work.running) :
    ∃ before ∈ client.work.running,
      handler.item = before.item ∧ handler.canceled = before.canceled := by
  cases item with
  | connectWork | shadowUpdateWork =>
    cases point with
    | entry => exact WorkQueue.running_goto h
    | call =>
      obtain ⟨before, hbefore, hsame⟩ := WorkQueue.running_goto h
      rw [WorkQueue.running_schedule] at hbefore
      exact ⟨before, hbefore, hsame⟩
    | exit => exact nomatch h
  | shadowUpdateVersionWork =>
    cases point with
    | entry | call => exact WorkQueue.running_goto h
    | exit => exact nomatch h

/-- A handler does not begin a cancellation. -/
theorem canceling_of_workFn {item : WorkItem} {point : Point} {other : WorkItem}
    (h : (workFn config item point client).work.Canceling other) :
    client.work.Canceling other := by
  obtain ⟨handler, hmem, hitem, hcanceled⟩ := h
  obtain ⟨before, hbefore, hsame, hsame'⟩ := running_workFn hmem
  exact ⟨before, hbefore, hsame.symm.trans hitem, hsame'.symm.trans hcanceled⟩

/-- A handler cancels nothing that is pending. -/
theorem pending_workFn {other : WorkItem} (item : WorkItem) (point : Point)
    (h : client.work.Pending other) : (workFn config item point client).work.Pending other := by
  cases item with
  | connectWork | shadowUpdateWork =>
    cases point with
    | entry | exit => exact h
    | call => exact (WorkQueue.pending_schedule _).mpr (Or.inl h)
  | shadowUpdateVersionWork =>
    cases point with
    | entry | call | exit => exact h

/-- Only the reschedule of `connect_work_fn` itself makes `connect_work` pending. -/
theorem pending_of_workFn {item : WorkItem} {point : Point}
    (h : (workFn config item point client).work.Pending .connectWork) :
    client.work.Pending .connectWork ∨
      item = .connectWork ∧ ¬ client.work.Canceling .connectWork := by
  cases item with
  | connectWork =>
    cases point with
    | entry | exit => exact Or.inl h
    | call =>
      exact ((WorkQueue.pending_schedule _).mp h).imp_right fun hfree ↦ ⟨rfl, hfree.2⟩
  | shadowUpdateWork =>
    cases point with
    | entry | exit => exact Or.inl h
    | call =>
      exact ((WorkQueue.pending_schedule _).mp h).imp_right fun hfree ↦ WorkItem.noConfusion hfree.1
  | shadowUpdateVersionWork =>
    cases point with
    | entry | call | exit => exact Or.inl h

theorem attempting_workFn (h : client.Attempting) {handler : Handler WorkItem Point}
    (hrunning : client.work.running = some handler) :
    (workFn config handler.item handler.point client).Attempting := by
  intro hoffline
  rw [cloudConnected_workFn] at hoffline
  obtain ⟨hahead, hcancel⟩ := h hoffline
  refine ⟨?_, fun hnext ↦ hcancel (canceling_of_workFn hnext)⟩
  rcases hahead with hpending | ⟨other, hmem, hitem, hpoint, hcanceled⟩
  · exact Or.inl (pending_workFn handler.item handler.point hpending)
  -- no attempt is pending, so the handler of `connect_work` has its reschedule ahead
  · obtain rfl : handler = other := Option.some.inj (hrunning.symm.trans hmem)
    rw [hitem]
    cases hcase : handler.point with
    | entry =>
      refine Or.inr ⟨{ handler with point := .call }, ?_, hitem, Point.noConfusion, hcanceled⟩
      have hgoto : workFn config .connectWork .entry client =
          { client with work := client.work.goto .call } := by
        rw [workFn, connectWorkFn, hoffline, if_neg Bool.false_ne_true]
      rw [hgoto]
      exact Option.map_eq_some_iff.mpr ⟨handler, hrunning, rfl⟩
    | call => exact Or.inl ((WorkQueue.pending_schedule _).mpr (Or.inr ⟨rfl, hcancel⟩))
    | exit => exact absurd hcase hpoint

theorem Attempting.step (h : client.Attempting) (houtside : client.OutsideCancel event)
    (hstep : client.step config event = some next) : next.Attempting := by
  cases event with
  | connected =>
    rw [← Option.some.inj hstep]
    exact fun hoffline ↦ absurd hoffline.symm Bool.false_ne_true
  | disconnected =>
    rw [← Option.some.inj hstep]
    exact attempting_onDisconnected (houtside rfl)
  | timeout item =>
    obtain ⟨work, hexpire, rfl⟩ := Option.map_eq_some_iff.mp hstep
    obtain ⟨hrunning, hpending⟩ := WorkQueue.expire_spec hexpire
    exact attempting_of_same h rfl hrunning (hpending _).mpr
  | take =>
    obtain ⟨work, htake, rfl⟩ := Option.map_eq_some_iff.mp hstep
    exact attempting_take h htake
  | handler =>
    obtain ⟨handler, hrunning, rfl⟩ := Option.map_eq_some_iff.mp hstep
    exact attempting_workFn h hrunning

/-! ## Staying offline -/

/-- Offline without an attempt ahead, and no handler is about to make one. -/
structure Stuck (client : Client) : Prop where
  offline : client.cloudConnected = false
  not_pending : ¬ client.work.Pending .connectWork
  canceled : ∀ handler ∈ client.work.running, handler.item = .connectWork →
    handler.canceled = true

/-- A disconnected event during the cancellation leaves the client stuck. -/
theorem stuck_onDisconnected (h : client.work.Canceling .connectWork) :
    client.onDisconnected.Stuck := by
  have hcancel : client.onDisconnected.work.Canceling .connectWork := by
    rw [onDisconnected, WorkQueue.canceling_schedule, WorkQueue.canceling_cancel_of_ne (by decide)]
    exact h
  refine ⟨rfl, WorkQueue.not_pending_of_canceling hcancel, fun handler hmem _ ↦ ?_⟩
  obtain ⟨other, hother, _, hcanceled⟩ := hcancel
  rwa [Option.some.inj (hmem.symm.trans hother)]

theorem Stuck.not_reconnects (h : client.Stuck) : ¬ client.Reconnects := by
  intro hreconnects
  rcases hreconnects h.offline with hpending | ⟨handler, hmem, hitem, _, hcanceled⟩
  · exact h.not_pending hpending
  · exact Bool.false_ne_true (hcanceled.symm.trans (h.canceled handler hmem hitem))

/-- The reschedule of a handler that is being cancelled is refused. -/
theorem Stuck.workFn (h : client.Stuck) {handler : Handler WorkItem Point}
    (hrunning : client.work.running = some handler) :
    (workFn config handler.item handler.point client).Stuck where
  offline := (cloudConnected_workFn _ _).trans h.offline
  not_pending hnext := by
    cases pending_of_workFn hnext with
    | inl hpending => exact h.not_pending hpending
    | inr hfree =>
      exact hfree.2 ⟨handler, hrunning, hfree.1, h.canceled handler hrunning hfree.1⟩
  canceled other hmem hitem := by
    obtain ⟨before, hbefore, hsame, hsame'⟩ := running_workFn hmem
    exact hsame'.trans (h.canceled before hbefore (hsame.symm.trans hitem))

/-- Without an event of the library the client stays stuck. -/
theorem Stuck.step (h : client.Stuck) (hevent : event ≠ .connected ∧ event ≠ .disconnected)
    (hstep : client.step config event = some next) : next.Stuck := by
  cases event with
  | connected => exact absurd rfl hevent.1
  | disconnected => exact absurd rfl hevent.2
  | timeout item =>
    obtain ⟨work, hexpire, rfl⟩ := Option.map_eq_some_iff.mp hstep
    obtain ⟨hrunning, hpending⟩ := WorkQueue.expire_spec hexpire
    exact
      { offline := h.offline
        not_pending := fun hnext ↦ h.not_pending ((hpending _).mp hnext)
        canceled := fun handler hmem ↦ h.canceled handler (hrunning ▸ hmem) }
  | take =>
    obtain ⟨work, htake, rfl⟩ := Option.map_eq_some_iff.mp hstep
    obtain ⟨item, hidle, hrunning, hpending⟩ := WorkQueue.take_spec htake
    have hne : item ≠ .connectWork := fun heq ↦
      h.not_pending ((hpending .connectWork).mpr (Or.inl heq.symm))
    exact
      { offline := h.offline
        not_pending := fun hnext ↦ h.not_pending ((hpending _).mpr (Or.inr hnext))
        canceled := fun handler hmem hitem ↦ by
          rw [← Option.some.inj (hrunning.symm.trans hmem)] at hitem
          exact absurd hitem hne }
  | handler =>
    obtain ⟨handler, hrunning, rfl⟩ := Option.map_eq_some_iff.mp hstep
    exact h.workFn hrunning

/-- In every state of a run the client is connected or has a connection attempt ahead, exactly if no
disconnected event of the run is delivered while `connect_work` is being cancelled. -/
theorem reconnects_iff (config : Config) (events : List Event) :
    (∀ before after reached, events = before ++ after →
      run (step config) start before = some reached → reached.Reconnects) ↔
    Along (step config) OutsideCancel start events := by
  constructor
  · intro hall
    by_contra hnot
    obtain ⟨before, event, after, reached, hevents, hrun, hinside⟩ := exists_of_not_along hnot
    obtain ⟨rfl, hcancel⟩ : event = .disconnected ∧ reached.work.Canceling .connectWork := by
      rw [OutsideCancel] at hinside
      push Not at hinside
      exact hinside
    apply (stuck_onDisconnected hcancel).not_reconnects
    apply hall (before ++ [.disconnected]) after
    · rw [hevents, List.append_assoc]
      rfl
    · rw [run_append, hrun]
      rfl
  · intro houtside before after reached hevents hrun hoffline
    rw [hevents] at houtside
    have hattempting : reached.Attempting :=
      run_invariant_of_along (fun _ _ _ houtside h hstep ↦ h.step houtside hstep)
        attempting_start houtside.of_append hrun
    exact (hattempting hoffline).1

/-- The connection comes up while `connect_work_fn` is in its call and goes down before the
return. -/
def downDuringCall : List Event := [.take, .handler, .connected, .disconnected]

theorem not_reconnects_downDuringCall : ¬ ∀ (config : Config) (events : List Event),
    ∀ before after reached, events = before ++ after →
      run (step config) start before = some reached → reached.Reconnects := by
  intro hall
  have hstuck : ∃ reached, run (step {}) start downDuringCall = some reached ∧
      ¬ reached.Reconnects := by
    refine ⟨_, rfl, fun hreconnects ↦ ?_⟩
    exact absurd (hreconnects rfl) (by decide)
  obtain ⟨reached, hrun, hnot⟩ := hstuck
  exact hnot (hall {} downDuringCall downDuringCall [] reached (List.append_nil _).symm hrun)

end Client

end NrfExamples.AwsIot
