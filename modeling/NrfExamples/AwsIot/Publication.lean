import NrfExamples.AwsIot.Reconnection

/-!
# Periodic publications

The connected event starts the periodic updates of the shadow and the disconnected event stops them.
The handler tests the flag once and reschedules itself behind a call that can outlive the
connection, so the stop rests on the cancellation: while the handler runs it refuses the
reschedule. It refuses the start by the next connected event as well, and a client that connects
again within that time publishes nothing more.
-/

namespace NrfExamples.AwsIot

open Trace

namespace Client

/-- An update is ahead: `shadow_update_work` is delayed or queued, or its handler runs, has its
reschedule ahead and is not being cancelled. -/
def UpdateAhead (client : Client) : Prop :=
  client.work.Pending .shadowUpdateWork ∨ ∃ handler ∈ client.work.running,
    handler.item = .shadowUpdateWork ∧ handler.point ≠ .exit ∧ handler.canceled = false

instance (client : Client) : Decidable client.UpdateAhead := inferInstanceAs (Decidable (_ ∨ _))

/-- A connected event is not delivered while `shadow_update_work` is being cancelled. -/
def OutsideUpdateCancel (client : Client) (event : Event) : Prop :=
  event = .connected → ¬ client.work.Canceling .shadowUpdateWork

instance (client : Client) (event : Event) : Decidable (client.OutsideUpdateCancel event) :=
  inferInstanceAs (Decidable (_ → _))

variable {config : Config} {client next : Client} {event : Event}

theorem updateAhead_start : ¬ start.UpdateAhead := by decide

/-- An item that is being cancelled has no reschedule ahead. -/
theorem not_updateAhead_of_canceling (h : client.work.Canceling .shadowUpdateWork) :
    ¬ client.UpdateAhead := by
  rintro (hpending | ⟨handler, hmem, _, _, hfree⟩)
  · exact WorkQueue.not_pending_of_canceling h hpending
  · obtain ⟨other, hother, _, hcanceled⟩ := h
    rw [← Option.some.inj (hmem.symm.trans hother), hfree] at hcanceled
    exact Bool.false_ne_true hcanceled

/-! ## Events of the library -/

/-- A connected event starts the updates, unless it comes too early. -/
theorem updateAhead_onConnected : (client.onConnected config).UpdateAhead ↔
    ¬ client.work.Canceling .shadowUpdateWork := by
  have hcancel : (client.onConnected config).work.Canceling .shadowUpdateWork ↔
      client.work.Canceling .shadowUpdateWork := by
    rw [onConnected, WorkQueue.canceling_schedule, WorkQueue.submit, WorkQueue.canceling_schedule,
      WorkQueue.canceling_cancel_of_ne (by decide)]
  constructor
  · exact fun hahead hwindow ↦ not_updateAhead_of_canceling (hcancel.mpr hwindow) hahead
  · intro hfree
    apply Or.inl
    apply (WorkQueue.pending_schedule _).mpr
    refine Or.inr ⟨rfl, fun hcanceling ↦ hfree (hcancel.mp ?_)⟩
    rwa [onConnected, WorkQueue.canceling_schedule]

/-- A disconnected event stops the updates, even in the middle of one. -/
theorem not_updateAhead_onDisconnected : ¬ client.onDisconnected.UpdateAhead := by
  rintro (hpending | ⟨handler, hmem, hitem, _, hfree⟩)
  · rcases (WorkQueue.pending_schedule _).mp hpending with hold | hconnect
    · exact (WorkQueue.pending_cancel.mp hold).2 rfl
    · exact absurd hconnect.1 (by decide)
  · rw [onDisconnected, WorkQueue.running_schedule] at hmem
    exact Bool.false_ne_true (hfree.symm.trans (WorkQueue.canceled_of_cancel hmem hitem))

/-! ## The thread of the work queue -/

theorem updateAhead_expire {work : WorkQueue WorkItem Point} {item : WorkItem}
    (h : client.work.expire item = some work) :
    ({ client with work := work } : Client).UpdateAhead ↔ client.UpdateAhead := by
  obtain ⟨hrunning, hpending⟩ := WorkQueue.expire_spec h
  rw [UpdateAhead, UpdateAhead, hrunning, hpending]

variable (client) in
theorem updateAhead_of_running {handler : Handler WorkItem Point}
    (hrunning : client.work.running = some handler) : client.UpdateAhead ↔
      client.work.Pending .shadowUpdateWork ∨
        handler.item = .shadowUpdateWork ∧ handler.point ≠ .exit ∧ handler.canceled = false := by
  rw [UpdateAhead, hrunning]
  apply or_congr_right
  constructor
  · rintro ⟨other, hother, hahead⟩
    rwa [Option.some.inj hother]
  · exact fun hahead ↦ ⟨handler, rfl, hahead⟩

theorem updateAhead_of_idle (hidle : client.work.running = none) :
    client.UpdateAhead ↔ client.work.Pending .shadowUpdateWork := by
  rw [UpdateAhead, hidle]
  exact or_iff_left fun ⟨_, hmem, _⟩ ↦ nomatch hmem

theorem updateAhead_take {work : WorkQueue WorkItem Point}
    (h : client.work.take .entry = some work) :
    ({ client with work := work } : Client).UpdateAhead ↔ client.UpdateAhead := by
  obtain ⟨item, hidle, hrunning, hpending⟩ := WorkQueue.take_spec h
  have hentered : item = .shadowUpdateWork ∧ Point.entry ≠ .exit ∧ false = false ↔
      .shadowUpdateWork = item :=
    ⟨fun hahead ↦ hahead.1.symm, fun hitem ↦ ⟨hitem.symm, Point.noConfusion, rfl⟩⟩
  calc
    ({ client with work := work } : Client).UpdateAhead ↔
        work.Pending .shadowUpdateWork ∨ .shadowUpdateWork = item := by
      rw [updateAhead_of_running _ hrunning, hentered]
    _ ↔ client.work.Pending .shadowUpdateWork := by rw [hpending, or_comm]
    _ ↔ client.UpdateAhead := (updateAhead_of_idle hidle).symm

variable {handler : Handler WorkItem Point}

variable (client) in
theorem updateAhead_goto (hrunning : client.work.running = some handler) (point : Point) :
    ({ client with work := client.work.goto point } : Client).UpdateAhead ↔
      client.work.Pending .shadowUpdateWork ∨
        handler.item = .shadowUpdateWork ∧ point ≠ .exit ∧ handler.canceled = false := by
  have hmoved : (client.work.goto point).running = some { handler with point := point } :=
    Option.map_eq_some_iff.mpr ⟨handler, hrunning, rfl⟩
  exact updateAhead_of_running { client with work := client.work.goto point } hmoved

theorem updateAhead_schedule (hrunning : client.work.running = some handler) (item : WorkItem)
    (delay : ℕ) :
    ({ client with work := (client.work.schedule item delay).goto .exit } : Client).UpdateAhead ↔
      client.work.Pending .shadowUpdateWork ∨
        .shadowUpdateWork = item ∧ ¬ client.work.Canceling item := by
  have hscheduled : (client.work.schedule item delay).running = some handler :=
    (WorkQueue.running_schedule item delay client.work).trans hrunning
  calc
    ({ client with work := (client.work.schedule item delay).goto .exit } : Client).UpdateAhead ↔
        (client.work.schedule item delay).Pending .shadowUpdateWork := by
      rw [updateAhead_goto { client with work := client.work.schedule item delay } hscheduled]
      exact or_iff_left fun hexit ↦ hexit.2.1 rfl
    _ ↔ client.work.Pending .shadowUpdateWork ∨
        .shadowUpdateWork = item ∧ ¬ client.work.Canceling item := WorkQueue.pending_schedule delay

/-- The handler of another item does not touch the updates. -/
theorem updateAhead_workFn_of_ne (hrunning : client.work.running = some handler)
    (hne : handler.item ≠ .shadowUpdateWork) :
    (workFn config handler.item handler.point client).UpdateAhead ↔ client.UpdateAhead := by
  have hmoved (point : Point) :
      ({ client with work := client.work.goto point } : Client).UpdateAhead ↔
        client.UpdateAhead := by
    rw [updateAhead_goto client hrunning, updateAhead_of_running client hrunning, iff_iff_eq]
    simp only [hne, false_and]
  have hreturned : ({ client with work := client.work.finish } : Client).UpdateAhead ↔
      client.UpdateAhead := by
    rw [updateAhead_of_idle rfl, updateAhead_of_running client hrunning]
    exact (or_iff_left fun hitem ↦ hne hitem.1).symm
  cases hitem : handler.item with
  | connectWork =>
    cases hpoint : handler.point with
    | entry => exact hmoved _
    | call =>
      rw [workFn, connectWorkFn, updateAhead_schedule hrunning,
        updateAhead_of_running client hrunning]
      apply or_congr_right
      exact iff_of_false (fun hconnect ↦ WorkItem.noConfusion hconnect.1) fun hshadow ↦
        hne hshadow.1
    | exit => exact hreturned
  | shadowUpdateWork => exact absurd hitem hne
  | shadowUpdateVersionWork =>
    cases hpoint : handler.point with
    | entry | call => exact hmoved _
    | exit => exact hreturned

/-- The handler of the updates keeps them ahead, unless it enters offline. -/
theorem updateAhead_shadowUpdateWorkFn (hrunning : client.work.running = some handler)
    (hitem : handler.item = .shadowUpdateWork)
    (honline : handler.point = .entry → client.cloudConnected = true) :
    (shadowUpdateWorkFn config handler.point client).UpdateAhead ↔ client.UpdateAhead := by
  have hcanceling : ¬ client.work.Canceling .shadowUpdateWork ↔ handler.canceled = false := by
    rw [WorkQueue.Canceling, CancelsIn, hrunning, ← Bool.not_eq_true, not_iff_not]
    constructor
    · rintro ⟨other, hother, _, hcanceled⟩
      rwa [Option.some.inj hother]
    · exact fun hcanceled ↦ ⟨handler, rfl, hitem, hcanceled⟩
  rw [updateAhead_of_running client hrunning]
  cases hpoint : handler.point with
  | entry =>
    rw [shadowUpdateWorkFn, if_pos (honline hpoint), updateAhead_goto client hrunning]
    simp only [ne_eq, reduceCtorEq, not_false_eq_true, true_and]
  | call =>
    rw [shadowUpdateWorkFn, updateAhead_schedule hrunning, hcanceling]
    simp only [hitem, ne_eq, reduceCtorEq, not_false_eq_true, true_and]
  | exit =>
    rw [shadowUpdateWorkFn, updateAhead_of_idle rfl]
    exact (or_iff_left fun hexit ↦ hexit.2.1 rfl).symm

/-- A handler step brings no updates back. -/
theorem updateAhead_of_workFn (hrunning : client.work.running = some handler)
    (h : (workFn config handler.item handler.point client).UpdateAhead) : client.UpdateAhead := by
  by_cases hitem : handler.item = .shadowUpdateWork
  · rw [hitem, workFn] at h
    by_cases honline : handler.point = .entry → client.cloudConnected = true
    · exact (updateAhead_shadowUpdateWorkFn hrunning hitem honline).mp h
    · obtain ⟨hpoint, hoffline⟩ := Classical.not_imp.mp honline
      rw [hpoint, shadowUpdateWorkFn, if_neg hoffline, updateAhead_goto client hrunning] at h
      exact Or.inl (h.resolve_right fun hexit ↦ hexit.2.1 rfl)
  · exact (updateAhead_workFn_of_ne hrunning hitem).mp h

theorem updateAhead_workFn_of_connected (hrunning : client.work.running = some handler)
    (honline : client.cloudConnected = true) :
    (workFn config handler.item handler.point client).UpdateAhead ↔ client.UpdateAhead := by
  by_cases hitem : handler.item = .shadowUpdateWork
  · rw [hitem]
    exact updateAhead_shadowUpdateWorkFn hrunning hitem fun _ ↦ honline
  · exact updateAhead_workFn_of_ne hrunning hitem

/-! ## Steps -/

/-- The events of the library start and stop the updates. Every other step keeps the flag, brings no
updates back, and loses none while the client is connected. -/
theorem updateAhead_of_step (hstep : client.step config event = some next) :
    (event = .connected ∧ next = client.onConnected config) ∨
      (event = .disconnected ∧ next = client.onDisconnected) ∨
      (event ≠ .connected ∧ next.cloudConnected = client.cloudConnected ∧
        (next.UpdateAhead → client.UpdateAhead) ∧
        (client.cloudConnected = true → client.UpdateAhead → next.UpdateAhead)) := by
  cases event with
  | connected => exact Or.inl ⟨rfl, (Option.some.inj hstep).symm⟩
  | disconnected => exact Or.inr (Or.inl ⟨rfl, (Option.some.inj hstep).symm⟩)
  | timeout item =>
    obtain ⟨work, hexpire, rfl⟩ := Option.map_eq_some_iff.mp hstep
    have hsame := updateAhead_expire hexpire
    exact Or.inr (Or.inr ⟨Event.noConfusion, rfl, hsame.mp, fun _ ↦ hsame.mpr⟩)
  | take =>
    obtain ⟨work, htake, rfl⟩ := Option.map_eq_some_iff.mp hstep
    have hsame := updateAhead_take htake
    exact Or.inr (Or.inr ⟨Event.noConfusion, rfl, hsame.mp, fun _ ↦ hsame.mpr⟩)
  | handler =>
    obtain ⟨handler, hrunning, rfl⟩ := Option.map_eq_some_iff.mp hstep
    exact Or.inr (Or.inr ⟨Event.noConfusion, cloudConnected_workFn _ _,
      updateAhead_of_workFn hrunning, fun honline ↦
        (updateAhead_workFn_of_connected hrunning honline).mpr⟩)

/-- No update is ahead offline. -/
def Quiet (client : Client) : Prop := client.cloudConnected = false → ¬ client.UpdateAhead

/-- Updates are ahead while the client is connected. -/
def Updates (client : Client) : Prop := client.cloudConnected = true → client.UpdateAhead

theorem Quiet.step (h : client.Quiet) (hstep : client.step config event = some next) :
    next.Quiet := by
  rcases updateAhead_of_step hstep with ⟨_, rfl⟩ | ⟨_, rfl⟩ | ⟨_, hflag, hback, _⟩
  · exact fun hoffline ↦ absurd hoffline.symm Bool.false_ne_true
  · exact fun _ ↦ not_updateAhead_onDisconnected
  · exact fun hoffline hahead ↦ h (hflag.symm.trans hoffline) (hback hahead)

theorem Updates.step (h : client.Updates) (houtside : client.OutsideUpdateCancel event)
    (hstep : client.step config event = some next) : next.Updates := by
  rcases updateAhead_of_step hstep with ⟨hevent, rfl⟩ | ⟨_, rfl⟩ | ⟨_, hflag, _, hkept⟩
  · exact fun _ ↦ updateAhead_onConnected.mpr (houtside hevent)
  · exact fun honline ↦ absurd honline Bool.false_ne_true
  · intro honline
    have hbefore : client.cloudConnected = true := hflag.symm.trans honline
    exact hkept hbefore (h hbefore)

/-! ## Runs -/

/-- In every state of every run no update is ahead offline; and updates are ahead in every connected
state, exactly if no connected event of the run is delivered while `shadow_update_work` is being
cancelled. -/
theorem updates_iff (config : Config) (events : List Event) :
    (∀ before after reached, events = before ++ after →
      run (step config) start before = some reached → reached.Quiet) ∧
    ((∀ before after reached, events = before ++ after →
      run (step config) start before = some reached → reached.Updates) ↔
    Along (step config) OutsideUpdateCancel start events) := by
  refine ⟨fun before after reached _ hrun ↦ ?_, fun hall ↦ ?_, fun houtside ↦ ?_⟩
  · apply run_invariant (fun _ _ _ h hstep ↦ Quiet.step h hstep) _ hrun
    exact fun _ ↦ updateAhead_start
  · by_contra hnot
    obtain ⟨before, event, after, reached, hevents, hrun, hinside⟩ := exists_of_not_along hnot
    obtain ⟨rfl, hcancel⟩ : event = .connected ∧ reached.work.Canceling .shadowUpdateWork := by
      rw [OutsideUpdateCancel] at hinside
      push Not at hinside
      exact hinside
    have hahead : (reached.onConnected config).UpdateAhead := by
      apply hall (before ++ [.connected]) after
      · rw [hevents, List.append_assoc]
        rfl
      · rw [run_append, hrun]
        rfl
      · rfl
    exact updateAhead_onConnected.mp hahead hcancel
  · intro before after reached hevents hrun
    rw [hevents] at houtside
    apply run_invariant_of_along (fun _ _ _ houtside h hstep ↦ Updates.step h houtside hstep)
      _ houtside.of_append hrun
    exact fun honline ↦ absurd honline Bool.false_ne_true

/-- The connection goes down and comes up again while `shadow_update_work_fn` is in its call: the
client is connected and publishes nothing more. -/
example : ¬ Along (step {}) OutsideUpdateCancel start [.connected, .timeout .shadowUpdateWork,
    .take, .handler, .handler, .handler, .take, .handler, .disconnected, .connected] := by
  decide

end Client

end NrfExamples.AwsIot
