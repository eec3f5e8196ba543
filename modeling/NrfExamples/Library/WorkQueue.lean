import Mathlib.Data.List.Nodup

/-!
# Work queues with delayed and cancelled items

A thread takes items from a queue and runs their handlers one at a time. An item can be scheduled
with a delay; it then joins the queue when the delay is over. Scheduling does nothing for an item
that is delayed, queued or being cancelled, but is accepted while the item is merely running.
Cancelling removes an item that is pending, and if its handler runs, the item is being cancelled
until the handler returns.

An item is pending at most once, and one that is being cancelled is not pending.
-/

namespace NrfExamples

variable {Item Point : Type}

/-- A running handler, with the point of its code that it has reached. -/
structure Handler (Item Point : Type) where
  item : Item
  point : Point
  canceled : Bool

/-- The handler of the item runs and the item is being cancelled. -/
def CancelsIn (running : Option (Handler Item Point)) (item : Item) : Prop :=
  ∃ handler ∈ running, handler.item = item ∧ handler.canceled = true

instance [DecidableEq Item] (running : Option (Handler Item Point)) (item : Item) :
    Decidable (CancelsIn running item) :=
  inferInstanceAs (Decidable (∃ _ ∈ _, _))

/-- The items that are pending, in any order, beside the running handler. -/
structure ValidWork (pending : List Item) (running : Option (Handler Item Point)) : Prop where
  nodup : pending.Nodup
  not_pending : ∀ item, CancelsIn running item → item ∉ pending

structure WorkQueue (Item Point : Type) where
  delayed : List Item
  queue : List Item
  running : Option (Handler Item Point)
  valid : ValidWork (delayed ++ queue) running

/-! ## Valid states -/

namespace ValidWork

variable {pending other : List Item} {running : Option (Handler Item Point)} {item : Item}

theorem of_none (h : pending.Nodup) : ValidWork pending (none : Option (Handler Item Point)) where
  nodup := h
  not_pending _ hcancel := absurd hcancel fun ⟨_, hmem, _⟩ ↦ nomatch hmem

theorem of_started (h : pending.Nodup) (item : Item) (point : Point) :
    ValidWork pending (some ⟨item, point, false⟩) where
  nodup := h
  not_pending _ hcancel := by
    obtain ⟨handler, hmem, _, hcanceled⟩ := hcancel
    rw [← Option.some.inj hmem] at hcanceled
    exact absurd hcanceled Bool.false_ne_true

theorem perm (h : ValidWork pending running) (hperm : other.Perm pending) :
    ValidWork other running where
  nodup := hperm.nodup_iff.mpr h.nodup
  not_pending item hcancel hmem := h.not_pending item hcancel (hperm.mem_iff.mp hmem)

theorem cons (h : ValidWork pending running) (hfree : item ∉ pending)
    (hcancel : ¬ CancelsIn running item) : ValidWork (item :: pending) running where
  nodup := List.nodup_cons.mpr ⟨hfree, h.nodup⟩
  not_pending other hother hmem := by
    cases List.mem_cons.mp hmem with
    | inl heq => exact hcancel (heq ▸ hother)
    | inr hold => exact h.not_pending other hother hold

theorem concat (h : ValidWork pending running) (hfree : item ∉ pending)
    (hcancel : ¬ CancelsIn running item) : ValidWork (pending ++ [item]) running :=
  (h.cons hfree hcancel).perm List.perm_append_comm

theorem goto (h : ValidWork pending running) (point : Point) :
    ValidWork pending (running.map fun handler ↦ { handler with point := point }) where
  nodup := h.nodup
  not_pending item hcancel := by
    obtain ⟨handler, hmem, heq, hcanceled⟩ := hcancel
    obtain ⟨before, hbefore, rfl⟩ := Option.map_eq_some_iff.mp hmem
    exact h.not_pending item ⟨before, hbefore, heq, hcanceled⟩

theorem cancel [DecidableEq Item] (h : ValidWork pending running) (item : Item) :
    ValidWork (pending.filter (· ≠ item)) (running.map fun handler ↦
      { handler with canceled := handler.canceled || handler.item = item }) where
  nodup := h.nodup.filter _
  not_pending other hcancel hmem := by
    obtain ⟨hold, hne⟩ := List.mem_filter.mp hmem
    obtain ⟨handler, hhandler, heq, hcanceled⟩ := hcancel
    obtain ⟨before, hbefore, rfl⟩ := Option.map_eq_some_iff.mp hhandler
    cases Bool.or_eq_true_iff.mp hcanceled with
    | inl hbefore' => exact h.not_pending other ⟨before, hbefore, heq, hbefore'⟩ hold
    | inr hitem => exact of_decide_eq_true hne (heq.symm.trans (of_decide_eq_true hitem))

end ValidWork

namespace WorkQueue

def Pending (work : WorkQueue Item Point) (item : Item) : Prop := item ∈ work.delayed ++ work.queue

def Canceling (work : WorkQueue Item Point) (item : Item) : Prop := CancelsIn work.running item

variable [DecidableEq Item]

instance (work : WorkQueue Item Point) (item : Item) : Decidable (work.Pending item) :=
  inferInstanceAs (Decidable (_ ∈ _))

instance (work : WorkQueue Item Point) (item : Item) : Decidable (work.Canceling item) :=
  inferInstanceAs (Decidable (CancelsIn _ _))

/-! ## Operations -/

def empty : WorkQueue Item Point where
  delayed := []
  queue := []
  running := none
  valid := .of_none List.nodup_nil

/-- Schedule an item, with a delay in seconds. -/
def schedule (item : Item) (delay : ℕ) (work : WorkQueue Item Point) : WorkQueue Item Point :=
  if hfree : ¬ work.Pending item ∧ ¬ work.Canceling item then
    if delay = 0 then
      { work with
        queue := work.queue ++ [item]
        valid := by
          rw [← List.append_assoc]
          exact work.valid.concat hfree.1 hfree.2 }
    else
      { work with
        delayed := item :: work.delayed
        valid := work.valid.cons hfree.1 hfree.2 }
  else work

/-- Submit an item that is never delayed. -/
def submit (item : Item) (work : WorkQueue Item Point) : WorkQueue Item Point :=
  work.schedule item 0

def cancel (item : Item) (work : WorkQueue Item Point) : WorkQueue Item Point where
  delayed := work.delayed.filter (· ≠ item)
  queue := work.queue.filter (· ≠ item)
  running := work.running.map fun handler ↦
    { handler with canceled := handler.canceled || handler.item = item }
  valid := by
    rw [← List.filter_append]
    exact work.valid.cancel item

theorem perm_expire {delayed queue : List Item} {item : Item} (hdelayed : item ∈ delayed) :
    (delayed.erase item ++ (queue ++ [item])).Perm (delayed ++ queue) := by
  rw [← List.append_assoc]
  exact List.perm_append_comm.trans ((List.perm_cons_erase hdelayed).symm.append_right queue)

/-- The delay of an item is over. -/
def expire (item : Item) (work : WorkQueue Item Point) : Option (WorkQueue Item Point) :=
  if hdelayed : item ∈ work.delayed then
    some
      { work with
        delayed := work.delayed.erase item
        queue := work.queue ++ [item]
        valid := work.valid.perm (perm_expire hdelayed) }
  else none

/-- The thread takes the next item and enters its handler. -/
def take (entry : Point) (work : WorkQueue Item Point) : Option (WorkQueue Item Point) :=
  match hqueue : work.queue, work.running with
  | item :: rest, none =>
      some
        { work with
          queue := rest
          running := some ⟨item, entry, false⟩
          valid := by
            have hnodup := work.valid.nodup
            rw [hqueue] at hnodup
            have hrest := (List.sublist_cons_self item rest).append_left work.delayed
            exact .of_started (hnodup.sublist hrest) item entry }
  | _, _ => none

/-- The running handler goes on to another point of its code. -/
def goto (point : Point) (work : WorkQueue Item Point) : WorkQueue Item Point :=
  { work with
    running := work.running.map fun handler ↦ { handler with point := point }
    valid := work.valid.goto point }

/-- The running handler returns. -/
def finish (work : WorkQueue Item Point) : WorkQueue Item Point :=
  { work with
    running := none
    valid := .of_none work.valid.nodup }

/-! ## What the operations change -/

variable {work next : WorkQueue Item Point} {item other : Item}

@[simp]
theorem running_schedule (item : Item) (delay : ℕ) (work : WorkQueue Item Point) :
    (work.schedule item delay).running = work.running := by
  unfold schedule
  split
  · split
    · rfl
    · rfl
  · rfl

@[simp]
theorem canceling_schedule (delay : ℕ) :
    (work.schedule item delay).Canceling other ↔ work.Canceling other := by
  rw [Canceling, running_schedule, Canceling]

/-- Only an item that is being cancelled is not pending behind its scheduling. -/
@[simp]
theorem pending_schedule (delay : ℕ) : (work.schedule item delay).Pending other ↔
    work.Pending other ∨ other = item ∧ ¬ work.Canceling item := by
  by_cases hfree : ¬ work.Pending item ∧ ¬ work.Canceling item
  · rw [schedule, dif_pos hfree]
    split
    · rw [Pending, ← List.append_assoc, List.mem_append, List.mem_singleton,
        and_iff_left hfree.2]
      exact Iff.rfl
    · rw [Pending, List.cons_append, List.mem_cons, and_iff_left hfree.2, or_comm]
      exact Iff.rfl
  · rw [schedule, dif_neg hfree]
    refine ⟨Or.inl, fun h ↦ h.elim id fun ⟨heq, hcancel⟩ ↦ ?_⟩
    rw [heq]
    by_contra hpending
    exact hfree ⟨hpending, hcancel⟩

theorem canceling_cancel_of_ne (hne : other ≠ item) :
    (work.cancel item).Canceling other ↔ work.Canceling other := by
  have hmark (handler : Handler Item Point) (hitem : handler.item = other) :
      (handler.canceled || decide (handler.item = item)) = handler.canceled := by
    rw [hitem, decide_eq_false hne, Bool.or_false]
  constructor
  · rintro ⟨handler, hmem, hitem, hcanceled⟩
    obtain ⟨before, hbefore, rfl⟩ := Option.map_eq_some_iff.mp hmem
    exact ⟨before, hbefore, hitem, (hmark before hitem).symm.trans hcanceled⟩
  · rintro ⟨handler, hmem, hitem, hcanceled⟩
    exact ⟨_, Option.map_eq_some_iff.mpr ⟨handler, hmem, rfl⟩, hitem,
      (hmark handler hitem).trans hcanceled⟩

@[simp]
theorem pending_cancel :
    (work.cancel item).Pending other ↔ work.Pending other ∧ other ≠ item := by
  rw [Pending, cancel, ← List.filter_append, List.mem_filter, decide_eq_true_iff]
  exact Iff.rfl

/-- Behind its cancellation the running handler of an item is marked. -/
theorem canceled_of_cancel {handler : Handler Item Point}
    (hmem : handler ∈ (work.cancel item).running) (hitem : handler.item = item) :
    handler.canceled = true := by
  obtain ⟨before, _, rfl⟩ := Option.map_eq_some_iff.mp hmem
  exact Bool.or_eq_true_iff.mpr (Or.inr (decide_eq_true hitem))

omit [DecidableEq Item] in
theorem running_goto {point : Point} {handler : Handler Item Point}
    (h : handler ∈ (work.goto point).running) : ∃ before ∈ work.running,
      handler.item = before.item ∧ handler.canceled = before.canceled := by
  obtain ⟨before, hbefore, rfl⟩ := Option.map_eq_some_iff.mp h
  exact ⟨before, hbefore, rfl, rfl⟩

omit [DecidableEq Item] in
theorem not_pending_of_canceling (h : work.Canceling item) : ¬ work.Pending item :=
  work.valid.not_pending item h

theorem expire_spec (h : work.expire item = some next) :
    next.running = work.running ∧ ∀ other, next.Pending other ↔ work.Pending other := by
  unfold expire at h
  split at h
  · rename_i hdelayed
    rw [← Option.some.inj h]
    exact ⟨rfl, fun other ↦ (perm_expire hdelayed).mem_iff⟩
  · cases h

omit [DecidableEq Item] in
theorem take_spec {entry : Point} (h : work.take entry = some next) : ∃ item,
    work.running = none ∧ next.running = some ⟨item, entry, false⟩ ∧
      ∀ other, work.Pending other ↔ other = item ∨ next.Pending other := by
  unfold take at h
  split at h
  · rename_i item rest hqueue hrunning
    rw [← Option.some.inj h]
    refine ⟨item, hrunning, rfl, fun other ↦ ?_⟩
    have hsplit : work.Pending other ↔ other ∈ work.delayed ++ item :: rest := by
      rw [Pending, hqueue]
    exact hsplit.trans (List.perm_middle.mem_iff.trans List.mem_cons)
  · cases h

end WorkQueue

end NrfExamples
