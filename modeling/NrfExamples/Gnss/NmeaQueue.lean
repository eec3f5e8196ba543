import NrfExamples.Library.BoundedQueue
import NrfExamples.Library.Heap
import NrfExamples.Library.Semaphore
import NrfExamples.Library.Trace
import NrfExamples.Library.Memory

/-!
# NMEA strings on their way to the console

`gnss_event_handler` allocates a frame for each NMEA string, lets the modem fill it and puts the
pointer on `nmea_queue`; the loop of `main` takes the pointer, prints the string unless the output
is paused, and frees the frame. The modem library calls the handler at any moment, one call at a
time.

A step is a call of the handler or of the main loop to the next function that touches a frame or
the queue. An access to a frame that is not allocated sets `fault`.
-/

namespace NrfExamples.Gnss

open Trace

/-- `nmea_str` of a frame. -/
abbrev Nmea := List Memory.Byte

def nmeaQueueLen : ℕ := 10

/-- Where `gnss_event_handler` stands. -/
inductive HandlerPoint where
  | outside
  /-- In front of `nrf_modem_gnss_read`. -/
  | allocated (nmeaData : ℕ)
  /-- In front of `k_msgq_put`. -/
  | filled (nmeaData : ℕ)
  /-- In front of `k_free`. -/
  | failed (nmeaData : ℕ)
deriving DecidableEq

/-- The states of the two entries of `events` behind `k_poll`. -/
structure PollStates where
  semAvailable : Bool
  msgqDataAvailable : Bool
deriving DecidableEq

/-- Where the loop of `main` stands. -/
inductive LoopPoint where
  | polling
  | pvt (events : PollStates)
  | nmea (events : PollStates)
  /-- In front of the output of the string. -/
  | received (nmeaData : ℕ)
  /-- In front of `k_free`. -/
  | printed (nmeaData : ℕ)
deriving DecidableEq

/-- The frame that the handler holds. -/
def HandlerPoint.frames : HandlerPoint → List ℕ
  | .outside => []
  | .allocated nmeaData | .filled nmeaData | .failed nmeaData => [nmeaData]

/-- The frame that the handler is about to put on the queue. -/
def HandlerPoint.ready : HandlerPoint → List ℕ
  | .filled nmeaData => [nmeaData]
  | _ => []

theorem HandlerPoint.ready_sublist (point : HandlerPoint) : point.ready.Sublist point.frames := by
  cases point with
  | filled => exact List.Sublist.refl _
  | outside | allocated | failed => exact List.nil_sublist _

/-- The frame that the loop holds. -/
def LoopPoint.frames : LoopPoint → List ℕ
  | .polling | .pvt _ | .nmea _ => []
  | .received nmeaData | .printed nmeaData => [nmeaData]

/-- The frame whose string the loop has still to put out. -/
def LoopPoint.unprinted : LoopPoint → List ℕ
  | .received nmeaData => [nmeaData]
  | _ => []

theorem LoopPoint.unprinted_sublist (point : LoopPoint) : point.unprinted.Sublist point.frames := by
  cases point with
  | received => exact List.Sublist.refl _
  | polling | pvt | nmea | printed => exact List.nil_sublist _

structure Sample where
  heap : Heap Nmea
  nmeaQueue : BoundedQueue ℕ nmeaQueueLen
  pvtDataSem : Semaphore 1
  handler : HandlerPoint
  loop : LoopPoint
  fault : Bool

inductive Event where
  /-- `NRF_MODEM_GNSS_EVT_PVT`, with the result of the read. -/
  | evtPvt (retval : ℤ)
  /-- `NRF_MODEM_GNSS_EVT_NMEA`, with the frame that `k_malloc` returns and its old content. -/
  | evtNmea (allocation : Option (ℕ × Nmea))
  | gnssRead (retval : ℤ) (nmeaStr : Nmea)
  | msgqPut
  | handlerFree
  | poll
  | semTake
  | msgqGet
  | print (outputPaused : Bool)
  | free

namespace Sample

def start : Sample where
  heap := Heap.empty
  nmeaQueue := BoundedQueue.empty ℕ nmeaQueueLen
  pvtDataSem := Semaphore.empty
  handler := .outside
  loop := .polling
  fault := false

/-- Go on behind an access to the heap, or record that it failed. -/
def access (state : Sample) (result : Option (Heap Nmea)) (next : Heap Nmea → Sample) : Sample :=
  match result with
  | some heap => next heap
  | none => { state with fault := true }

/-! ## The handler -/

def evtPvt (retval : ℤ) (state : Sample) : Sample :=
  if retval = 0 then { state with pvtDataSem := state.pvtDataSem.give } else state

/-- Without memory the handler drops the event. -/
def evtNmea (allocation : Option (ℕ × Nmea)) (state : Sample) : Option Sample :=
  match allocation with
  | none => some state
  | some (nmeaData, content) => (state.heap.malloc nmeaData content).map fun heap ↦
      { state with heap := heap, handler := .allocated nmeaData }

def gnssRead (nmeaData : ℕ) (retval : ℤ) (nmeaStr : Nmea) (state : Sample) : Sample :=
  if retval = 0 then
    state.access (state.heap.store nmeaData nmeaStr) fun heap ↦
      { state with heap := heap, handler := .filled nmeaData }
  else { state with handler := .failed nmeaData }

/-- `k_msgq_put` without waiting fails on a full queue. -/
def msgqPut (nmeaData : ℕ) (state : Sample) : Sample :=
  if state.nmeaQueue.space = 0 then { state with handler := .failed nmeaData }
  else { state with nmeaQueue := (state.nmeaQueue.put [nmeaData]).1, handler := .outside }

def handlerFree (nmeaData : ℕ) (state : Sample) : Sample :=
  state.access (state.heap.free nmeaData) fun heap ↦
    { state with heap := heap, handler := .outside }

/-! ## The main loop -/

/-- `k_poll` returns when one of the two events is ready. -/
def poll (state : Sample) : Option Sample :=
  let events : PollStates := ⟨state.pvtDataSem.count ≠ 0, state.nmeaQueue.entries ≠ []⟩
  if events.semAvailable ∨ events.msgqDataAvailable then some { state with loop := .pvt events }
  else none

/-- New PVT data are printed without a look at the queue. -/
def semTake (events : PollStates) (state : Sample) : Sample :=
  if events.semAvailable then
    { state with
      pvtDataSem := state.pvtDataSem.take.getD state.pvtDataSem
      loop := .nmea events }
  else { state with loop := .nmea events }

def msgqGet (events : PollStates) (state : Sample) : Sample :=
  if events.msgqDataAvailable then
    match state.nmeaQueue.get 1 with
    | ([nmeaData], nmeaQueue) =>
        { state with nmeaQueue := nmeaQueue, loop := .received nmeaData }
    | _ => { state with loop := .polling }
  else { state with loop := .polling }

def print (nmeaData : ℕ) (outputPaused : Bool) (state : Sample) : Sample :=
  if outputPaused ∨ (state.heap nmeaData).isSome then { state with loop := .printed nmeaData }
  else { state with fault := true }

def free (nmeaData : ℕ) (state : Sample) : Sample :=
  state.access (state.heap.free nmeaData) fun heap ↦
    { state with heap := heap, loop := .polling }

/-! ## Steps -/

/-- The handler and the main loop take their next steps in any order. -/
def step (state : Sample) (event : Event) : Option Sample :=
  match event, state.handler, state.loop with
  | .evtPvt retval, .outside, _ => some (state.evtPvt retval)
  | .evtNmea allocation, .outside, _ => state.evtNmea allocation
  | .gnssRead retval nmeaStr, .allocated nmeaData, _ =>
      some (state.gnssRead nmeaData retval nmeaStr)
  | .msgqPut, .filled nmeaData, _ => some (state.msgqPut nmeaData)
  | .handlerFree, .failed nmeaData, _ => some (state.handlerFree nmeaData)
  | .poll, _, .polling => state.poll
  | .semTake, _, .pvt events => some (state.semTake events)
  | .msgqGet, _, .nmea events => some (state.msgqGet events)
  | .print outputPaused, _, .received nmeaData => some (state.print nmeaData outputPaused)
  | .free, _, .printed nmeaData => some (state.free nmeaData)
  | _, _, _ => none

/-- The strings that the modem delivers. -/
def delivered (state : Sample) : Event → List Nmea
  | .gnssRead retval nmeaStr =>
      match state.handler with
      | .allocated _ => if retval = 0 then [nmeaStr] else []
      | _ => []
  | _ => []

/-- The strings that a step puts on the queue. -/
def accepted (state : Sample) : Event → List Nmea
  | .msgqPut =>
      match state.handler with
      | .filled nmeaData =>
          if state.nmeaQueue.space = 0 then [] else state.heap.contents [nmeaData]
      | _ => []
  | _ => []

/-- The strings that reach the output, printed or not. -/
def handled (state : Sample) : Event → List Nmea
  | .print _ =>
      match state.loop with
      | .received nmeaData => state.heap.contents [nmeaData]
      | _ => []
  | _ => []

/-- The strings on the console. -/
def console (state : Sample) (event : Event) : List Nmea :=
  match event with
  | .print true => []
  | _ => state.handled event

/-! ## Ownership -/

/-- The frame of the handler, the frame of the loop and the frames on the queue. -/
def frames (state : Sample) : List ℕ :=
  state.handler.frames ++ (state.loop.frames ++ state.nmeaQueue.entries)

/-- The accepted strings that have not reached the output yet. -/
def pending (state : Sample) : List Nmea :=
  state.heap.contents (state.loop.unprinted ++ state.nmeaQueue.entries)

/-- The delivered string that is not on the queue yet. -/
def filled (state : Sample) : List Nmea := state.heap.contents state.handler.ready

/-- The allocated frames are held by the handler, the loop or the queue, each by one of them. -/
structure Valid (state : Sample) : Prop where
  fault : state.fault = false
  owns : state.heap.Owns state.frames

variable {state next : Sample} {event : Event} {nmeaData : ℕ}

theorem valid_start : start.Valid := ⟨rfl, Heap.owns_empty⟩

/-- A frame of the handler is no frame of the loop and not on the queue. -/
theorem Valid.not_waiting (h : state.Valid) (hframe : nmeaData ∈ state.handler.frames) :
    nmeaData ∉ state.loop.unprinted ++ state.nmeaQueue.entries := by
  have hdisjoint := List.disjoint_of_nodup_append h.owns.nodup hframe
  intro hmem
  apply hdisjoint
  exact (List.Sublist.append_right state.loop.unprinted_sublist _).subset hmem

/-- A step keeps the ownership. The handler puts on the queue what the modem delivered or drops it,
and the loop handles what the handler put there, in the same order. -/
structure Passes (state next : Sample) (delivered accepted handled : List Nmea) : Prop where
  valid : next.Valid
  filled_sublist : (accepted ++ next.filled).Sublist (state.filled ++ delivered)
  pending_eq : handled ++ next.pending = state.pending ++ accepted

/-- A step that neither puts nor gets a string. -/
theorem Valid.passes (h : state.Valid) (hfault : next.fault = state.fault)
    (hheap : next.heap = state.heap) (hframes : next.frames = state.frames)
    (hfilled : next.filled.Sublist state.filled) (hpending : next.pending = state.pending) :
    Passes state next [] [] [] where
  valid := ⟨hfault.trans h.fault, by rw [hheap, hframes]; exact h.owns⟩
  filled_sublist := by rwa [List.nil_append, List.append_nil]
  pending_eq := by rw [hpending, List.nil_append, List.append_nil]

/-! ## Steps of the handler -/

theorem Valid.evtPvt (h : state.Valid) (retval : ℤ) :
    Passes state (state.evtPvt retval) [] [] [] := by
  unfold Sample.evtPvt
  split
  · exact h.passes rfl rfl rfl (List.Sublist.refl _) rfl
  · exact h.passes rfl rfl rfl (List.Sublist.refl _) rfl

theorem Valid.evtNmea (h : state.Valid) (hhandler : state.handler = .outside)
    {allocation : Option (ℕ × Nmea)} (hstep : state.evtNmea allocation = some next) :
    Passes state next [] [] [] := by
  cases allocation with
  | none =>
    rw [← Option.some.inj hstep]
    exact h.passes rfl rfl rfl (List.Sublist.refl _) rfl
  | some frame =>
    obtain ⟨heap, hmalloc, rfl⟩ := Option.map_eq_some_iff.mp hstep
    obtain ⟨howns, hframe⟩ := h.owns.malloc hmalloc
    rw [frames, hhandler] at howns
    have hvalid : Valid { state with heap := heap, handler := .allocated frame.1 } :=
      ⟨h.fault, howns⟩
    refine ⟨hvalid, List.nil_sublist _, ?_⟩
    rw [List.nil_append, List.append_nil]
    exact hframe.contents_eq (hvalid.not_waiting List.mem_cons_self)

theorem Valid.gnssRead (h : state.Valid) (hhandler : state.handler = .allocated nmeaData)
    (retval : ℤ) (nmeaStr : Nmea) : Passes state (state.gnssRead nmeaData retval nmeaStr)
      (if retval = 0 then [nmeaStr] else []) [] [] := by
  have hmem : nmeaData ∈ state.handler.frames := by
    rw [hhandler]
    exact List.mem_cons_self
  unfold Sample.gnssRead
  split
  · obtain ⟨heap, hstore, howns, hframe, hcontent⟩ :=
      h.owns.store (List.mem_append_left _ hmem) nmeaStr
    have hfilled : heap.contents [nmeaData] = [nmeaStr] := List.filterMap_cons_some hcontent
    rw [hstore]
    rw [frames, hhandler] at howns
    refine ⟨⟨h.fault, howns⟩, ?_, ?_⟩
    · rw [← hfilled]
      exact List.sublist_append_right _ _
    · rw [List.nil_append, List.append_nil]
      exact hframe.contents_eq (h.not_waiting hmem)
  · refine h.passes rfl rfl ?_ (List.nil_sublist _) rfl
    rw [frames, frames, hhandler]
    rfl

theorem Valid.msgqPut (h : state.Valid) (hhandler : state.handler = .filled nmeaData) :
    Passes state (state.msgqPut nmeaData) []
      (if state.nmeaQueue.space = 0 then [] else state.heap.contents [nmeaData]) [] := by
  unfold Sample.msgqPut
  split
  · refine h.passes rfl rfl ?_ (List.nil_sublist _) rfl
    rw [frames, frames, hhandler]
    rfl
  · rename_i hspace
    have hentries : (state.nmeaQueue.put [nmeaData]).1.entries =
        state.nmeaQueue.entries ++ [nmeaData] := by
      have hroom : [nmeaData].length ≤ state.nmeaQueue.space := Nat.one_le_iff_ne_zero.mpr hspace
      exact congrArg (state.nmeaQueue.entries ++ ·) (List.take_of_length_le hroom)
    have howns : state.heap.Owns
        (state.loop.frames ++ (state.nmeaQueue.entries ++ [nmeaData])) := by
      apply h.owns.perm
      rw [frames, hhandler, ← List.append_assoc]
      exact List.perm_append_comm
    refine ⟨⟨h.fault, ?_⟩, ?_, ?_⟩
    · rw [frames, hentries]
      exact howns
    · have hfilled : state.filled = state.heap.contents [nmeaData] := by
        rw [filled, hhandler]
        rfl
      have hnone : ({ state with
          nmeaQueue := (state.nmeaQueue.put [nmeaData]).1, handler := .outside }).filled = [] := rfl
      rw [List.append_nil, hfilled, hnone, List.append_nil]
    · calc
        [] ++ state.heap.contents (state.loop.unprinted ++
            (state.nmeaQueue.put [nmeaData]).1.entries) =
            state.heap.contents
              (state.loop.unprinted ++ state.nmeaQueue.entries ++ [nmeaData]) := by
          rw [List.nil_append, hentries, List.append_assoc]
        _ = state.pending ++ state.heap.contents [nmeaData] := Heap.contents_append _ _ _

theorem Valid.handlerFree (h : state.Valid) (hhandler : state.handler = .failed nmeaData) :
    Passes state (state.handlerFree nmeaData) [] [] [] := by
  have hmem : nmeaData ∈ state.handler.frames := by
    rw [hhandler]
    exact List.mem_cons_self
  have howns := h.owns
  rw [frames, hhandler] at howns
  obtain ⟨heap, hfree, hrest, hframe⟩ := howns.free
  rw [Sample.handlerFree, hfree]
  refine ⟨⟨h.fault, hrest⟩, List.nil_sublist _, ?_⟩
  rw [List.nil_append, List.append_nil]
  exact hframe.contents_eq (h.not_waiting hmem)

/-! ## Steps of the loop -/

/-- A step of the loop that touches no frame. -/
theorem Valid.moves (h : state.Valid) {loop : LoopPoint} (hframes : loop.frames = state.loop.frames)
    (hunprinted : loop.unprinted = state.loop.unprinted) (pvtDataSem : Semaphore 1) :
    Passes state { state with pvtDataSem := pvtDataSem, loop := loop } [] [] [] := by
  refine h.passes rfl rfl ?_ (List.Sublist.refl _) ?_
  · rw [frames, frames, hframes]
  · rw [pending, pending, hunprinted]

theorem Valid.poll (h : state.Valid) (hloop : state.loop = .polling)
    (hstep : state.poll = some next) : Passes state next [] [] [] := by
  unfold Sample.poll at hstep
  dsimp only at hstep
  split at hstep
  · rw [← Option.some.inj hstep]
    exact h.moves (by rw [hloop]; rfl) (by rw [hloop]; rfl) _
  · cases hstep

theorem Valid.semTake (h : state.Valid) {events : PollStates} (hloop : state.loop = .pvt events) :
    Passes state (state.semTake events) [] [] [] := by
  unfold Sample.semTake
  split
  · exact h.moves (by rw [hloop]; rfl) (by rw [hloop]; rfl) _
  · exact h.moves (by rw [hloop]; rfl) (by rw [hloop]; rfl) _

theorem Valid.msgqGet (h : state.Valid) {events : PollStates} (hloop : state.loop = .nmea events) :
    Passes state (state.msgqGet events) [] [] [] := by
  have hnothing : Passes state { state with loop := .polling } [] [] [] :=
    h.moves (by rw [hloop]; rfl) (by rw [hloop]; rfl) _
  unfold Sample.msgqGet
  split
  · split
    · rename_i received rest hget
      have hentries : state.nmeaQueue.entries = received :: rest.entries := by
        obtain ⟨hfront, hrest⟩ := Prod.mk.inj hget
        have hdrop : state.nmeaQueue.entries.drop 1 = rest.entries :=
          congrArg BoundedQueue.entries hrest
        rw [← List.take_append_drop 1 state.nmeaQueue.entries, hfront, hdrop]
        rfl
      refine h.passes rfl rfl ?_ (List.Sublist.refl _) ?_
      · rw [frames, frames, hloop, hentries]
        rfl
      · rw [pending, pending, hloop, hentries]
        rfl
    · exact hnothing
  · exact hnothing

theorem Valid.print (h : state.Valid) (hloop : state.loop = .received nmeaData)
    (outputPaused : Bool) :
    Passes state (state.print nmeaData outputPaused) [] [] (state.heap.contents [nmeaData]) := by
  have hlive : (state.heap nmeaData).isSome := by
    rw [h.owns.live_iff, frames, hloop]
    exact List.mem_append_right _ List.mem_cons_self
  rw [Sample.print, if_pos (Or.inr hlive)]
  have howns := h.owns
  rw [frames, hloop] at howns
  refine ⟨⟨h.fault, howns⟩, ?_, ?_⟩
  · rw [List.append_nil]
    exact List.Sublist.refl _
  · rw [List.append_nil, pending, pending, hloop]
    exact (Heap.contents_append _ _ _).symm

theorem Valid.free (h : state.Valid) (hloop : state.loop = .printed nmeaData) :
    Passes state (state.free nmeaData) [] [] [] := by
  have howns : state.heap.Owns
      (nmeaData :: (state.handler.frames ++ state.nmeaQueue.entries)) := by
    apply h.owns.perm
    rw [frames, hloop]
    exact List.perm_middle.symm
  obtain ⟨heap, hfree, hrest, hframe⟩ := howns.free
  have helsewhere := (List.nodup_cons.mp howns.nodup).1
  have hready : nmeaData ∉ state.handler.ready := fun hmem ↦
    helsewhere (List.mem_append_left _ (state.handler.ready_sublist.subset hmem))
  have hwaiting : nmeaData ∉ state.nmeaQueue.entries := fun hmem ↦
    helsewhere (List.mem_append_right _ hmem)
  rw [Sample.free, hfree]
  refine ⟨⟨h.fault, hrest⟩, ?_, ?_⟩
  · have hfilled : heap.contents state.handler.ready = state.filled := hframe.contents_eq hready
    rw [List.nil_append, List.append_nil, ← hfilled]
    exact List.Sublist.refl _
  · rw [List.nil_append, List.append_nil, pending, pending, hloop]
    exact hframe.contents_eq hwaiting

/-! ## Runs -/

theorem Valid.step (h : state.Valid) (hstep : state.step event = some next) :
    Passes state next (state.delivered event) (state.accepted event) (state.handled event) := by
  unfold Sample.step at hstep
  split at hstep
  · exact Option.some.inj hstep ▸ h.evtPvt _
  · exact h.evtNmea ‹_› hstep
  · rw [delivered, ‹state.handler = _›]
    exact Option.some.inj hstep ▸ h.gnssRead ‹_› _ _
  · rw [accepted, ‹state.handler = _›]
    exact Option.some.inj hstep ▸ h.msgqPut ‹_›
  · exact Option.some.inj hstep ▸ h.handlerFree ‹_›
  · exact h.poll ‹_› hstep
  · exact Option.some.inj hstep ▸ h.semTake ‹_›
  · exact Option.some.inj hstep ▸ h.msgqGet ‹_›
  · rw [handled, ‹state.loop = _›]
    exact Option.some.inj hstep ▸ h.print ‹_› _
  · exact Option.some.inj hstep ▸ h.free ‹_›
  · cases hstep

theorem console_sublist (state : Sample) (event : Event) :
    (state.console event).Sublist (state.handled event) := by
  unfold console
  split
  · exact List.nil_sublist _
  · exact List.Sublist.refl _

theorem length_frames_le (state : Sample) : state.frames.length ≤ nmeaQueueLen + 2 := by
  have hhandler : state.handler.frames.length ≤ 1 := by
    cases state.handler with
    | outside => exact Nat.zero_le 1
    | allocated | filled | failed => exact le_rfl
  have hloop : state.loop.frames.length ≤ 1 := by
    cases state.loop with
    | polling | pvt | nmea => exact Nat.zero_le 1
    | received | printed => exact le_rfl
  have hqueue := state.nmeaQueue.length_le
  rw [frames, List.length_append, List.length_append]
  omega

/-- Whatever the interleaving, no access goes to a frame that is not allocated, every allocated
frame is held by exactly one of handler, loop and queue, the strings that the handler put on the
queue reach the output in their order, and the console shows strings that the modem delivered, in
their order. -/
theorem nmea_in_order {events : List Event} {final : Sample}
    (hrun : run step start events = some final) :
    final.fault = false ∧
      (final.frames.Nodup ∧ final.frames.length ≤ nmeaQueueLen + 2 ∧
        ∀ frame, (final.heap frame).isSome ↔ frame ∈ final.frames) ∧
      outputs step handled start events ++ final.pending = outputs step accepted start events ∧
      (outputs step accepted start events).Sublist (outputs step delivered start events) ∧
      (outputs step console start events).Sublist (outputs step handled start events) := by
  have hkept : ∀ state event next, state.Valid → step state event = some next → next.Valid :=
    fun _ _ _ h hstep ↦ (h.step hstep).valid
  have hvalid : final.Valid := run_invariant hkept valid_start hrun
  have haccepted := outputs_append_stored (congruence_sublist Nmea) hkept
    (fun _ _ _ h hstep ↦ (Valid.step h hstep).filled_sublist) valid_start hrun
  refine ⟨hvalid.fault, ⟨hvalid.owns.nodup, final.length_frames_le, hvalid.owns.live_iff⟩,
    ?_, ?_, outputs_sublist console_sublist _ _⟩
  · exact outputs_append_stored (congruence_eq Nmea) hkept
      (fun _ _ _ h hstep ↦ (Valid.step h hstep).pending_eq) valid_start hrun
  · exact (List.sublist_append_left _ _).trans haccepted

/-- Two strings, the second one delivered while the loop holds the first. -/
def twoStrings : List Event :=
  [.evtNmea (some (3, [])), .gnssRead 0 [0x24, 0x31], .msgqPut, .poll, .semTake, .msgqGet,
    .evtNmea (some (5, [])), .print false, .gnssRead 0 [0x24, 0x32], .free, .msgqPut]

theorem nmea_in_order_twoStrings : ∃ final, run step start twoStrings = some final ∧
    final.fault = false ∧
      (final.frames.Nodup ∧ final.frames.length ≤ nmeaQueueLen + 2 ∧
        ∀ frame, (final.heap frame).isSome ↔ frame ∈ final.frames) ∧
      outputs step handled start twoStrings ++ final.pending =
        outputs step accepted start twoStrings ∧
      (outputs step accepted start twoStrings).Sublist
        (outputs step delivered start twoStrings) ∧
      (outputs step console start twoStrings).Sublist (outputs step handled start twoStrings) := by
  have hrun : ∃ final, run step start twoStrings = some final :=
    Option.isSome_iff_exists.mp (by decide)
  obtain ⟨final, hfinal⟩ := hrun
  exact ⟨final, hfinal, nmea_in_order hfinal⟩

end Sample

end NrfExamples.Gnss
