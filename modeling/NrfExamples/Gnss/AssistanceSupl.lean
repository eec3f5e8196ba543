import NrfExamples.Library.Trace
import Mathlib.Algebra.Order.Ring.Int

/-!
# The socket of a SUPL session

`assistance_request` opens a socket, tries the resolved addresses until one connects, runs a SUPL
session over it and closes it. The descriptor is kept in `supl_fd`, which is not reset behind a
session, so between two requests it names a descriptor that other code may have opened meanwhile.

A step is a call of the socket library or of the SUPL library by this module, or a socket that other
code opens or closes. Closing a descriptor of other code, or talking to one, sets `misuse`.
-/

namespace NrfExamples.Gnss

open Trace

/-- Who has opened a descriptor. -/
inductive Holder (Address : Type) where
  /-- This module, with the address that the socket is connected to. -/
  | supl (peer : Option Address)
  | other
deriving DecidableEq

/-- Where `assistance_request` stands. -/
inductive RequestPoint (Address : Type) where
  | outside
  /-- In front of `socket` for the first of the addresses. -/
  | creating (addr : Address) (rest : List Address) (err : ℤ)
  /-- In front of `setsockopt`. -/
  | created (addr : Address) (rest : List Address)
  /-- In front of `connect`. -/
  | timeoutSet (addr : Address) (rest : List Address)
  /-- In front of the `close` behind a failed `connect`. -/
  | refused (rest : List Address) (err : ℤ)
  | cleanup (err : ℤ)
  /-- In front of `supl_session`. -/
  | connected
  /-- In front of `close_supl_socket`. -/
  | served (err : ℤ)
deriving DecidableEq

structure Supl (Address : Type) where
  suplFd : ℤ
  point : RequestPoint Address
  /-- The open descriptors. -/
  table : ℤ → Option (Holder Address)
  /-- The list that `getaddrinfo` returned last. -/
  info : List Address
  misuse : Bool

inductive SuplEvent (Address : Type) where
  /-- `assistance_request`, with the results of `getaddrinfo`. -/
  | request (err : ℤ) (info : List Address)
  | socket (ret : ℤ)
  | setsockopt (ret : ℤ)
  | connect (ret : ℤ)
  | close
  | cleanup
  | session (ret : ℤ)
  | otherOpens (fd : ℤ)
  | otherCloses (fd : ℤ)

variable {Address : Type}

/-- The descriptor was opened by this module. -/
def Own (holder : Option (Holder Address)) : Prop := ∃ peer, holder = some (.supl peer)

namespace Supl

/-- Before the first request, with the descriptors that other code has open. -/
def start (others : ℤ → Bool) : Supl Address where
  suplFd := -1
  point := .outside
  table fd := if others fd then some .other else none
  info := []
  misuse := false

/-! ## Calls -/

/-- The loop over the addresses, at its head. -/
def loopHead (err : ℤ) : List Address → RequestPoint Address
  | [] => .cleanup err
  | addr :: rest => .creating addr rest err

def getaddrinfo (err : ℤ) (info : List Address) (state : Supl Address) : Supl Address :=
  if err ≠ 0 then state else { state with info := info, point := loopHead (-1) info }

/-- A new descriptor was not open before. -/
def socket (addr : Address) (rest : List Address) (err ret : ℤ) (state : Supl Address) :
    Option (Supl Address) :=
  if ret < 0 then some { state with suplFd := ret, point := .cleanup err }
  else if state.table ret = none then
    some
      { state with
        suplFd := ret
        table := Function.update state.table ret (some (.supl none))
        point := .created addr rest }
  else none

/-- A call on `supl_fd`, whoever has opened it. -/
def use (state : Supl Address) : Supl Address :=
  { state with
    misuse := state.misuse || match state.table state.suplFd with
      | some (.supl _) => false
      | _ => true }

def setsockopt (addr : Address) (rest : List Address) (ret : ℤ) (state : Supl Address) :
    Supl Address :=
  { state.use with point := if ret ≠ 0 then .cleanup ret else .timeoutSet addr rest }

def connect (addr : Address) (rest : List Address) (ret : ℤ) (state : Supl Address) :
    Supl Address :=
  if ret ≠ 0 then { state.use with point := .refused rest ret }
  else
    { state.use with
      table := Function.update state.table state.suplFd (some (.supl (some addr)))
      point := .cleanup 0 }

def close (state : Supl Address) : Supl Address :=
  { state.use with table := Function.update state.table state.suplFd none }

def closeRefused (rest : List Address) (err : ℤ) (state : Supl Address) : Supl Address :=
  { state.close with suplFd := -1, point := loopHead err rest }

def cleanup (err : ℤ) (state : Supl Address) : Supl Address :=
  if err ≠ 0 then
    if state.suplFd > -1 then { state.close with suplFd := -1, point := .outside }
    else { state with point := .outside }
  else { state with point := .connected }

/-- The session reads from and writes to `supl_fd`. -/
def suplSession (ret : ℤ) (state : Supl Address) : Supl Address :=
  { state with
    point := .served ret
    misuse := state.misuse || match state.table state.suplFd with
      | some (.supl (some _)) => false
      | _ => true }

def closeSuplSocket (state : Supl Address) : Supl Address := { state.close with point := .outside }

def otherOpens (fd : ℤ) (state : Supl Address) : Option (Supl Address) :=
  match state.table fd with
  | none => some { state with table := Function.update state.table fd (some .other) }
  | some _ => none

def otherCloses (fd : ℤ) (state : Supl Address) : Option (Supl Address) :=
  match state.table fd with
  | some .other => some { state with table := Function.update state.table fd none }
  | _ => none

def step (state : Supl Address) (event : SuplEvent Address) : Option (Supl Address) :=
  match event, state.point with
  | .request err info, .outside => some (state.getaddrinfo err info)
  | .socket ret, .creating addr rest err => state.socket addr rest err ret
  | .setsockopt ret, .created addr rest => some (state.setsockopt addr rest ret)
  | .connect ret, .timeoutSet addr rest => some (state.connect addr rest ret)
  | .close, .refused rest err => some (state.closeRefused rest err)
  | .cleanup, .cleanup err => some (state.cleanup err)
  | .session ret, .connected => some (state.suplSession ret)
  | .close, .served _ => some state.closeSuplSocket
  | .otherOpens fd, _ => state.otherOpens fd
  | .otherCloses fd, _ => state.otherCloses fd
  | _, _ => none

/-! ## The descriptor of the module -/

variable {state next : Supl Address} {event : SuplEvent Address} {fd : ℤ}
  {holder : Option (Holder Address)}

/-- What stands behind `supl_fd` at each point. -/
def Expects (info : List Address) (fd : ℤ) (holder : Option (Holder Address)) :
    RequestPoint Address → Prop
  | .outside => ¬ Own holder
  | .creating addr rest err => err ≠ 0 ∧ addr :: rest ⊆ info ∧ ¬ Own holder
  | .created addr rest | .timeoutSet addr rest =>
      0 ≤ fd ∧ addr :: rest ⊆ info ∧ holder = some (.supl none)
  | .refused rest err => err ≠ 0 ∧ rest ⊆ info ∧ holder = some (.supl none)
  | .cleanup err =>
      if err = 0 then ∃ addr ∈ info, holder = some (.supl (some addr))
      else if fd > -1 then holder = some (.supl none)
      else ¬ Own holder
  | .connected | .served _ => ∃ addr ∈ info, holder = some (.supl (some addr))

/-- The module has no descriptor open but the one in `supl_fd`, and this one as its code expects. -/
structure Valid (state : Supl Address) : Prop where
  misuse : state.misuse = false
  elsewhere : ∀ fd, fd ≠ state.suplFd → ¬ Own (state.table fd)
  expects : Expects state.info state.suplFd (state.table state.suplFd) state.point

theorem not_own_none : ¬ Own (none : Option (Holder Address)) := fun ⟨_, h⟩ ↦ nomatch h

theorem not_own_other : ¬ Own (some (.other : Holder Address)) := fun ⟨_, h⟩ ↦ nomatch h

theorem valid_start (others : ℤ → Bool) : (start others : Supl Address).Valid := by
  have hnone (fd : ℤ) : ¬ Own ((start others : Supl Address).table fd) := by
    unfold start
    dsimp only
    split
    · exact not_own_other
    · exact not_own_none
  exact ⟨rfl, fun fd _ ↦ hnone fd, hnone _⟩

/-! ## Calls -/

/-- A call that touches no descriptor. -/
theorem Valid.moves (h : state.Valid) {point : RequestPoint Address}
    (hexpects : Expects state.info state.suplFd (state.table state.suplFd) point) :
    Valid { state with point := point } :=
  ⟨h.misuse, h.elsewhere, hexpects⟩

/-- The head of the loop behind a failed address, or in front of the first one. -/
theorem expects_loopHead {info rest : List Address} {err : ℤ} (herr : err ≠ 0)
    (hrest : rest ⊆ info) (hfd : rest = [] → fd ≤ -1) (hholder : ¬ Own holder) :
    Expects info fd holder (loopHead err rest) := by
  cases rest with
  | nil =>
    rw [loopHead, Expects, if_neg herr, if_neg (Int.not_lt.mpr (hfd rfl))]
    exact hholder
  | cons addr rest => exact ⟨herr, hrest, hholder⟩

/-- A call on its own descriptor. -/
theorem Valid.use_eq (h : state.Valid) {peer : Option Address}
    (hown : state.table state.suplFd = some (.supl peer)) : state.use = state := by
  rw [Supl.use, hown]
  simp only [h.misuse, Bool.or_false]
  rw [← h.misuse]

/-- Behind a close of its own descriptor the module has none open. -/
theorem Valid.close (h : state.Valid) (hown : Own (state.table state.suplFd)) :
    state.close.misuse = false ∧ ∀ fd, ¬ Own (state.close.table fd) := by
  constructor
  · obtain ⟨peer, hpeer⟩ := hown
    rw [Supl.close, h.use_eq hpeer]
    exact h.misuse
  · intro fd
    rw [Supl.close]
    dsimp only
    rw [Function.update_apply]
    split
    · exact not_own_none
    · exact h.elsewhere fd ‹_›

theorem Valid.getaddrinfo (h : state.Valid) (hpoint : state.point = .outside) {err : ℤ}
    {info : List Address} (hresolved : err = 0 → info ≠ []) :
    (state.getaddrinfo err info).Valid := by
  unfold Supl.getaddrinfo
  split
  · exact h
  · have hfree : ¬ Own (state.table state.suplFd) := by
      have hexpects := h.expects
      rwa [hpoint] at hexpects
    refine ⟨h.misuse, h.elsewhere, ?_⟩
    refine expects_loopHead (by decide) (List.Subset.refl _) (fun hnil ↦ ?_) hfree
    exact absurd hnil (hresolved (not_not.mp ‹_›))

theorem Valid.not_own (h : state.Valid) (hfree : ¬ Own (state.table state.suplFd)) (fd : ℤ) :
    ¬ Own (state.table fd) := by
  by_cases hfd : fd = state.suplFd
  · rwa [hfd]
  · exact h.elsewhere fd hfd

theorem Valid.socket (h : state.Valid) {addr : Address} {rest : List Address} {err ret : ℤ}
    (hpoint : state.point = .creating addr rest err)
    (hstep : state.socket addr rest err ret = some next) : next.Valid := by
  have hexpects := h.expects
  rw [hpoint] at hexpects
  obtain ⟨herr, hrest, hfree⟩ := hexpects
  have hnone := h.not_own hfree
  unfold Supl.socket at hstep
  split at hstep
  · have hret : ¬ ret > -1 := Int.not_lt.mpr (Int.le_sub_one_of_lt ‹ret < 0›)
    rw [← Option.some.inj hstep]
    refine ⟨h.misuse, fun fd _ ↦ hnone fd, ?_⟩
    rw [Expects, if_neg herr, if_neg hret]
    exact hnone ret
  · split at hstep
    · rw [← Option.some.inj hstep]
      refine ⟨h.misuse, fun fd hfd ↦ ?_, Int.not_lt.mp ‹_›, hrest, Function.update_self _ _ _⟩
      dsimp only at hfd ⊢
      rw [Function.update_of_ne hfd]
      exact hnone fd
    · cases hstep

theorem Valid.setsockopt (h : state.Valid) {addr : Address} {rest : List Address}
    (hpoint : state.point = .created addr rest) (ret : ℤ) :
    (state.setsockopt addr rest ret).Valid := by
  have hexpects := h.expects
  rw [hpoint] at hexpects
  rw [Supl.setsockopt, h.use_eq hexpects.2.2]
  apply h.moves
  split
  · rw [Expects, if_neg ‹_›, if_pos (Int.lt_of_lt_of_le (by decide) hexpects.1)]
    exact hexpects.2.2
  · exact hexpects

theorem Valid.connect (h : state.Valid) {addr : Address} {rest : List Address}
    (hpoint : state.point = .timeoutSet addr rest) (ret : ℤ) :
    (state.connect addr rest ret).Valid := by
  have hexpects := h.expects
  rw [hpoint] at hexpects
  obtain ⟨_, hinfo, hholder⟩ := hexpects
  rw [Supl.connect, h.use_eq hholder]
  split
  · exact h.moves ⟨‹_›, List.Subset.trans (List.subset_cons_self addr rest) hinfo, hholder⟩
  · refine ⟨h.misuse, fun fd hfd ↦ ?_, ?_⟩
    · dsimp only at hfd ⊢
      rw [Function.update_of_ne hfd]
      exact h.elsewhere fd hfd
    · rw [Expects, if_pos rfl]
      exact ⟨addr, hinfo List.mem_cons_self, Function.update_self _ _ _⟩

theorem Valid.closeRefused (h : state.Valid) {rest : List Address} {err : ℤ}
    (hpoint : state.point = .refused rest err) : (state.closeRefused rest err).Valid := by
  have hexpects := h.expects
  rw [hpoint] at hexpects
  obtain ⟨herr, hrest, hholder⟩ := hexpects
  obtain ⟨hmisuse, hnone⟩ := h.close ⟨none, hholder⟩
  exact ⟨hmisuse, fun fd _ ↦ hnone fd,
    expects_loopHead herr hrest (fun _ ↦ le_rfl) (hnone _)⟩

theorem Valid.cleanup (h : state.Valid) {err : ℤ} (hpoint : state.point = .cleanup err) :
    (state.cleanup err).Valid := by
  have hexpects := h.expects
  rw [hpoint, Expects] at hexpects
  unfold Supl.cleanup
  split
  · rename_i herr
    rw [if_neg herr] at hexpects
    split
    · rename_i hfd
      rw [if_pos hfd] at hexpects
      obtain ⟨hmisuse, hnone⟩ := h.close ⟨none, hexpects⟩
      exact ⟨hmisuse, fun fd _ ↦ hnone fd, hnone _⟩
    · rename_i hfd
      rw [if_neg hfd] at hexpects
      exact h.moves hexpects
  · rw [if_pos (not_not.mp ‹_›)] at hexpects
    exact h.moves hexpects

theorem Valid.suplSession (h : state.Valid) (hpoint : state.point = .connected) (ret : ℤ) :
    (state.suplSession ret).Valid := by
  have hexpects := h.expects
  rw [hpoint] at hexpects
  obtain ⟨addr, hmem, hholder⟩ := hexpects
  refine ⟨?_, h.elsewhere, addr, hmem, hholder⟩
  rw [Supl.suplSession, hholder, h.misuse]
  rfl

theorem Valid.closeSuplSocket (h : state.Valid) {err : ℤ} (hpoint : state.point = .served err) :
    state.closeSuplSocket.Valid := by
  have hexpects := h.expects
  rw [hpoint] at hexpects
  obtain ⟨addr, _, hholder⟩ := hexpects
  obtain ⟨hmisuse, hnone⟩ := h.close ⟨some addr, hholder⟩
  exact ⟨hmisuse, fun fd _ ↦ hnone fd, hnone _⟩

/-! ## Other code -/

/-- No point tells a closed descriptor from one of other code. -/
theorem expects_of_not_own {info : List Address} {point : RequestPoint Address}
    {later : Option (Holder Address)} (h : Expects info fd holder point) (hholder : ¬ Own holder)
    (hlater : ¬ Own later) : Expects info fd later point := by
  have hnever (peer : Option Address) : holder ≠ some (.supl peer) := fun hown ↦
    hholder ⟨peer, hown⟩
  cases point with
  | outside => exact hlater
  | creating => exact ⟨h.1, h.2.1, hlater⟩
  | created | timeoutSet | refused => exact absurd h.2.2 (hnever none)
  | cleanup err =>
    rw [Expects] at h ⊢
    split
    · rw [if_pos ‹_›] at h
      obtain ⟨addr, _, hown⟩ := h
      exact absurd hown (hnever _)
    · rw [if_neg ‹_›] at h
      split
      · rw [if_pos ‹_›] at h
        exact absurd h (hnever none)
      · exact hlater
  | connected | served =>
    obtain ⟨addr, _, hown⟩ := h
    exact absurd hown (hnever _)

/-- Other code opens and closes its own descriptors. -/
theorem Valid.update (h : state.Valid) (hfree : ¬ Own (state.table fd)) (hholder : ¬ Own holder) :
    Valid { state with table := Function.update state.table fd holder } := by
  refine ⟨h.misuse, fun other hother ↦ ?_, ?_⟩
  · dsimp only
    rw [Function.update_apply]
    split
    · exact hholder
    · exact h.elsewhere other hother
  · dsimp only
    rw [Function.update_apply]
    split
    · rename_i hfd
      rw [← hfd] at hfree
      exact expects_of_not_own h.expects hfree hholder
    · exact h.expects

/-! ## Runs -/

/-- A successful resolution has an address. -/
def Resolves : SuplEvent Address → Prop
  | .request err info => err = 0 → info ≠ []
  | _ => True

theorem Valid.step (h : state.Valid) (hresolves : Resolves event)
    (hstep : state.step event = some next) : next.Valid := by
  unfold Supl.step at hstep
  split at hstep
  · exact Option.some.inj hstep ▸ h.getaddrinfo ‹_› hresolves
  · exact h.socket ‹_› hstep
  · exact Option.some.inj hstep ▸ h.setsockopt ‹_› _
  · exact Option.some.inj hstep ▸ h.connect ‹_› _
  · exact Option.some.inj hstep ▸ h.closeRefused ‹_›
  · exact Option.some.inj hstep ▸ h.cleanup ‹_›
  · exact Option.some.inj hstep ▸ h.suplSession ‹_› _
  · exact Option.some.inj hstep ▸ h.closeSuplSocket ‹_›
  · unfold Supl.otherOpens at hstep
    split at hstep
    · rename_i hclosed
      exact Option.some.inj hstep ▸ h.update (hclosed ▸ not_own_none) not_own_other
    · cases hstep
  · unfold Supl.otherCloses at hstep
    split at hstep
    · rename_i hother
      exact Option.some.inj hstep ▸ h.update (hother ▸ not_own_other) not_own_none
    · cases hstep
  · cases hstep

/-- Over any number of requests, with other code opening and closing descriptors at any moment: the
module never closes or uses a descriptor that is not its own, it runs a session over a socket that
is connected to an address of the list, and outside a request it has no descriptor open. -/
theorem descriptors_of_run {others : ℤ → Bool} {events : List (SuplEvent Address)}
    {final : Supl Address} (hresolves : ∀ event ∈ events, Resolves event)
    (hrun : run step (start others) events = some final) :
    final.misuse = false ∧
      (∀ fd, Own (final.table fd) → fd = final.suplFd ∧ final.point ≠ .outside) ∧
      (final.point = .connected →
        ∃ addr ∈ final.info, final.table final.suplFd = some (.supl (some addr))) := by
  have hvalid : final.Valid :=
    run_invariant_of_along (fun _ _ _ hresolves h hstep ↦ h.step hresolves hstep)
      (valid_start others) (along_of_forall hresolves) hrun
  have hexpects := hvalid.expects
  refine ⟨hvalid.misuse, fun fd hown ↦ ⟨?_, fun hpoint ↦ ?_⟩, fun hpoint ↦ ?_⟩
  · by_contra hfd
    exact hvalid.elsewhere fd hfd hown
  · rw [hpoint] at hexpects
    exact hvalid.not_own hexpects fd hown
  · rwa [hpoint] at hexpects

/-- Two requests. Between them other code opens the descriptor of the first session. -/
def twoRequests : List (SuplEvent ℕ) :=
  [.request 0 [10, 11], .socket 4, .setsockopt 0, .connect (-1), .close, .socket 4, .setsockopt 0,
    .connect 0, .cleanup, .session 0, .close, .otherOpens 4, .request 0 [10], .socket (-1),
    .cleanup]

theorem descriptors_of_two_requests : ∃ final,
    run step (start fun _ ↦ false) twoRequests = some final ∧ final.misuse = false ∧
      (∀ fd, Own (final.table fd) → fd = final.suplFd ∧ final.point ≠ .outside) ∧
      (final.point = .connected →
        ∃ addr ∈ final.info, final.table final.suplFd = some (.supl (some addr))) := by
  have hrun : ∃ final, run step (start fun _ ↦ false) twoRequests = some final :=
    Option.isSome_iff_exists.mp (by decide)
  obtain ⟨final, hfinal⟩ := hrun
  have hresolves : ∀ event ∈ twoRequests, Resolves event := by
    intro event hmem
    cases event with
    | request err info =>
      rintro - rfl
      revert hmem
      simp [twoRequests]
    | socket | setsockopt | connect | close | cleanup | session | otherOpens | otherCloses =>
      trivial
  exact ⟨final, hfinal, descriptors_of_run hresolves hfinal⟩

end Supl

end NrfExamples.Gnss
