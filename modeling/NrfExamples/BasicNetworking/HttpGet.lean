import NrfExamples.Library.Descriptors
import NrfExamples.Library.Procedure
import Mathlib.Algebra.Order.Ring.Int

/-!
# Connecting a socket

`connect_socket` tries the IPv6 addresses of the resolved list on one socket and, behind it, the
IPv4 addresses on another. Which sockets can be created and which connects succeed are inputs. The
IPv4 socket of an exhausted list is neither connected nor closed, and the function returns zero.
-/

namespace NrfExamples.BasicNetworking

open Descriptors Procedure

/-! ## Sockets -/

inductive Family where
  | inet
  | inet6
deriving DecidableEq

/-- An entry of the resolved list. -/
structure Address where
  family : Family
  addr : List (BitVec 8)
  /-- In network byte order. -/
  port : UInt16
deriving DecidableEq

/-- What the calls of the socket library return. -/
structure Net where
  socket : Family → ℤ
  /-- The results of the connects in the order of the calls. -/
  connect : ℕ → ℤ

inductive Call where
  | socket (family : Family) (ret : ℤ)
  | connect (sock : ℤ) (address : Address) (addrlen : ℕ) (ret : ℤ)
  | close (sock : ℤ)
deriving DecidableEq

def htons (port : UInt16) : UInt16 := (port <<< 8) ||| (port >>> 8)

def sizeofSockaddrIn : ℕ := 8

def Address.withPort (address : Address) (port : UInt16) : Address :=
  { address with port := htons port }

/-! ## The function -/

/-- The resolved list, the number of connects so far and the variable `sock`. -/
structure State where
  results : List Address
  connects : ℕ
  sock : ℤ

def createSocket (net : Net) (family : Family) (state : State) : Progress State Call ℤ :=
  let sock := net.socket family
  ⟨{ state with sock := sock }, [.socket family sock], if sock < 0 then some (-1) else none⟩

/-- The loop over the addresses of a family, with the list and the number of connects behind it. -/
def connectAny (net : Net) (family : Family) (port : UInt16) (sock : ℤ) :
    List Address → ℕ → Progress (List Address × ℕ) Call ℤ
  | [], connects => Progress.skip ([], connects)
  | address :: rest, connects =>
      if address.family = family then
        let address := address.withPort port
        let ret := net.connect connects
        -- Both loops pass the size of an IPv4 address.
        let call := .connect sock address sizeofSockaddrIn ret
        if ret = 0 then ⟨(address :: rest, connects + 1), [call], some sock⟩
        else
          let tried := connectAny net family port sock rest (connects + 1)
          ⟨(address :: tried.state.1, tried.state.2), call :: tried.effects, tried.exit⟩
      else
        let tried := connectAny net family port sock rest connects
        ⟨(address :: tried.state.1, tried.state.2), tried.effects, tried.exit⟩

def tryAddresses (net : Net) (family : Family) (port : UInt16) (state : State) :
    Progress State Call ℤ :=
  let tried := connectAny net family port state.sock state.results state.connects
  ⟨{ state with results := tried.state.1, connects := tried.state.2 }, tried.effects, tried.exit⟩

def closeSocket (state : State) : Progress State Call ℤ := ⟨state, [.close state.sock], none⟩

def connectSocket (net : Net) (results : List Address) (port : UInt16) : Progress State Call ℤ :=
  (createSocket net .inet6 ⟨results, 0, 0⟩).andThen fun state ↦
  (tryAddresses net .inet6 port state).andThen fun state ↦
  (closeSocket state).andThen fun state ↦
  (createSocket net .inet state).andThen fun state ↦
  (tryAddresses net .inet port state).andThen fun state ↦
  ⟨state, [], some 0⟩

/-! ## What the calls leave open -/

/-- The change of the open sockets by a call. A call that fails changes nothing. -/
def Call.event : Call → Option (Event ℤ Address)
  | .socket _ ret => if ret < 0 then none else some (.opened ret)
  | .connect sock address _ ret => if ret = 0 then some (.connected sock address) else none
  | .close sock => some (.closed sock)

def events (calls : List Call) : List (Event ℤ Address) := calls.filterMap Call.event

/-- The function returns the only open socket, connected to an address of the list, or a negative
value with no socket left open. -/
def UsableOrNothing (results : List Address) (port : UInt16)
    (returned : Progress State Call ℤ) : Prop :=
  ∃ value, returned.exit = some value ∧
    ((∃ address ∈ results, openAfter (events returned.effects) =
        [⟨value, some (address.withPort port)⟩]) ∨
      value < 0 ∧ openAfter (events returned.effects) = [])

/-- An open socket without a peer is neither usable nor nothing. -/
theorem not_usableOrNothing_of_unconnected {results : List Address} {port : UInt16}
    {returned : Progress State Call ℤ} {sock : ℤ}
    (hopen : openAfter (events returned.effects) = [⟨sock, none⟩]) :
    ¬ UsableOrNothing results port returned := by
  rintro ⟨value, -, ⟨address, -, hconnected⟩ | ⟨-, hnothing⟩⟩
  · have hentry := (List.cons.inj (hopen.symm.trans hconnected)).1
    cases congrArg Entry.peer hentry
  · cases hopen.symm.trans hnothing

/-! ## One family -/

def ofFamily (family : Family) (results : List Address) : List Address :=
  results.filter fun address ↦ address.family = family

theorem ofFamily_cons_self {family : Family} {address : Address} (h : address.family = family)
    (rest : List Address) : ofFamily family (address :: rest) = address :: ofFamily family rest :=
  List.filter_cons_of_pos (decide_eq_true h)

theorem ofFamily_cons_ne {family : Family} {address : Address} (h : address.family ≠ family)
    (rest : List Address) : ofFamily family (address :: rest) = ofFamily family rest :=
  List.filter_cons_of_neg (by simpa using h)

theorem length_ofFamily (results : List Address) :
    (ofFamily .inet6 results).length + (ofFamily .inet results).length = results.length := by
  induction results with
  | nil => rfl
  | cons address rest ih =>
    cases hfamily : address.family with
    | inet =>
      have hother : address.family ≠ .inet6 := by
        rw [hfamily]
        decide
      rw [ofFamily_cons_ne hother, ofFamily_cons_self hfamily, List.length_cons, List.length_cons,
        ← ih, Nat.add_assoc]
    | inet6 =>
      have hother : address.family ≠ .inet := by
        rw [hfamily]
        decide
      rw [ofFamily_cons_self hfamily, ofFamily_cons_ne hother, List.length_cons, List.length_cons,
        ← ih, Nat.add_right_comm]

/-- How the loop over a family ends. -/
inductive Tried (net : Net) (family : Family) (port : UInt16) (sock : ℤ) (results : List Address)
    (connects : ℕ) (tried : Progress (List Address × ℕ) Call ℤ) : Prop where
  | connected (address : Address) (n : ℕ) (hmem : address ∈ ofFamily family results)
      (hn : n < (ofFamily family results).length) (hconnect : net.connect (connects + n) = 0)
      (hexit : tried.exit = some sock)
      (hevents : events tried.effects = [.connected sock (address.withPort port)])
  | exhausted (hall : ∀ n < (ofFamily family results).length, net.connect (connects + n) ≠ 0)
      (hexit : tried.exit = none) (hevents : events tried.effects = [])
      (hconnects : tried.state.2 = connects + (ofFamily family results).length)
      (hothers : ∀ other ≠ family, ofFamily other tried.state.1 = ofFamily other results)

namespace Tried

variable {net : Net} {family : Family} {port : UInt16} {sock : ℤ} {address : Address}
  {rest : List Address} {connects : ℕ} {tried : Progress (List Address × ℕ) Call ℤ}

/-- An address of the other family is passed over. -/
theorem cons_of_ne (h : Tried net family port sock rest connects tried)
    (hfamily : address.family ≠ family) :
    Tried net family port sock (address :: rest) connects
      ⟨(address :: tried.state.1, tried.state.2), tried.effects, tried.exit⟩ := by
  have hkept := ofFamily_cons_ne hfamily rest
  cases h with
  | connected other n hmem hn hconnect hexit hevents =>
    exact .connected other n (hkept ▸ hmem) (hkept ▸ hn) hconnect hexit hevents
  | exhausted hall hexit hevents hconnects hothers =>
    refine .exhausted (hkept ▸ hall) hexit hevents (hkept ▸ hconnects) fun other hother ↦ ?_
    by_cases hsame : address.family = other
    · rw [ofFamily_cons_self hsame, ofFamily_cons_self hsame, hothers other hother]
    · rw [ofFamily_cons_ne hsame, ofFamily_cons_ne hsame, hothers other hother]

/-- Behind a connect that fails the rest of the addresses is tried. -/
theorem cons_of_failed (h : Tried net family port sock rest (connects + 1) tried)
    (hfamily : address.family = family) {ret : ℤ} (hret : net.connect connects = ret)
    (hfail : ret ≠ 0) :
    Tried net family port sock (address :: rest) connects
      ⟨(address.withPort port :: tried.state.1, tried.state.2),
        .connect sock (address.withPort port) sizeofSockaddrIn ret :: tried.effects,
        tried.exit⟩ := by
  have hcons := ofFamily_cons_self hfamily rest
  have hnone : events (.connect sock (address.withPort port) sizeofSockaddrIn ret ::
      tried.effects) = events tried.effects :=
    List.filterMap_cons_none (if_neg hfail)
  cases h with
  | connected other n hmem hn hconnect hexit hevents =>
    refine .connected other (n + 1) ?_ ?_ ?_ hexit (hnone.trans hevents)
    · rw [hcons]
      exact List.mem_cons_of_mem address hmem
    · rw [hcons]
      exact Nat.succ_lt_succ hn
    · rw [← Nat.add_assoc, Nat.add_right_comm]
      exact hconnect
  | exhausted hall hexit hevents hconnects hothers =>
    refine .exhausted (fun n hn ↦ ?_) hexit (hnone.trans hevents) ?_ fun other hother ↦ ?_
    · cases n with
      | zero =>
        rw [Nat.add_zero, hret]
        exact hfail
      | succ n =>
        rw [hcons] at hn
        rw [← Nat.add_assoc, Nat.add_right_comm]
        exact hall n (Nat.lt_of_succ_lt_succ hn)
    · rw [hcons, List.length_cons, hconnects, Nat.add_right_comm, Nat.add_assoc]
    · have hne : address.family ≠ other := hfamily ▸ hother.symm
      have hne' : (address.withPort port).family ≠ other := hne
      rw [ofFamily_cons_ne hne, ofFamily_cons_ne hne', hothers other hother]

end Tried

theorem tried_connectAny (net : Net) (family : Family) (port : UInt16) (sock : ℤ)
    (results : List Address) (connects : ℕ) :
    Tried net family port sock results connects
      (connectAny net family port sock results connects) := by
  induction results generalizing connects with
  | nil =>
    exact .exhausted (fun n hn ↦ absurd hn (Nat.not_lt_zero n)) rfl rfl rfl fun _ _ ↦ rfl
  | cons address rest ih =>
    rw [connectAny]
    by_cases hfamily : address.family = family
    · rw [if_pos hfamily]
      by_cases hconnect : net.connect connects = 0
      · simp only [if_pos hconnect]
        have hcons := ofFamily_cons_self hfamily rest
        refine .connected address 0 ?_ ?_ hconnect rfl ?_
        · rw [hcons]
          exact List.mem_cons_self
        · rw [hcons]
          exact Nat.succ_pos _
        · exact List.filterMap_cons_some (if_pos hconnect)
      · simp only [if_neg hconnect]
        exact (ih (connects + 1)).cons_of_failed hfamily rfl hconnect
    · rw [if_neg hfamily]
      exact (ih connects).cons_of_ne hfamily

/-! ## Both families -/

/-- How the creation of a socket and the loop over its family end. -/
inductive Phase (net : Net) (family : Family) (port : UInt16) (state : State)
    (progress : Progress State Call ℤ) : Prop where
  | refused (hsocket : net.socket family < 0) (hexit : progress.exit = some (-1))
      (hevents : events progress.effects = [])
  | connected (address : Address) (n : ℕ) (hmem : address ∈ ofFamily family state.results)
      (hn : n < (ofFamily family state.results).length)
      (hconnect : net.connect (state.connects + n) = 0)
      (hexit : progress.exit = some (net.socket family))
      (hevents : events progress.effects = [.opened (net.socket family),
        .connected (net.socket family) (address.withPort port)])
  | exhausted (hsocket : ¬ net.socket family < 0)
      (hall : ∀ n < (ofFamily family state.results).length,
        net.connect (state.connects + n) ≠ 0)
      (hexit : progress.exit = none)
      (hevents : events progress.effects = [.opened (net.socket family)])
      (hsock : progress.state.sock = net.socket family)
      (hconnects : progress.state.connects =
        state.connects + (ofFamily family state.results).length)
      (hothers : ∀ other ≠ family,
        ofFamily other progress.state.results = ofFamily other state.results)

theorem phase_of_createSocket (net : Net) (family : Family) (port : UInt16) (state : State) :
    Phase net family port state
      ((createSocket net family state).andThen (tryAddresses net family port)) := by
  by_cases hsocket : net.socket family < 0
  · have hexit : (createSocket net family state).exit = some (-1) := if_pos hsocket
    rw [Progress.andThen_of_returned hexit]
    exact .refused hsocket hexit (List.filterMap_cons_none (if_pos hsocket))
  · have hexit : (createSocket net family state).exit = none := if_neg hsocket
    have hopened (calls : List Call) : events (.socket family (net.socket family) :: calls) =
        .opened (net.socket family) :: events calls :=
      List.filterMap_cons_some (if_neg hsocket)
    rw [Progress.andThen_of_continues hexit]
    cases tried_connectAny net family port (net.socket family) state.results state.connects with
    | connected address n hmem hn hconnect hexit hevents =>
      exact .connected address n hmem hn hconnect hexit
        ((hopened _).trans (congrArg _ hevents))
    | exhausted hall hexit hevents hconnects hothers =>
      exact .exhausted hsocket hall hexit ((hopened _).trans (congrArg _ hevents)) rfl hconnects
        hothers

theorem connectSocket_eq (net : Net) (results : List Address) (port : UInt16) :
    connectSocket net results port =
      ((createSocket net .inet6 ⟨results, 0, 0⟩).andThen
        (tryAddresses net .inet6 port)).andThen fun state ↦
      (closeSocket state).andThen fun state ↦
      ((createSocket net .inet state).andThen (tryAddresses net .inet port)).andThen fun state ↦
      ⟨state, [], some 0⟩ := by
  simp only [connectSocket, Progress.andThen_assoc]

theorem events_append (calls more : List Call) :
    events (calls ++ more) = events calls ++ events more := List.filterMap_append

/-- Behind exhausted IPv6 addresses the IPv6 socket is closed and the other family decides. -/
theorem behind_exhausted {net : Net} {port : UInt16} {state : State} {before : List Call}
    {opened : ℤ} (hbefore : events before = [.opened opened]) (hsock : state.sock = opened)
    {second : Progress State Call ℤ} (h : Phase net .inet port state second)
    {results : List Address} (hresults : ofFamily .inet state.results = ofFamily .inet results) :
    UsableOrNothing results port
        { second.andThen fun state ↦ ⟨state, [], some 0⟩ with
          effects := before ++
            (.close state.sock :: (second.andThen fun state ↦ ⟨state, [], some 0⟩).effects) } ↔
      net.socket .inet < 0 ∨ ∃ n < (ofFamily .inet results).length,
        net.connect (state.connects + n) = 0 := by
  have hopen (calls : List Call) :
      openAfter (events (before ++ .close state.sock :: calls)) = openAfter (events calls) := by
    rw [events_append, hbefore, hsock]
    exact openAfter_closed opened (events calls)
  cases h with
  | refused hsocket hexit hevents =>
    rw [Progress.andThen_of_returned hexit]
    refine iff_of_true ⟨-1, hexit, Or.inr ⟨by decide, ?_⟩⟩ (Or.inl hsocket)
    rw [hopen, hevents]
    rfl
  | connected address n hmem hn hconnect hexit hevents =>
    rw [hresults] at hmem hn
    rw [Progress.andThen_of_returned hexit]
    refine iff_of_true ⟨_, hexit, Or.inl ⟨address, List.mem_of_mem_filter hmem, ?_⟩⟩
      (Or.inr ⟨n, hn, hconnect⟩)
    rw [hopen, hevents]
    exact openAfter_connected _ _
  | exhausted hsocket hall hexit hevents hsock hconnects hothers =>
    rw [hresults] at hall
    rw [Progress.andThen_of_continues hexit]
    have hleft : openAfter (events (before ++ .close state.sock :: (second.effects ++ []))) =
        [⟨net.socket .inet, none⟩] := by
      rw [hopen, List.append_nil, hevents]
      exact openAfter_opened _
    apply iff_of_false
    · exact not_usableOrNothing_of_unconnected hleft
    · rintro (hrefused | ⟨n, hn, hconnect⟩)
      · exact hsocket hrefused
      · exact hall n hn hconnect

/-- Behind IPv6 connects that all fail, a success in the list is one of the IPv4 connects. -/
theorem exists_connect_iff {net : Net} {results : List Address}
    (hall : ∀ n < (ofFamily .inet6 results).length, net.connect n ≠ 0) :
    (∃ n < results.length, net.connect n = 0) ↔
      ∃ n < (ofFamily .inet results).length,
        net.connect ((ofFamily .inet6 results).length + n) = 0 := by
  have hlength := length_ofFamily results
  constructor
  · rintro ⟨n, hn, hconnect⟩
    have hle : (ofFamily .inet6 results).length ≤ n := by
      by_contra hlt
      exact hall n (Nat.lt_of_not_le hlt) hconnect
    refine ⟨n - (ofFamily .inet6 results).length, by omega, ?_⟩
    rwa [Nat.add_sub_cancel' hle]
  · rintro ⟨n, hn, hconnect⟩
    exact ⟨(ofFamily .inet6 results).length + n, by omega, hconnect⟩

/-- The function returns a usable socket or nothing exactly when a socket cannot be created or a
connect succeeds. -/
theorem usableOrNothing_iff (net : Net) (results : List Address) (port : UInt16) :
    UsableOrNothing results port (connectSocket net results port) ↔
      net.socket .inet6 < 0 ∨ net.socket .inet < 0 ∨
        ∃ n < results.length, net.connect n = 0 := by
  rw [connectSocket_eq]
  have hfirst := phase_of_createSocket net .inet6 port ⟨results, 0, 0⟩
  generalize (createSocket net .inet6 ⟨results, 0, 0⟩).andThen (tryAddresses net .inet6 port) =
    first at hfirst
  cases hfirst with
  | refused hsocket hexit hevents =>
    rw [Progress.andThen_of_returned hexit]
    refine iff_of_true ⟨-1, hexit, Or.inr ⟨by decide, ?_⟩⟩ (Or.inl hsocket)
    rw [hevents]
    rfl
  | connected address n hmem hn hconnect hexit hevents =>
    rw [Progress.andThen_of_returned hexit]
    refine iff_of_true ⟨_, hexit, Or.inl ⟨address, List.mem_of_mem_filter hmem, ?_⟩⟩
      (Or.inr (Or.inr ⟨n, ?_, ?_⟩))
    · rw [hevents]
      exact openAfter_connected _ _
    · exact hn.trans_le (List.length_filter_le _ _)
    · rw [← hconnect, Nat.zero_add]
  | exhausted hsocket hall hexit hevents hsock hconnects hothers =>
    simp only [Nat.zero_add] at hall hconnects
    have hclose : (closeSocket first.state).exit = none := rfl
    rw [Progress.andThen_of_continues hexit, Progress.andThen_of_continues hclose,
      or_iff_right hsocket, exists_connect_iff hall, ← hconnects]
    exact behind_exhausted hevents hsock (phase_of_createSocket net .inet port first.state)
      (hothers .inet (by decide))

/-- Both sockets are created and one IPv4 address refuses. -/
theorem not_usableOrNothing_refused :
    ¬ UsableOrNothing [⟨.inet, [10, 0, 0, 1], 0⟩] 80
      (connectSocket ⟨fun _ ↦ 3, fun _ ↦ -1⟩ [⟨.inet, [10, 0, 0, 1], 0⟩] 80) := by
  have hopen : openAfter (events (connectSocket ⟨fun _ ↦ 3, fun _ ↦ -1⟩
      [⟨.inet, [10, 0, 0, 1], 0⟩] 80).effects) = [⟨3, none⟩] := by
    decide
  exact not_usableOrNothing_of_unconnected hopen

end NrfExamples.BasicNetworking
