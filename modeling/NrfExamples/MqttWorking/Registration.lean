import NrfExamples.Library.Semaphore
import NrfExamples.Library.Trace

/-!
# Registration handshake

`modem_configure` against the link controller. The main thread initialises the modem library,
starts to connect, and takes `lte_connected`; the link controller calls `lte_handler` at any moment
once it knows the handler. A registration event gives the semaphore, whether or not
`modem_configure` is waiting for it, and nothing resets the semaphore: a token that an event of one
connection left there lets the next connection pass.
-/

namespace NrfExamples.MqttWorking

/-- `enum lte_lc_nw_reg_status`. -/
inductive NwRegStatus where
  | notRegistered
  | registeredHome
  | searching
  | registrationDenied
  | unknown
  | registeredRoaming
deriving DecidableEq

inductive RrcMode where
  | idle
  | connected
deriving DecidableEq

inductive LteLcEvt where
  | nwRegStatus (status : NwRegStatus)
  | rrcUpdate (mode : RrcMode)
  | other
deriving DecidableEq

namespace LteLcEvt

/-- The events at which `lte_handler` gives the semaphore. -/
def registered : LteLcEvt → Bool
  | .nwRegStatus status => !(status != .registeredHome && status != .registeredRoaming)
  | .rrcUpdate _ => false
  | .other => false

end LteLcEvt

/-- Where the main thread is in `modem_configure`. -/
inductive ConfigurePhase where
  /-- Not in a call; the last one, if any, gave the result. -/
  | outside (result : Option ℤ)
  /-- Before `lte_lc_connect_async`. -/
  | initialised
  /-- Before `k_sem_take`. -/
  | connecting
  /-- Blocked in `k_sem_take`. -/
  | waiting
deriving DecidableEq

structure Registration where
  phase : ConfigurePhase
  modemLib : Bool
  /-- The link controller knows `lte_handler`. -/
  handlerRegistered : Bool
  lteConnected : Semaphore 1
  /-- History: a registration event was delivered since the last `lte_lc_connect_async`. -/
  registeredSinceConnect : Bool

namespace Registration

inductive Event where
  /-- `modem_configure` is called, with the result that `nrf_modem_lib_init` gives an uninitialised
  library. -/
  | nrfModemLibInit (libInit : ℤ)
  | lteLcConnectAsync (result : ℤ)
  | kSemTake
  /-- The link controller calls `lte_handler`. -/
  | lteHandler (evt : LteLcEvt)
  | nrfModemLibShutdown
deriving DecidableEq

def boot : Registration where
  phase := .outside none
  modemLib := false
  handlerRegistered := false
  lteConnected := Semaphore.empty
  registeredSinceConnect := false

/-- `nrf_modem_lib_init` refuses an initialised library with `-NRF_EPERM`. -/
def libInitResult (libInit : ℤ) (state : Registration) : ℤ := if state.modemLib then -1 else libInit

def nrfModemLibInit (libInit : ℤ) (state : Registration) : Registration :=
  if libInitResult libInit state = 0 then { state with phase := .initialised, modemLib := true }
  else { state with phase := .outside (some (libInitResult libInit state)) }

def lteLcConnectAsync (result : ℤ) (state : Registration) : Registration :=
  { state with
    phase := if result = 0 then .connecting else .outside (some result)
    handlerRegistered := true
    registeredSinceConnect := false }

def kSemTake (state : Registration) : Registration :=
  match state.lteConnected.take with
  | some rest => { state with phase := .outside (some 0), lteConnected := rest }
  | none => { state with phase := .waiting }

/-- `k_sem_give` wakes the blocked thread, or else adds a token. -/
def kSemGive (state : Registration) : Registration :=
  match state.phase with
  -- The blocked thread takes the token at once, so the count stays zero.
  | .waiting => { state with phase := .outside (some 0) }
  | _ => { state with lteConnected := state.lteConnected.give }

def lteHandler (evt : LteLcEvt) (state : Registration) : Registration :=
  if evt.registered then { kSemGive state with registeredSinceConnect := true } else state

def step (state : Registration) (event : Event) : Option Registration :=
  match event, state.phase with
  | .nrfModemLibInit libInit, .outside _ => some (nrfModemLibInit libInit state)
  | .lteLcConnectAsync result, .initialised => some (lteLcConnectAsync result state)
  | .kSemTake, .connecting => some (kSemTake state)
  | .lteHandler evt, _ => if state.handlerRegistered then some (lteHandler evt state) else none
  | .nrfModemLibShutdown, .outside _ => some { state with modemLib := false }
  | _, _ => none

/-! ## Steps -/

variable {state next : Registration}

theorem step_nrfModemLibInit {libInit : ℤ} (h : step state (.nrfModemLibInit libInit) = some next) :
    (∃ result, state.phase = .outside result) ∧ next = nrfModemLibInit libInit state := by
  cases hphase : state.phase with
  | outside result =>
    simp only [step, hphase] at h
    exact ⟨⟨result, rfl⟩, (Option.some.inj h).symm⟩
  | initialised | connecting | waiting => simp [step, hphase] at h

theorem step_lteLcConnectAsync {result : ℤ}
    (h : step state (.lteLcConnectAsync result) = some next) :
    state.phase = .initialised ∧ next = lteLcConnectAsync result state := by
  cases hphase : state.phase with
  | initialised =>
    simp only [step, hphase] at h
    exact ⟨rfl, (Option.some.inj h).symm⟩
  | outside | connecting | waiting => simp [step, hphase] at h

theorem step_kSemTake (h : step state .kSemTake = some next) :
    state.phase = .connecting ∧ next = kSemTake state := by
  cases hphase : state.phase with
  | connecting =>
    simp only [step, hphase] at h
    exact ⟨rfl, (Option.some.inj h).symm⟩
  | outside | initialised | waiting => simp [step, hphase] at h

theorem step_lteHandler {evt : LteLcEvt} (h : step state (.lteHandler evt) = some next) :
    next = lteHandler evt state := by
  simp only [step] at h
  split at h
  · exact (Option.some.inj h).symm
  · cases h

theorem step_nrfModemLibShutdown (h : step state .nrfModemLibShutdown = some next) :
    next = { state with modemLib := false } := by
  cases hphase : state.phase with
  | outside =>
    simp only [step, hphase] at h
    exact (Option.some.inj h).symm
  | initialised | connecting | waiting => simp [step, hphase] at h

/-! ## Runs -/

/-- The step ends a call of `modem_configure` with result zero. -/
def Returns (state next : Registration) : Prop :=
  (∀ result, state.phase ≠ .outside result) ∧ next.phase = .outside (some 0)

/-- Where `modem_configure` returns zero, a registration event was delivered after its
`lte_lc_connect_async`. -/
def Handshake (state : Registration) (event : Event) : Prop :=
  ∀ next, step state event = some next → Returns state next → next.registeredSinceConnect = true

/-- An `lte_lc_connect_async` that succeeds finds the semaphore without a token. -/
def EmptyAtConnect (state : Registration) (event : Event) : Prop :=
  event = .lteLcConnectAsync 0 → state.phase = .initialised → state.lteConnected.count = 0

theorem phase_nrfModemLibInit_ne (libInit : ℤ) (state : Registration) :
    (nrfModemLibInit libInit state).phase ≠ .connecting := by
  unfold nrfModemLibInit
  split <;> simp

theorem phase_kSemTake_ne (state : Registration) : (kSemTake state).phase ≠ .connecting := by
  unfold kSemTake
  split <;> simp

instance (state : Registration) (event : Event) : Decidable (EmptyAtConnect state event) :=
  inferInstanceAs (Decidable (_ → _ → _))

/-- A token that `k_sem_take` will find was given after `lte_lc_connect_async`. -/
def TokenIsFresh (state : Registration) : Prop :=
  state.phase = .connecting → state.lteConnected.count ≠ 0 → state.registeredSinceConnect = true

theorem tokenIsFresh_lteHandler (evt : LteLcEvt) (hfresh : TokenIsFresh state) :
    TokenIsFresh (lteHandler evt state) := by
  unfold lteHandler
  split
  · exact fun _ _ ↦ rfl
  · exact hfresh

theorem tokenIsFresh_step (state : Registration) (event : Event) (next : Registration)
    (hfresh : TokenIsFresh state) (hempty : EmptyAtConnect state event)
    (hstep : step state event = some next) : TokenIsFresh next := by
  cases event with
  | nrfModemLibInit libInit =>
    rw [(step_nrfModemLibInit hstep).2]
    exact fun hphase ↦ absurd hphase (phase_nrfModemLibInit_ne libInit state)
  | lteLcConnectAsync result =>
    have hconnect := step_lteLcConnectAsync hstep
    rw [hconnect.2]
    by_cases hresult : result = 0
    · subst hresult
      exact fun _ htoken ↦ absurd (hempty rfl hconnect.1) htoken
    · intro hphase
      rw [lteLcConnectAsync, if_neg hresult] at hphase
      cases hphase
  | kSemTake =>
    rw [(step_kSemTake hstep).2]
    exact fun hphase ↦ absurd hphase (phase_kSemTake_ne state)
  | lteHandler evt =>
    rw [step_lteHandler hstep]
    exact tokenIsFresh_lteHandler evt hfresh
  | nrfModemLibShutdown =>
    rw [step_nrfModemLibShutdown hstep]
    exact hfresh

/-- Only `k_sem_take` and `lte_handler` let `modem_configure` return zero. -/
theorem handshake_of_fresh (state : Registration) (event : Event) (hfresh : TokenIsFresh state) :
    Handshake state event := by
  intro next hstep hreturns
  cases event with
  | nrfModemLibInit libInit =>
    obtain ⟨result, hphase⟩ := (step_nrfModemLibInit hstep).1
    exact absurd hphase (hreturns.1 result)
  | lteLcConnectAsync result =>
    have hphase := hreturns.2
    rw [(step_lteLcConnectAsync hstep).2, lteLcConnectAsync] at hphase
    split at hphase
    · cases hphase
    · next hresult =>
      cases hphase
      exact absurd rfl hresult
  | kSemTake =>
    have htake := step_kSemTake hstep
    have hphase := hreturns.2
    rw [htake.2] at hphase ⊢
    unfold kSemTake at hphase ⊢
    cases hrest : state.lteConnected.take with
    | none =>
      simp only [hrest] at hphase
      cases hphase
    | some rest =>
      apply hfresh htake.1
      intro hcount
      rw [(Semaphore.take_eq_none_iff _).mpr hcount] at hrest
      cases hrest
  | lteHandler evt =>
    rw [step_lteHandler hstep] at hreturns ⊢
    unfold lteHandler at hreturns ⊢
    split
    · rfl
    · next hother =>
      rw [if_neg hother] at hreturns
      exact absurd hreturns.2 (hreturns.1 _)
  | nrfModemLibShutdown =>
    rw [step_nrfModemLibShutdown hstep] at hreturns
    exact absurd hreturns.2 (hreturns.1 _)

/-- In every run whose `lte_lc_connect_async` calls find the semaphore empty, `modem_configure`
returns zero only behind a registration event of its own connection. -/
theorem handshake_along (events : List Event) (h : Trace.Along step EmptyAtConnect boot events) :
    Trace.Along step Handshake boot events :=
  Trace.along_of_along tokenIsFresh_step
    (fun state event hfresh _ ↦ handshake_of_fresh state event hfresh)
    (fun hphase ↦ nomatch hphase) h

/-- The steps of a call that takes a token it finds. -/
theorem not_handshake_kSemTake (hphase : state.phase = .connecting)
    (htoken : state.lteConnected.count ≠ 0) (hstale : state.registeredSinceConnect = false) :
    ¬ Handshake state .kSemTake := by
  intro hhandshake
  obtain ⟨rest, hrest⟩ := Semaphore.take_of_count_ne_zero htoken
  have htaken : kSemTake state =
      { state with phase := .outside (some 0), lteConnected := rest } := by
    simp only [kSemTake, hrest]
  have hstep : step state .kSemTake = some (kSemTake state) := by
    simp only [step, hphase]
  have hseen := hhandshake (kSemTake state) hstep
    ⟨fun result ↦ by rw [hphase]; exact ConfigurePhase.noConfusion, by rw [htaken]⟩
  rw [htaken, hstale] at hseen
  cases hseen

/-- The condition is exact: a run that meets a token at an `lte_lc_connect_async` has a beginning
from which an immediate `k_sem_take` returns without a registration event. -/
theorem exists_not_handshake {events : List Event}
    (h : ¬ Trace.Along step EmptyAtConnect boot events) :
    ∃ before, before <+: events ∧ ¬ Trace.Along step Handshake boot (before ++ [.kSemTake]) := by
  -- The beginning ends with the first call of `lte_lc_connect_async` that finds a token.
  obtain ⟨before, event, after, reached, rfl, hrun, hfails⟩ := Trace.exists_of_not_along h
  unfold EmptyAtConnect at hfails
  push Not at hfails
  obtain ⟨rfl, hphase, htoken⟩ := hfails
  have hconnect : Trace.run step boot (before ++ [.lteLcConnectAsync 0]) =
      some (lteLcConnectAsync 0 reached) := by
    rw [Trace.run_append, hrun]
    simp [step, hphase]
  have hconnecting : (lteLcConnectAsync 0 reached).phase = .connecting := rfl
  refine ⟨before ++ [.lteLcConnectAsync 0], ⟨after, by simp⟩, fun halong ↦ ?_⟩
  exact not_handshake_kSemTake hconnecting htoken rfl (halong.at_step hconnect)

/-! ## Two connections -/

/-- Two calls around a shutdown, with the registration events of the first connection. -/
def twoConnections (first : List LteLcEvt) (second : List LteLcEvt) : List Event :=
  [.nrfModemLibInit 0, .lteLcConnectAsync 0, .kSemTake] ++ first.map .lteHandler ++
    [.nrfModemLibShutdown, .nrfModemLibInit 0, .lteLcConnectAsync 0, .kSemTake] ++
      second.map .lteHandler

/-- One registration event a connection, home and then roaming. -/
theorem handshake_along_once : Trace.Along step Handshake boot
    (twoConnections [.nwRegStatus .registeredHome] [.nwRegStatus .registeredRoaming]) := by
  apply handshake_along
  decide

/-- A second registration event of the first connection lets the second call of `modem_configure`
return before the network registers. -/
theorem stale_token_passes : ¬ Trace.Along step Handshake boot (twoConnections
    [.nwRegStatus .registeredHome, .nwRegStatus .registeredHome] []) := by
  intro halong
  have hrun : Trace.run step boot ([.nrfModemLibInit 0, .lteLcConnectAsync 0, .kSemTake,
      .lteHandler (.nwRegStatus .registeredHome), .lteHandler (.nwRegStatus .registeredHome),
      .nrfModemLibShutdown, .nrfModemLibInit 0, .lteLcConnectAsync 0]) =
      some ⟨.connecting, true, true, ⟨1, le_rfl⟩, false⟩ := rfl
  exact not_handshake_kSemTake rfl one_ne_zero rfl (halong.at_step hrun)

end Registration

end NrfExamples.MqttWorking
