import NrfExamples.Library.StopOnError
import NrfExamples.MqttWorking.Bme280

/-!
# The transfers of the weather sensor

What the driver issues for given outcomes: a read, the polls of the status register and the chains
of requests that stop at the first failure. A state that `Follows` a list of requests has logged
them up to the first failure and shows in its value whether there was one; every step of the
initialisation adds its request to the list.
-/

namespace NrfExamples.MqttWorking.Bme280

open Memory StopOnError Word

/-! ## One read -/

theorem bme280RegRead_of_succeeds {spi : Spi} {reg : Byte} {size : ℕ} {log : List Transfer}
    (h : spi.succeeds log.length = true) :
    bme280RegRead spi reg size log =
      (log ++ [⟨readRequest reg size, true⟩], .ok (received spi reg size log.length)) := by
  rw [bme280RegRead, h, if_pos rfl]

theorem bme280RegRead_of_fails {spi : Spi} {reg : Byte} {size : ℕ} {log : List Transfer}
    (h : spi.succeeds log.length = false) :
    bme280RegRead spi reg size log =
      (log ++ [⟨readRequest reg size, false⟩], .error (-eio)) := by
  rw [bme280RegRead, h, if_neg (by decide)]

theorem bme280RegRead_eq_error {spi : Spi} {reg : Byte} {size : ℕ} {log last : List Transfer}
    {err : ℤ} (h : bme280RegRead spi reg size log = (last, .error err)) :
    spi.succeeds log.length = false ∧ last = log ++ [⟨readRequest reg size, false⟩] ∧ err ≠ 0 := by
  cases hsuccess : spi.succeeds log.length with
  | true =>
    rw [bme280RegRead_of_succeeds hsuccess] at h
    cases congrArg Prod.snd h
  | false =>
    rw [bme280RegRead_of_fails hsuccess] at h
    obtain ⟨rfl, herr⟩ := Prod.mk.inj h
    refine ⟨rfl, rfl, ?_⟩
    rw [← Except.error.inj herr]
    decide

theorem bme280RegRead_eq_ok {spi : Spi} {reg : Byte} {size : ℕ} {log last : List Transfer}
    {bytes : List Byte} (h : bme280RegRead spi reg size log = (last, .ok bytes)) :
    spi.succeeds log.length = true ∧ last = log ++ [⟨readRequest reg size, true⟩] := by
  cases hsuccess : spi.succeeds log.length with
  | true =>
    rw [bme280RegRead_of_succeeds hsuccess] at h
    exact ⟨rfl, (congrArg Prod.fst h).symm⟩
  | false =>
    rw [bme280RegRead_of_fails hsuccess] at h
    cases congrArg Prod.snd h

/-! ## The polls of the status register -/

/-- The status that a transfer receives shows a measurement or an update. -/
def Busy (spi : Spi) (number : ℕ) : Prop :=
  (received spi regStatus 1 number).getD 0 0 &&& (statusMeasuring ||| statusImUpdate) ≠ 0

/-- The polls from a transfer on find the sensor busy until the last one, which finds it ready or
fails. -/
structure PollsEnd (spi : Spi) (start polls : ℕ) (ready : Bool) : Prop where
  busy : ∀ poll < polls, spi.succeeds (start + poll) = true ∧ Busy spi (start + poll)
  last_succeeds : spi.succeeds (start + polls) = ready
  last_ready : ready = true → ¬ Busy spi (start + polls)

theorem pollsEnd_zero_iff {spi : Spi} {start : ℕ} {ready : Bool} :
    PollsEnd spi start 0 ready ↔
      spi.succeeds start = ready ∧ (ready = true → ¬ Busy spi start) := by
  constructor
  · intro h
    exact ⟨h.last_succeeds, h.last_ready⟩
  · rintro ⟨hlast, hready⟩
    exact ⟨fun poll hpoll ↦ absurd hpoll (Nat.not_lt_zero poll), hlast, hready⟩

theorem pollsEnd_succ_iff {spi : Spi} {start polls : ℕ} {ready : Bool} :
    PollsEnd spi start (polls + 1) ready ↔
      (spi.succeeds start = true ∧ Busy spi start) ∧ PollsEnd spi (start + 1) polls ready := by
  have hshift (poll : ℕ) : start + (poll + 1) = start + 1 + poll := by omega
  constructor
  · rintro ⟨hbusy, hlast, hready⟩
    rw [hshift] at hlast hready
    refine ⟨hbusy 0 (Nat.succ_pos polls), fun poll hpoll ↦ ?_, hlast, hready⟩
    rw [← hshift]
    exact hbusy (poll + 1) (Nat.succ_lt_succ hpoll)
  · rintro ⟨hfirst, hbusy, hlast, hready⟩
    rw [← hshift] at hlast hready
    refine ⟨fun poll hpoll ↦ ?_, hlast, hready⟩
    cases poll with
    | zero => exact hfirst
    | succ poll =>
      rw [hshift]
      exact hbusy poll (Nat.lt_of_succ_lt_succ hpoll)

/-- The transfers of the polls. -/
def pollLog (polls : ℕ) (ready : Bool) : List Transfer :=
  List.replicate polls ⟨readRequest regStatus 1, true⟩ ++ [⟨readRequest regStatus 1, ready⟩]

theorem length_pollLog (polls : ℕ) (ready : Bool) : (pollLog polls ready).length = polls + 1 := by
  rw [pollLog, List.length_append, List.length_replicate, List.length_singleton]

theorem bme280WaitUntilReady_of_busy {spi : Spi} {log : List Transfer} (fuel : ℕ)
    (hsuccess : spi.succeeds log.length = true) (hbusy : Busy spi log.length) :
    bme280WaitUntilReady spi (fuel + 1) log =
      bme280WaitUntilReady spi fuel (log ++ [⟨readRequest regStatus 1, true⟩]) := by
  rw [bme280WaitUntilReady, bme280RegRead_of_succeeds hsuccess]
  exact if_pos hbusy

/-- With enough fuel the loop returns at the last poll. -/
theorem bme280WaitUntilReady_of_pollsEnd {spi : Spi} {fuel polls : ℕ} {ready : Bool}
    {log : List Transfer} (h : PollsEnd spi log.length polls ready) (hfuel : polls < fuel) :
    bme280WaitUntilReady spi fuel log =
      some (log ++ pollLog polls ready, if ready then 0 else -eio) := by
  induction fuel generalizing polls log with
  | zero => exact absurd hfuel (Nat.not_lt_zero polls)
  | succ fuel ih =>
    cases polls with
    | zero =>
      obtain ⟨hlast, hready⟩ := pollsEnd_zero_iff.mp h
      rw [bme280WaitUntilReady]
      cases ready with
      | false =>
        rw [bme280RegRead_of_fails hlast]
        rfl
      | true =>
        rw [bme280RegRead_of_succeeds hlast]
        exact if_neg (hready rfl)
    | succ polls =>
      obtain ⟨⟨hsuccess, hbusy⟩, hrest⟩ := pollsEnd_succ_iff.mp h
      have hnext (transfer : Transfer) :
          PollsEnd spi (log ++ [transfer]).length polls ready := by
        rw [List.length_append]
        exact hrest
      rw [bme280WaitUntilReady_of_busy fuel hsuccess hbusy,
        ih (hnext _) (Nat.lt_of_succ_lt_succ hfuel), List.append_assoc]
      rfl

/-- A loop that returns has come to its last poll. -/
theorem exists_pollsEnd {spi : Spi} {fuel : ℕ} {log : List Transfer} {waited : List Transfer × ℤ}
    (h : bme280WaitUntilReady spi fuel log = some waited) :
    ∃ polls ready, polls < fuel ∧ PollsEnd spi log.length polls ready := by
  induction fuel generalizing log with
  | zero => exact absurd h (Option.some_ne_none waited).symm
  | succ fuel ih =>
    cases hsuccess : spi.succeeds log.length with
    | false =>
      have hend := pollsEnd_zero_iff.mpr ⟨hsuccess, fun hready ↦ absurd hready Bool.false_ne_true⟩
      exact ⟨0, false, Nat.succ_pos fuel, hend⟩
    | true =>
      by_cases hbusy : Busy spi log.length
      · rw [bme280WaitUntilReady_of_busy fuel hsuccess hbusy] at h
        obtain ⟨polls, ready, hpolls, hrest⟩ := ih h
        rw [List.length_append] at hrest
        exact ⟨polls + 1, ready, Nat.succ_lt_succ hpolls,
          pollsEnd_succ_iff.mpr ⟨⟨hsuccess, hbusy⟩, hrest⟩⟩
      · exact ⟨0, true, Nat.succ_pos fuel, pollsEnd_zero_iff.mpr ⟨hsuccess, fun _ ↦ hbusy⟩⟩

/-! ## Chains of requests -/

/-- The requests issued behind a log stop at the first failure, which the value shows. -/
structure Follows (spi : Spi) (log : List Transfer) (requests : List (List Byte))
    (state : Returned) : Prop where
  log_eq : state.log = log ++ taken Transfer.mk spi.succeeds log.length requests
  value_eq_zero_iff : state.value = 0 ↔ AllSucceed spi.succeeds log.length requests.length

namespace Follows

variable {spi : Spi} {log : List Transfer} {requests : List (List Byte)}

theorem nil (spi : Spi) (log : List Transfer) (data : CustomBme280Data) :
    Follows spi log [] ⟨log, data, 0⟩ :=
  ⟨(List.append_nil log).symm, iff_of_true rfl allSucceed_zero⟩

/-- Nothing is issued behind an error. -/
theorem stopped {state : Returned} (h : Follows spi log requests state) (hvalue : state.value ≠ 0)
    (more : List (List Byte)) : Follows spi log (requests ++ more) state := by
  have hfail : ¬ AllSucceed spi.succeeds log.length requests.length :=
    mt h.value_eq_zero_iff.mpr hvalue
  constructor
  · rw [taken_append_of_fail Transfer.mk hfail]
    exact h.log_eq
  · rw [List.length_append]
    exact iff_of_false hvalue fun hall ↦
      hfail fun step hstep ↦ hall step (Nat.lt_add_right _ hstep)

/-- One more transfer, with its outcome as the value. -/
theorem step {state : Returned} (h : Follows spi log requests state) (hvalue : state.value = 0)
    (request : List Byte) (data : CustomBme280Data) {value : ℤ}
    (hnext : value = 0 ↔ spi.succeeds state.log.length = true) :
    Follows spi log (requests ++ [request])
      ⟨state.log ++ [⟨request, spi.succeeds state.log.length⟩], data, value⟩ := by
  have hall := h.value_eq_zero_iff.mp hvalue
  have hlength : state.log.length = log.length + requests.length := by
    rw [h.log_eq, List.length_append, length_taken Transfer.mk hall]
  constructor
  · rw [taken_append_of_succeed Transfer.mk hall, taken_singleton, hlength, h.log_eq,
      List.append_assoc]
  · rw [List.length_append, List.length_singleton, allSucceed_succ, ← hlength]
    exact hnext.trans (and_iff_right hall).symm

theorem read_ok {data : CustomBme280Data} {current last : List Transfer} {reg : Byte} {size : ℕ}
    {bytes : List Byte} (h : Follows spi log requests ⟨current, data, 0⟩)
    (hread : bme280RegRead spi reg size current = (last, .ok bytes)) (next : CustomBme280Data) :
    Follows spi log (requests ++ [readRequest reg size]) ⟨last, next, 0⟩ := by
  obtain ⟨hsuccess, rfl⟩ := bme280RegRead_eq_ok hread
  have hstep := h.step rfl (readRequest reg size) next (iff_of_true rfl hsuccess)
  rw [hsuccess] at hstep
  exact hstep

theorem read_error {data next : CustomBme280Data} {current last : List Transfer} {reg : Byte}
    {size : ℕ} {err : ℤ} (h : Follows spi log requests ⟨current, data, 0⟩)
    (hread : bme280RegRead spi reg size current = (last, .error err))
    (more : List (List Byte)) :
    Follows spi log (requests ++ [readRequest reg size] ++ more) ⟨last, next, err⟩ := by
  obtain ⟨hfail, rfl, herr⟩ := bme280RegRead_eq_error hread
  have hnot : ¬ spi.succeeds current.length = true := Bool.eq_false_iff.mp hfail
  have hstep := h.step rfl (readRequest reg size) next (iff_of_false herr hnot)
  rw [hfail] at hstep
  exact hstep.stopped herr more

theorem write {state : Returned} (h : Follows spi log requests state) (reg value : Byte) :
    Follows spi log (requests ++ [writeRequest reg value])
      (writeIfNoError spi reg value state) := by
  by_cases hvalue : state.value = 0
  · rw [writeIfNoError, if_pos hvalue]
    refine h.step hvalue (writeRequest reg value) state.data ?_
    have herror : ¬ (-eio) = 0 := by decide
    unfold bme280RegWrite
    split
    · next hsuccess => exact iff_of_true rfl hsuccess
    · next hfail => exact iff_of_false herror hfail
  · rw [writeIfNoError, if_neg hvalue]
    exact h.stopped hvalue [writeRequest reg value]

end Follows

/-! ## The calibration -/

/-- The data that three successful reads leave. -/
def calibrated (spi : Spi) (data : CustomBme280Data) (number : ℕ) : CustomBme280Data :=
  storeCalib26
    (storeCalib24 (storeCalib00 data (received spi calib00 24 number))
      (received spi calib24 1 (number + 1)))
    (received spi calib26 7 (number + 2))

/-- The requests of the calibration. -/
def calibrationReads : List (List Byte) :=
  [readRequest calib00 24, readRequest calib24 1, readRequest calib26 7]

theorem follows_bme280ReadCompensation (spi : Spi) (data : CustomBme280Data)
    (log : List Transfer) :
    Follows spi log calibrationReads (bme280ReadCompensation spi data log) := by
  unfold bme280ReadCompensation
  have hstart := Follows.nil spi log data
  split
  · next hread => exact hstart.read_error hread [readRequest calib24 1, readRequest calib26 7]
  · next hread =>
    have hfirst := hstart.read_ok hread data
    split
    · next hread => exact hfirst.read_error hread [readRequest calib26 7]
    · next hread =>
      have hsecond := hfirst.read_ok hread data
      split
      · next hread => exact hsecond.read_error hread []
      · next hread => exact hsecond.read_ok hread _

/-- Successful reads store what they receive. -/
theorem data_bme280ReadCompensation {spi : Spi} {data : CustomBme280Data} {log : List Transfer}
    (h : (bme280ReadCompensation spi data log).value = 0) :
    (bme280ReadCompensation spi data log).data = calibrated spi data log.length := by
  have hall := (follows_bme280ReadCompensation spi data log).value_eq_zero_iff.mp h
  have hsecond (first : Transfer) : spi.succeeds (log ++ [first]).length = true := by
    rw [List.length_append]
    exact hall 1 (by decide)
  have hthird (first second : Transfer) :
      spi.succeeds (log ++ [first] ++ [second]).length = true := by
    rw [List.length_append, List.length_append]
    exact hall 2 (by decide)
  simp only [bme280ReadCompensation, bme280RegRead_of_succeeds (hall 0 (by decide)),
    bme280RegRead_of_succeeds (hsecond _), bme280RegRead_of_succeeds (hthird _ _)]
  simp only [calibrated, List.length_append, List.length_singleton]

end NrfExamples.MqttWorking.Bme280
