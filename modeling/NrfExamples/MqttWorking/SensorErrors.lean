import NrfExamples.MqttWorking.PressureBounds
import NrfExamples.MqttWorking.SensorTransfers

/-!
# Errors of the weather sensor

Both functions of the driver that the program calls keep the error of their transfers in a variable
and return zero. A fetch whose transfers fail compensates whatever its buffer holds, so it reports
the outcome exactly when it has nothing to report. The initialisation reports a wrong chip, but no
error behind it.
-/

namespace NrfExamples.MqttWorking.Bme280

open Memory StopOnError

/-! ## Fetching a sample -/

/-- The values that a fetch computes are the same. -/
def KeepsSample (before after : CustomBme280Data) : Prop :=
  after.tFine = before.tFine ∧ after.compTemp = before.compTemp ∧
    after.compPress = before.compPress ∧ after.compHumidity = before.compHumidity

/-- A fetch returns zero if all its transfers succeed. Otherwise it returns an error and keeps the
values. -/
def FetchReports (spi : Spi) (buf : List Byte) (data : CustomBme280Data) : Prop :=
  ∃ fuel returned, customBme280SampleFetch spi fuel buf data = some returned ∧
    (returned.value = 0 ↔ ∀ transfer ∈ returned.log, transfer.ok = true) ∧
    (returned.value ≠ 0 → KeepsSample data returned.data)

theorem isSome_compensate (data : CustomBme280Data) (buf : List Byte) :
    (compensate data buf).isSome = true := by
  rw [compensate, Option.isSome_map]
  exact isSome_compensatePress (bounded_tFine data _) _

/-- The read of the sample behind the polls. -/
def sampleLog (spi : Spi) (polls : ℕ) (ready : Bool) : List Transfer :=
  if ready then [⟨readRequest pressmsb 8, spi.succeeds (polls + 1)⟩] else []

/-- Whatever happens, a fetch stores values and returns zero. -/
theorem customBme280SampleFetch_of_pollsEnd {spi : Spi} {fuel polls : ℕ} {ready : Bool}
    (h : PollsEnd spi 0 polls ready) (hfuel : polls < fuel) (buf : List Byte)
    (data : CustomBme280Data) :
    ∃ next, customBme280SampleFetch spi fuel buf data =
      some ⟨pollLog polls ready ++ sampleLog spi polls ready, next, 0⟩ := by
  have hwait : bme280WaitUntilReady spi fuel [] =
      some ([] ++ pollLog polls ready, if ready then 0 else -eio) :=
    bme280WaitUntilReady_of_pollsEnd h hfuel
  have hstored (log : List Transfer) (buf : List Byte) :
      ∃ next, (compensate data buf).map (fun next ↦ Returned.mk log next 0) =
        some ⟨log, next, 0⟩ := by
    obtain ⟨next, hnext⟩ := Option.isSome_iff_exists.mp (isSome_compensate data buf)
    rw [hnext]
    exact ⟨next, rfl⟩
  unfold customBme280SampleFetch
  rw [hwait]
  cases ready with
  | false =>
    have hlog : pollLog polls false ++ sampleLog spi polls false = pollLog polls false :=
      List.append_nil _
    rw [hlog]
    exact hstored _ buf
  | true =>
    rw [sampleLog, if_pos rfl, ← length_pollLog polls true]
    cases hsuccess : spi.succeeds (pollLog polls true).length with
    | false =>
      simp only [Option.bind_some, List.nil_append, if_true,
        bme280RegRead_of_fails hsuccess]
      exact hstored _ _
    | true =>
      simp only [Option.bind_some, List.nil_append, if_true,
        bme280RegRead_of_succeeds hsuccess]
      exact hstored _ _

/-- The polls and the read of the sample all succeed. -/
theorem forall_sampleLog_iff {spi : Spi} {polls : ℕ} {ready : Bool} :
    (∀ transfer ∈ pollLog polls ready ++ sampleLog spi polls ready, transfer.ok = true) ↔
      ready = true ∧ spi.succeeds (polls + 1) = true := by
  rw [List.forall_mem_append, pollLog, List.forall_mem_append]
  cases ready with
  | false => simp
  | true => simp [sampleLog]

/-- A fetch reports its outcome exactly when nothing fails. -/
theorem fetchReports_iff {spi : Spi} {buf : List Byte} {data : CustomBme280Data} :
    FetchReports spi buf data ↔
      ∃ polls, PollsEnd spi 0 polls true ∧ spi.succeeds (polls + 1) = true := by
  constructor
  · rintro ⟨fuel, returned, hfetch, hreports, -⟩
    obtain ⟨waited, hwait, -⟩ := Option.bind_eq_some_iff.mp hfetch
    obtain ⟨polls, ready, hfuel, hend⟩ := exists_pollsEnd hwait
    obtain ⟨next, hnext⟩ := customBme280SampleFetch_of_pollsEnd hend hfuel buf data
    obtain rfl := Option.some.inj (hnext.symm.trans hfetch)
    obtain ⟨rfl, hsample⟩ := forall_sampleLog_iff.mp (hreports.mp rfl)
    exact ⟨polls, hend, hsample⟩
  · rintro ⟨polls, hend, hsample⟩
    obtain ⟨next, hnext⟩ :=
      customBme280SampleFetch_of_pollsEnd hend (Nat.lt_succ_self polls) buf data
    refine ⟨polls + 1, _, hnext, iff_of_true rfl ?_, fun hvalue ↦ absurd rfl hvalue⟩
    exact forall_sampleLog_iff.mpr ⟨rfl, hsample⟩

/-! ## Initialisation -/

/-- The requests behind the polls of the initialisation. -/
def setupRequests : List (List Byte) :=
  calibrationReads ++ [writeRequest ctrlhum 0x04] ++ [writeRequest ctrlmeas 0x93]

/-- The chip id matched, the whole calibration was read and both control registers were written. -/
def Configured (returned : Returned) : Prop :=
  (⟨readRequest regId 1, true⟩ ∈ returned.log ∧ returned.data.chipId = bme280ChipId) ∧
    ∀ request ∈ setupRequests, ⟨request, true⟩ ∈ returned.log

/-- An initialisation returns zero exactly if the sensor is configured. -/
def InitReports (spi : Spi) (data : CustomBme280Data) : Prop :=
  ∀ fuel returned, customBme280Init spi fuel data = some returned →
    (returned.value = 0 ↔ Configured returned)

/-- The chip id that the first transfer receives. -/
def receivedId (spi : Spi) : Byte := (received spi regId 1 0).getD 0 0

theorem transfer_mk_injective2 : Function.Injective2 Transfer.mk :=
  fun _ _ _ _ h ↦ Transfer.mk.inj h

theorem nodup_setupRequests : setupRequests.Nodup := by
  decide

theorem chipId_bme280ReadCompensation (spi : Spi) (data : CustomBme280Data)
    (log : List Transfer) : (bme280ReadCompensation spi data log).data.chipId = data.chipId := by
  unfold bme280ReadCompensation
  split
  · rfl
  · split
    · rfl
    · split <;> rfl

theorem data_writeIfNoError (spi : Spi) (reg value : Byte) (state : Returned) :
    (writeIfNoError spi reg value state).data = state.data := by
  unfold writeIfNoError
  split <;> rfl

theorem chipId_configure (spi : Spi) (data : CustomBme280Data) (waited : List Transfer × ℤ) :
    (configure spi data waited).data.chipId = data.chipId := by
  unfold configure
  rw [data_writeIfNoError, data_writeIfNoError]
  split
  · exact chipId_bme280ReadCompensation spi data waited.1
  · rfl

/-- Behind a sensor that is ready the requests follow up to the first failure. -/
theorem follows_configure (spi : Spi) (data : CustomBme280Data) (log : List Transfer) :
    Follows spi log setupRequests (configure spi data (log, 0)) :=
  ((follows_bme280ReadCompensation spi data log).write ctrlhum 0x04).write ctrlmeas 0x93

/-- Behind a failed poll nothing follows. -/
theorem log_configure_of_error (spi : Spi) (data : CustomBme280Data) (log : List Transfer) {err : ℤ}
    (h : err ≠ 0) : (configure spi data (log, err)).log = log := by
  simp only [configure, writeIfNoError, if_neg h]

/-- The transfers in front of the requests. -/
def idLog (polls : ℕ) (ready : Bool) : List Transfer :=
  ⟨readRequest regId 1, true⟩ :: pollLog polls ready

theorem length_idLog (polls : ℕ) (ready : Bool) : (idLog polls ready).length = 2 + polls := by
  rw [idLog, List.length_cons, length_pollLog, Nat.add_comm 2]

theorem not_mem_idLog {polls : ℕ} {ready ok : Bool} {request : List Byte}
    (h : request ∈ setupRequests) : ⟨request, ok⟩ ∉ idLog polls ready := by
  have hother : ∀ request ∈ setupRequests,
      request ≠ readRequest regId 1 ∧ request ≠ readRequest regStatus 1 := by
    decide
  obtain ⟨hid, hstatus⟩ := hother request h
  simp [idLog, pollLog, hid, hstatus]

/-- Behind a matching chip id the sensor is waited for and configured. -/
theorem customBme280Init_of_matching {spi : Spi} (fuel : ℕ) (data : CustomBme280Data)
    (hsuccess : spi.succeeds 0 = true) (hid : receivedId spi = bme280ChipId) :
    customBme280Init spi fuel data =
      (bme280WaitUntilReady spi fuel [⟨readRequest regId 1, true⟩]).map fun waited ↦
        { configure spi { data with chipId := receivedId spi } waited with value := 0 } := by
  have hread : bme280RegRead spi regId 1 [] =
      ([⟨readRequest regId 1, true⟩], .ok (received spi regId 1 0)) :=
    bme280RegRead_of_succeeds hsuccess
  have hmatch : ¬ (received spi regId 1 0).getD 0 0 ≠ bme280ChipId := not_not.mpr hid
  unfold customBme280Init
  rw [hread]
  exact if_neg hmatch

theorem customBme280Init_of_pollsEnd {spi : Spi} {fuel polls : ℕ} {ready : Bool}
    (data : CustomBme280Data) (hsuccess : spi.succeeds 0 = true)
    (hid : receivedId spi = bme280ChipId) (h : PollsEnd spi 1 polls ready) (hfuel : polls < fuel) :
    customBme280Init spi fuel data =
      some { configure spi { data with chipId := receivedId spi }
        (idLog polls ready, if ready then 0 else -eio) with value := 0 } := by
  have hwait : bme280WaitUntilReady spi fuel [⟨readRequest regId 1, true⟩] =
      some (idLog polls ready, if ready then 0 else -eio) :=
    bme280WaitUntilReady_of_pollsEnd h hfuel
  rw [customBme280Init_of_matching fuel data hsuccess hid, hwait]
  rfl

/-- A sensor that is not accepted gets no other request. -/
theorem initReports_of_refused {spi : Spi}
    (h : spi.succeeds 0 = false ∨ receivedId spi ≠ bme280ChipId) (data : CustomBme280Data) :
    InitReports spi data := by
  intro fuel returned hinit
  have herror : ¬ (-enotsup) = 0 := by decide
  unfold customBme280Init at hinit
  cases hsuccess : spi.succeeds 0 with
  | false =>
    have hread : bme280RegRead spi regId 1 [] =
        ([⟨readRequest regId 1, false⟩], .error (-eio)) :=
      bme280RegRead_of_fails hsuccess
    rw [hread] at hinit
    obtain rfl := Option.some.inj hinit
    refine iff_of_false herror fun hconfigured ↦ ?_
    cases List.mem_singleton.mp hconfigured.1.1
  | true =>
    have hread : bme280RegRead spi regId 1 [] =
        ([⟨readRequest regId 1, true⟩], .ok (received spi regId 1 0)) :=
      bme280RegRead_of_succeeds hsuccess
    have hother : (received spi regId 1 0).getD 0 0 ≠ bme280ChipId :=
      h.resolve_left (by rw [hsuccess]; decide)
    rw [hread] at hinit
    dsimp only at hinit
    rw [if_pos hother] at hinit
    obtain rfl := Option.some.inj hinit
    exact iff_of_false herror fun hconfigured ↦ hother hconfigured.1.2

/-- A failed poll leaves the sensor as it is. -/
theorem not_configured_of_error (spi : Spi) (data : CustomBme280Data) (polls : ℕ) :
    ¬ Configured { configure spi data (idLog polls false, -eio) with value := 0 } := by
  intro hconfigured
  have hwritten : ⟨writeRequest ctrlmeas 0x93, true⟩ ∈
      (configure spi data (idLog polls false, -eio)).log :=
    hconfigured.2 (writeRequest ctrlmeas 0x93) (by decide)
  rw [log_configure_of_error spi data (idLog polls false) (by decide)] at hwritten
  exact not_mem_idLog (by decide) hwritten

/-- Each request is logged where the chain of the requests logs it. -/
theorem mem_log_configure_iff (spi : Spi) (data : CustomBme280Data) (polls : ℕ)
    {request : List Byte} (h : request ∈ setupRequests) :
    ⟨request, true⟩ ∈ (configure spi data (idLog polls true, 0)).log ↔
      ⟨request, true⟩ ∈ taken Transfer.mk spi.succeeds (2 + polls) setupRequests := by
  rw [(follows_configure spi data (idLog polls true)).log_eq, List.mem_append, length_idLog]
  exact or_iff_right (not_mem_idLog h)

/-- With a sensor that is ready the requests decide. -/
theorem configured_iff_of_ready {spi : Spi} {data : CustomBme280Data} (polls : ℕ)
    (hid : data.chipId = bme280ChipId) :
    Configured { configure spi data (idLog polls true, 0) with value := 0 } ↔
      AllSucceed spi.succeeds (2 + polls) 5 := by
  have hidentified : ⟨readRequest regId 1, true⟩ ∈
        (configure spi data (idLog polls true, 0)).log ∧
      (configure spi data (idLog polls true, 0)).data.chipId = bme280ChipId := by
    rw [(follows_configure spi data (idLog polls true)).log_eq, chipId_configure]
    exact ⟨List.mem_append_left _ List.mem_cons_self, hid⟩
  calc
    _ ↔ ∀ request ∈ setupRequests,
        ⟨request, true⟩ ∈ (configure spi data (idLog polls true, 0)).log :=
      and_iff_right hidentified
    _ ↔ ∀ request ∈ setupRequests,
        ⟨request, true⟩ ∈ taken Transfer.mk spi.succeeds (2 + polls) setupRequests :=
      forall₂_congr fun _ ↦ mem_log_configure_iff spi data polls
    _ ↔ AllSucceed spi.succeeds (2 + polls) 5 :=
      forall_mem_taken_iff Transfer.mk transfer_mk_injective2 nodup_setupRequests

/-- The sensor is configured exactly when it becomes ready and the requests succeed. -/
theorem configured_iff {spi : Spi} {polls : ℕ} {ready : Bool} {data : CustomBme280Data}
    (hid : data.chipId = bme280ChipId) :
    Configured { configure spi data (idLog polls ready, if ready then 0 else -eio) with
        value := 0 } ↔
      ready = true ∧ AllSucceed spi.succeeds (2 + polls) 5 := by
  cases ready with
  | false =>
    exact iff_of_false (not_configured_of_error spi data polls)
      fun h ↦ Bool.false_ne_true h.1
  | true => exact (configured_iff_of_ready polls hid).trans (and_iff_right rfl).symm

/-- An initialisation reports its outcome exactly when nothing fails behind the chip id. -/
theorem initReports_iff {spi : Spi} {data : CustomBme280Data} :
    InitReports spi data ↔
      spi.succeeds 0 = false ∨ receivedId spi ≠ bme280ChipId ∨
        ∀ polls ready, PollsEnd spi 1 polls ready →
          ready = true ∧ AllSucceed spi.succeeds (2 + polls) 5 := by
  by_cases hrefused : spi.succeeds 0 = false ∨ receivedId spi ≠ bme280ChipId
  · exact iff_of_true (initReports_of_refused hrefused data) (or_assoc.mp (.inl hrefused))
  · rw [← or_assoc, or_iff_right hrefused]
    obtain ⟨hsuccess, hid⟩ := not_or.mp hrefused
    rw [Bool.not_eq_false] at hsuccess
    rw [not_ne_iff] at hid
    constructor
    · intro hreports polls ready hend
      have hinit := customBme280Init_of_pollsEnd data hsuccess hid hend (Nat.lt_succ_self polls)
      exact (configured_iff hid).mp ((hreports _ _ hinit).mp rfl)
    · intro hall fuel returned hinit
      have hwaited := hinit
      rw [customBme280Init_of_matching fuel data hsuccess hid] at hwaited
      obtain ⟨waited, hwait, -⟩ := Option.map_eq_some_iff.mp hwaited
      obtain ⟨polls, ready, hfuel, hend⟩ := exists_pollsEnd hwait
      rw [customBme280Init_of_pollsEnd data hsuccess hid hend hfuel] at hinit
      obtain rfl := Option.some.inj hinit
      exact iff_of_true rfl ((configured_iff hid).mpr (hall polls ready hend))

/-! ## Both functions -/

/-- A fetch reports its outcome exactly when the polls end with a sensor that is ready and the read
of the sample succeeds, and an initialisation exactly when the chip id stops it or nothing fails
behind it. -/
theorem sensorErrors_reported_iff (spi : Spi) (buf : List Byte) (data : CustomBme280Data) :
    (FetchReports spi buf data ↔
      ∃ polls, PollsEnd spi 0 polls true ∧ spi.succeeds (polls + 1) = true) ∧
    (InitReports spi data ↔
      spi.succeeds 0 = false ∨ receivedId spi ≠ bme280ChipId ∨
        ∀ polls ready, PollsEnd spi 1 polls ready →
          ready = true ∧ AllSucceed spi.succeeds (2 + polls) 5) :=
  ⟨fetchReports_iff, initReports_iff⟩

/-- The first transfers succeed and receive the chip id. -/
def failsFrom (number : ℕ) : Spi where
  succeeds transfer := decide (transfer < number)
  receive _ _ _ := bme280ChipId

/-- No error is reported where the first poll fails. -/
theorem not_sensorErrors_reported :
    ¬ FetchReports (failsFrom 0) [0x80, 0, 0, 0x80, 0, 0, 0x80, 0] default ∧
      ¬ InitReports (failsFrom 1) default := by
  constructor
  · intro h
    obtain ⟨polls, hend, -⟩ := fetchReports_iff.mp h
    exact absurd hend.last_succeeds (by simp [failsFrom])
  · intro h
    have hend : PollsEnd (failsFrom 1) 1 0 false :=
      pollsEnd_zero_iff.mpr ⟨rfl, fun hready ↦ absurd hready Bool.false_ne_true⟩
    obtain hfail | hother | hall := initReports_iff.mp h
    · exact absurd hfail (by decide)
    · exact absurd rfl hother
    · exact absurd (hall 0 false hend).1 Bool.false_ne_true

end NrfExamples.MqttWorking.Bme280
