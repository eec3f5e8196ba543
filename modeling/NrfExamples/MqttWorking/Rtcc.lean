import NrfExamples.Library.ReferenceClock
import NrfExamples.Library.Trace

/-!
# The software clock

`rtcc_init`, `rtcc_update_unix_time`, `rtcc_get_unix_time` and `modem_get_time_procedure`: the unit
keeps the network time of the last successful query with the uptime at which it stored it, and
counts the uptime since. The network time is `offset + uptime` in milliseconds; a successful
`date_time_now` returns it, and some time passes before it is stored.
-/

namespace NrfExamples.MqttWorking

open ReferenceClock Trace

/-- The static variables of the clock. -/
structure Rtcc where
  rtccBaseUnixTimeS : UInt32
  rtccBaseUptimeMs : ℤ
  rtccTimeValid : Bool
  recordUnixTimeS : UInt32

def rtccInit (uptime : ℤ) : Rtcc where
  rtccBaseUnixTimeS := 0
  rtccBaseUptimeMs := uptime
  rtccTimeValid := false
  recordUnixTimeS := 0

def rtccUpdateUnixTime (unixTimeS : UInt32) (uptime : ℤ) : Rtcc where
  rtccBaseUnixTimeS := unixTimeS
  rtccBaseUptimeMs := uptime
  rtccTimeValid := true
  recordUnixTimeS := unixTimeS

/-- The time read and the variables behind the call. -/
def rtccGetUnixTime (uptime : ℤ) (rtcc : Rtcc) : UInt32 × Rtcc :=
  if rtcc.rtccTimeValid then
    let elapsedMs := uptime - rtcc.rtccBaseUptimeMs
    let recordUnixTimeS := rtcc.rtccBaseUnixTimeS + UInt32.ofInt (elapsedMs.tdiv 1000)
    (recordUnixTimeS, { rtcc with recordUnixTimeS := recordUnixTimeS })
  else (rtcc.recordUnixTimeS, rtcc)

/-- One query of the network time. -/
structure TimeQuery where
  /-- The milliseconds that `date_time_now` stores, if it succeeds. -/
  unixTimeMs : Option ℤ
  /-- The uptime at which `date_time_now` computes them. -/
  queriedAt : ℤ
  /-- The uptime that `rtcc_update_unix_time` reads. -/
  storedAt : ℤ

def modemGetTimeProcedure (query : TimeQuery) (rtcc : Rtcc) : Rtcc :=
  match query.unixTimeMs with
  | none => rtcc
  | some unixTimeMs => rtccUpdateUnixTime (UInt32.ofInt (unixTimeMs.tdiv 1000)) query.storedAt

/-! ## Runs of the clock -/

/-- The clock and the uptime of its last call. -/
structure ClockState where
  rtcc : Rtcc
  uptime : ℤ

inductive ClockCall where
  | modemGetTime (query : TimeQuery)
  | getUnixTime (uptime : ℤ)

namespace ClockState

def start (uptime : ℤ) : ClockState := ⟨rtccInit uptime, uptime⟩

/-- The uptime does not go back. -/
def step (s : ClockState) : ClockCall → Option ClockState
  | .modemGetTime query =>
      if s.uptime ≤ query.queriedAt ∧ query.queriedAt ≤ query.storedAt then
        some ⟨modemGetTimeProcedure query s.rtcc, query.storedAt⟩
      else none
  | .getUnixTime uptime =>
      if s.uptime ≤ uptime then some ⟨(rtccGetUnixTime uptime s.rtcc).2, uptime⟩ else none

end ClockState

/-- A successful query returns the network time and is stored within `delay`. -/
def TimeQuery.Reports (offset delay : ℤ) (query : TimeQuery) : Prop :=
  ∀ unixTimeMs, query.unixTimeMs = some unixTimeMs →
    unixTimeMs = offset + query.queriedAt ∧ query.storedAt ≤ query.queriedAt + delay

def ClockCall.Reports (offset delay : ℤ) : ClockCall → Prop
  | .modemGetTime query => query.Reports offset delay
  | .getUnixTime _ => True

/-- A query that succeeds. -/
def ClockCall.Compares : ClockCall → Prop
  | .modemGetTime query => query.unixTimeMs.isSome = true
  | .getUnixTime _ => False

/-! ## A clock that was compared -/

/-- The base was the network time up to `delay`, at most `uptime` ago. -/
structure Rtcc.Compared (offset delay uptime : ℤ) (rtcc : Rtcc) (compared : ℤ) : Prop where
  valid : rtcc.rtccTimeValid = true
  base_eq : rtcc.rtccBaseUnixTimeS = UInt32.ofInt (compared / 1000)
  base_le : rtcc.rtccBaseUptimeMs ≤ uptime
  compared_nonneg : 0 ≤ compared
  compared_le : compared ≤ offset + rtcc.rtccBaseUptimeMs
  le_compared : offset + rtcc.rtccBaseUptimeMs ≤ compared + delay

variable {offset delay uptime : ℤ} {rtcc : Rtcc}

theorem toNat_ofInt {value : ℤ} (hnonneg : 0 ≤ value) (hlt : value < 2 ^ 32) :
    ((UInt32.ofInt value).toNat : ℤ) = value := by
  rw [UInt32.ofInt, Int.emod_eq_of_lt hnonneg hlt, UInt32.toNat_ofNat_of_lt' (by
    rw [Int.toNat_lt hnonneg]
    exact hlt)]
  exact Int.toNat_of_nonneg hnonneg

theorem rtccGetUnixTime_of_valid (hvalid : rtcc.rtccTimeValid = true) (uptime : ℤ) :
    (rtccGetUnixTime uptime rtcc).1 = rtcc.rtccBaseUnixTimeS +
      UInt32.ofInt ((uptime - rtcc.rtccBaseUptimeMs).tdiv 1000) := by
  rw [rtccGetUnixTime, if_pos hvalid]

namespace Rtcc.Compared

variable {compared : ℤ}

theorem later (h : Compared offset delay uptime rtcc compared) {now : ℤ} (hle : uptime ≤ now) :
    Compared offset delay now rtcc compared :=
  { h with base_le := h.base_le.trans hle }

/-- A compared clock counts the seconds of the network time in range. -/
theorem reading_eq (h : Compared offset delay uptime rtcc compared)
    (hrange : offset + uptime < 2 ^ 32 * 1000) :
    ((rtccGetUnixTime uptime rtcc).1.toNat : ℤ) =
      counted 1000 compared (uptime - rtcc.rtccBaseUptimeMs) := by
  have hpassed : 0 ≤ uptime - rtcc.rtccBaseUptimeMs := Int.sub_nonneg_of_le h.base_le
  have hle := h.compared_le
  have hnonneg := h.compared_nonneg
  rw [rtccGetUnixTime_of_valid h.valid, h.base_eq, ← UInt32.ofInt_add,
    Int.tdiv_eq_ediv_of_nonneg hpassed, toNat_ofInt (by omega) (by omega), counted]

theorem follows (h : Compared offset delay uptime rtcc compared)
    (hrange : offset + uptime < 2 ^ 32 * 1000) :
    Follows 1000 (1998 + delay) (offset + uptime) (rtccGetUnixTime uptime rtcc).1.toNat := by
  have hcompared : Follows 1000 (2 * (1000 - 1) + (offset + rtcc.rtccBaseUptimeMs - compared))
      (compared + (offset + rtcc.rtccBaseUptimeMs - compared) + (uptime - rtcc.rtccBaseUptimeMs))
      (counted 1000 compared (uptime - rtcc.rtccBaseUptimeMs)) :=
    follows_counted (by decide) (Int.sub_nonneg_of_le h.compared_le)
  have hreference : compared + (offset + rtcc.rtccBaseUptimeMs - compared) +
      (uptime - rtcc.rtccBaseUptimeMs) = offset + uptime := by omega
  have hdelay := h.le_compared
  rw [hreference] at hcompared
  rw [h.reading_eq hrange]
  exact hcompared.mono (by omega)

end Rtcc.Compared

/-- A successful query leaves a compared clock. -/
theorem compared_of_query {query : TimeQuery} (hreports : query.Reports offset delay)
    {unixTimeMs : ℤ} (hquery : query.unixTimeMs = some unixTimeMs)
    (hstored : query.queriedAt ≤ query.storedAt) (hnonneg : 0 ≤ offset + query.queriedAt) :
    (modemGetTimeProcedure query rtcc).Compared offset delay query.storedAt
      (offset + query.queriedAt) := by
  obtain ⟨hvalue, hdelay⟩ := hreports unixTimeMs hquery
  rw [modemGetTimeProcedure, hquery]
  exact
    { valid := rfl
      base_eq := by
        rw [← Int.tdiv_eq_ediv_of_nonneg hnonneg, ← hvalue]
        rfl
      base_le := le_rfl
      compared_nonneg := hnonneg
      compared_le := Int.add_le_add_left hstored offset
      le_compared := by
        simp only [rtccUpdateUnixTime]
        omega }

theorem modemGetTimeProcedure_of_none {query : TimeQuery} (hquery : query.unixTimeMs = none) :
    modemGetTimeProcedure query rtcc = rtcc := by
  rw [modemGetTimeProcedure, hquery]

/-- Reading the time changes nothing but the last value read. -/
theorem Rtcc.Compared.getUnixTime {compared : ℤ} (h : Compared offset delay uptime rtcc compared)
    (now : ℤ) : Compared offset delay uptime (rtccGetUnixTime now rtcc).2 compared := by
  rw [rtccGetUnixTime, if_pos h.valid]
  exact { h with }

/-! ## Runs -/

namespace ClockState

variable {s next final : ClockState} {call : ClockCall} {calls : List ClockCall} {u₀ : ℤ}

/-- The clock before its first successful query. -/
structure Unset (s : ClockState) : Prop where
  invalid : s.rtcc.rtccTimeValid = false
  record_eq : s.rtcc.recordUnixTimeS = 0

theorem Unset.reading_eq (h : s.Unset) (uptime : ℤ) : (rtccGetUnixTime uptime s.rtcc).1 = 0 := by
  rw [rtccGetUnixTime, h.invalid, if_neg Bool.false_ne_true]
  exact h.record_eq

/-- What a call does: it stores a query, or leaves the base of the clock as it is. -/
theorem step_cases (hstep : s.step call = some next) : s.uptime ≤ next.uptime ∧
    ((∃ query unixTimeMs, call = .modemGetTime query ∧ query.unixTimeMs = some unixTimeMs ∧
        s.uptime ≤ query.queriedAt ∧ query.queriedAt ≤ query.storedAt ∧
        next = ⟨modemGetTimeProcedure query s.rtcc, query.storedAt⟩) ∨
      ¬ call.Compares ∧
        (next.rtcc = s.rtcc ∨ ∃ now, next.rtcc = (rtccGetUnixTime now s.rtcc).2)) := by
  cases call with
  | modemGetTime query =>
    obtain ⟨⟨hqueried, hstored⟩, hnext⟩ := Option.ite_none_right_eq_some.mp hstep
    rw [← Option.some.inj hnext]
    refine ⟨hqueried.trans hstored, ?_⟩
    cases hquery : query.unixTimeMs with
    | some unixTimeMs =>
      exact Or.inl ⟨query, unixTimeMs, rfl, hquery, hqueried, hstored, rfl⟩
    | none =>
      refine Or.inr ⟨fun hcompares ↦ ?_, Or.inl (modemGetTimeProcedure_of_none hquery)⟩
      rw [ClockCall.Compares, hquery] at hcompares
      exact Bool.false_ne_true hcompares
  | getUnixTime uptime =>
    obtain ⟨hle, hnext⟩ := Option.ite_none_right_eq_some.mp hstep
    rw [← Option.some.inj hnext]
    exact ⟨hle, Or.inr ⟨id, Or.inr ⟨uptime, rfl⟩⟩⟩

theorem uptime_le_of_run (hrun : run step s calls = some final) : s.uptime ≤ final.uptime :=
  have hstep : ∀ state call next, s.uptime ≤ state.uptime → step state call = some next →
      s.uptime ≤ next.uptime := fun _ _ _ hle hstep ↦ hle.trans (step_cases hstep).1
  run_invariant hstep le_rfl hrun

/-- A call that compares nothing leaves the clock unset. -/
theorem Unset.step (h : s.Unset) (hnot : ¬ call.Compares) (hstep : s.step call = some next) :
    next.Unset := by
  rcases (step_cases hstep).2 with ⟨query, unixTimeMs, rfl, hquery, _⟩ | ⟨_, hkept | ⟨now, hread⟩⟩
  · exact absurd (Option.isSome_iff_exists.mpr ⟨unixTimeMs, hquery⟩) hnot
  · exact ⟨hkept ▸ h.invalid, hkept ▸ h.record_eq⟩
  · rw [rtccGetUnixTime, h.invalid, if_neg Bool.false_ne_true] at hread
    exact ⟨hread ▸ h.invalid, hread ▸ h.record_eq⟩

/-- A clock that was compared in the past and is compared again from time to time. -/
structure Synchronised (offset delay : ℤ) (s : ClockState) : Prop where
  nonneg : 0 ≤ offset + s.uptime
  compared : ∃ compared, s.rtcc.Compared offset delay s.uptime compared

theorem Synchronised.step (h : s.Synchronised offset delay) (hreports : call.Reports offset delay)
    (hstep : s.step call = some next) : next.Synchronised offset delay := by
  have hnonneg := h.nonneg
  obtain ⟨hle, hcases⟩ := step_cases hstep
  obtain ⟨compared, hcompared⟩ := h.compared
  refine ⟨hnonneg.trans (Int.add_le_add_left hle offset), ?_⟩
  rcases hcases with ⟨query, unixTimeMs, rfl, hquery, hqueried, hstored, rfl⟩ |
    ⟨_, hkept | ⟨now, hread⟩⟩
  · exact ⟨_, compared_of_query hreports hquery hstored (by omega)⟩
  · rw [hkept]
    exact ⟨compared, hcompared.later hle⟩
  · rw [hread]
    exact ⟨compared, (hcompared.later hle).getUnixTime now⟩

theorem synchronised_of_compares (hnonneg : 0 ≤ offset + s.uptime)
    (hreports : call.Reports offset delay) (hcompares : call.Compares)
    (hstep : s.step call = some next) : next.Synchronised offset delay := by
  rcases (step_cases hstep).2 with ⟨query, unixTimeMs, rfl, hquery, hqueried, hstored, rfl⟩ |
    ⟨hnot, _⟩
  · exact ⟨by dsimp only; omega, _, compared_of_query hreports hquery hstored (by omega)⟩
  · exact absurd hcompares hnot

/-- A run without a successful query leaves the clock unset, any other one synchronises it. -/
theorem clock_of_run (hstart : 0 ≤ offset + u₀) (hrun : run step (start u₀) calls = some final)
    (hreports : ∀ call ∈ calls, call.Reports offset delay) :
    (∀ call ∈ calls, ¬ call.Compares) ∧ final.Unset ∨
      (∃ call ∈ calls, call.Compares) ∧ final.Synchronised offset delay := by
  by_cases hcompares : ∃ call ∈ calls, call.Compares
  · obtain ⟨call, hmem, hcall⟩ := hcompares
    obtain ⟨before, after, rfl⟩ := List.append_of_mem hmem
    obtain ⟨s, hbefore, hrest⟩ := Option.bind_eq_some_iff.mp (run_append .. ▸ hrun)
    obtain ⟨next, hstep, hafter⟩ := Option.bind_eq_some_iff.mp hrest
    have hnonneg : 0 ≤ offset + s.uptime :=
      hstart.trans (Int.add_le_add_left (uptime_le_of_run hbefore) offset)
    have hnext := synchronised_of_compares hnonneg (hreports call hmem) hcall hstep
    have hlater : ∀ call ∈ after, call.Reports offset delay := fun call hcall ↦
      hreports call (List.mem_append_right _ (List.mem_cons_of_mem _ hcall))
    refine Or.inr ⟨⟨call, hmem, hcall⟩, ?_⟩
    exact run_invariant_of_along (fun _ _ _ hreports h hstep ↦ h.step hreports hstep) hnext
      (along_of_forall hlater) hafter
  · have hnone : ∀ call ∈ calls, ¬ call.Compares := fun call hmem hcall ↦
      hcompares ⟨call, hmem, hcall⟩
    refine Or.inl ⟨hnone, ?_⟩
    exact run_invariant_of_along (fun _ _ _ hnot h hstep ↦ h.step hnot hstep)
      (⟨rfl, rfl⟩ : (start u₀).Unset) (along_of_forall hnone) hrun

/-! ## A reading is not undone -/

/-- From here on no reading is below `value`, which was not ahead at the uptime `first`. -/
structure NotBelow (offset first : ℤ) (value : UInt32) (s : ClockState) : Prop where
  first_le : first ≤ s.uptime
  value_le : ∀ uptime, s.uptime ≤ uptime → offset + uptime < 2 ^ 32 * 1000 →
    value.toNat ≤ (rtccGetUnixTime uptime s.rtcc).1.toNat

theorem rtccGetUnixTime_getUnixTime (rtcc : Rtcc) (now uptime : ℤ) :
    (rtccGetUnixTime uptime (rtccGetUnixTime now rtcc).2).1 = (rtccGetUnixTime uptime rtcc).1 := by
  cases hvalid : rtcc.rtccTimeValid with
  | true => simp only [rtccGetUnixTime, hvalid, if_true]
  | false => simp only [rtccGetUnixTime, hvalid, if_neg Bool.false_ne_true]

theorem NotBelow.step {first : ℤ} {value : UInt32} (h : s.NotBelow offset first value)
    (hvalue : 1000 * (value.toNat : ℤ) ≤ offset + first) (hreports : call.Reports offset delay)
    (hstep : s.step call = some next) : next.NotBelow offset first value := by
  obtain ⟨hle, hcases⟩ := step_cases hstep
  refine ⟨h.first_le.trans hle, fun uptime huptime hrange ↦ ?_⟩
  rcases hcases with ⟨query, unixTimeMs, rfl, hquery, hqueried, hstored, rfl⟩ |
    ⟨_, hkept | ⟨now, hread⟩⟩
  · have hfirst := h.first_le
    have hcompared : (modemGetTimeProcedure query s.rtcc).Compared offset delay uptime
        (offset + query.queriedAt) :=
      (compared_of_query hreports hquery hstored (by omega)).later huptime
    have hreading := hcompared.reading_eq hrange
    have hfollows : Follows 1000 (offset + first) (offset + first) value.toNat :=
      ⟨hvalue, by omega⟩
    have hcounted := hfollows.le_counted (by decide)
      (Int.add_le_add_left (hfirst.trans hqueried) offset)
      (Int.sub_nonneg_of_le hcompared.base_le)
    rw [← hreading] at hcounted
    exact Int.ofNat_le.mp hcounted
  · rw [hkept]
    exact h.value_le uptime (hle.trans huptime) hrange
  · rw [hread, rtccGetUnixTime_getUnixTime]
    exact h.value_le uptime (hle.trans huptime) hrange

/-- A clock just read is not ahead, and no later reading without a query is below. -/
theorem notBelow_of_read {first : ℤ}
    (hclock : s.Unset ∨ s.Synchronised offset delay) (hle : s.uptime ≤ first)
    (hnonneg : 0 ≤ offset + s.uptime) (hrange : offset + first < 2 ^ 32 * 1000) :
    1000 * ((rtccGetUnixTime first s.rtcc).1.toNat : ℤ) ≤ offset + first ∧
      NotBelow offset first (rtccGetUnixTime first s.rtcc).1
        ⟨(rtccGetUnixTime first s.rtcc).2, first⟩ := by
  rcases hclock with hunset | hsynchronised
  · rw [hunset.reading_eq first]
    exact ⟨by rw [UInt32.toNat_zero]; omega, le_rfl, fun _ _ _ ↦ Nat.zero_le _⟩
  · obtain ⟨compared, hcompared⟩ := hsynchronised.compared
    refine ⟨((hcompared.later hle).follows hrange).not_ahead, le_rfl,
      fun uptime huptime hlater ↦ ?_⟩
    rw [rtccGetUnixTime_getUnixTime, ← Int.ofNat_le, (hcompared.later hle).reading_eq hrange,
      (hcompared.later (hle.trans huptime)).reading_eq hlater]
    exact counted_mono (by decide) (Int.sub_le_sub_right huptime _)

/-- Over any sequence of queries and readings, a reading is zero before the first successful query
and follows the network time behind it, and it is not below any earlier reading. -/
theorem readings_of_run {u₀ first later : ℤ} {before after : List ClockCall}
    {s final : ClockState} (hstart : 0 ≤ offset + u₀)
    (hbefore : run step (start u₀) before = some s)
    (hrun : run step (start u₀) (before ++ .getUnixTime first :: after) = some final)
    (hreports : ∀ call ∈ before ++ after, call.Reports offset delay)
    (hlater : final.uptime ≤ later) (hrange : offset + later < 2 ^ 32 * 1000) :
    (rtccGetUnixTime first s.rtcc).1 ≤ (rtccGetUnixTime later final.rtcc).1 ∧
      ((∀ call ∈ before ++ after, ¬ call.Compares) → (rtccGetUnixTime later final.rtcc).1 = 0) ∧
      ((∃ call ∈ before ++ after, call.Compares) → Follows 1000 (1998 + delay) (offset + later)
        (rtccGetUnixTime later final.rtcc).1.toNat) := by
  rw [List.forall_mem_append] at hreports
  have hall : ∀ call ∈ before ++ .getUnixTime first :: after, call.Reports offset delay :=
    List.forall_mem_append.mpr ⟨hreports.1, List.forall_mem_cons.mpr ⟨trivial, hreports.2⟩⟩
  have hmem (call : ClockCall) (hcall : call.Compares) :
      call ∈ before ++ .getUnixTime first :: after ↔ call ∈ before ++ after := by
    have hne : call ≠ .getUnixTime first := by
      rintro rfl
      exact hcall
    simp [hne]
  have hclock := clock_of_run hstart hrun hall
  rw [run_append, hbefore, Option.bind_some, run_cons] at hrun
  obtain ⟨next, hread, hafter⟩ := Option.bind_eq_some_iff.mp hrun
  obtain ⟨hle, hnext⟩ := Option.ite_none_right_eq_some.mp hread
  obtain rfl := Option.some.inj hnext
  have hreached : 0 ≤ offset + s.uptime :=
    hstart.trans (Int.add_le_add_left (uptime_le_of_run hbefore) offset)
  have huptime : first ≤ final.uptime := uptime_le_of_run hafter
  have hstate : s.Unset ∨ s.Synchronised offset delay :=
    (clock_of_run hstart hbefore hreports.1).imp And.right And.right
  obtain ⟨hvalue, hnotBelow⟩ := notBelow_of_read hstate hle hreached (by omega)
  have hfinal : final.NotBelow offset first (rtccGetUnixTime first s.rtcc).1 :=
    run_invariant_of_along (fun _ _ _ hreports h hstep ↦ h.step hvalue hreports hstep) hnotBelow
      (along_of_forall hreports.2) hafter
  refine ⟨UInt32.le_iff_toNat_le.mpr (hfinal.value_le later hlater hrange), fun hnone ↦ ?_,
    fun hsome ↦ ?_⟩
  · rcases hclock with ⟨_, hunset⟩ | ⟨⟨call, hcall, hcompares⟩, _⟩
    · exact hunset.reading_eq later
    · exact absurd hcompares (hnone call ((hmem call hcompares).mp hcall))
  · rcases hclock with ⟨hnone, _⟩ | ⟨_, hsynchronised⟩
    · obtain ⟨call, hcall, hcompares⟩ := hsome
      exact absurd hcompares (hnone call ((hmem call hcompares).mpr hcall))
    · obtain ⟨compared, hcompared⟩ := hsynchronised.compared
      exact (hcompared.later hlater).follows hrange

/-- The network time of the query, one tenth of a second before it is stored. -/
def sampleQuery (uptime : ℤ) : TimeQuery := ⟨some (1700000000000 + uptime), uptime, uptime + 100⟩

theorem reports_sampleQuery (uptime : ℤ) : (sampleQuery uptime).Reports 1700000000000 100 := by
  intro unixTimeMs hquery
  exact ⟨(Option.some.inj hquery).symm, le_rfl⟩

/-- A query, a reading, a second query and a second reading. -/
theorem readings_of_two_queries :
    let s : ClockState := ⟨modemGetTimeProcedure (sampleQuery 500) (rtccInit 0), 600⟩
    let final : ClockState := ⟨modemGetTimeProcedure (sampleQuery 900)
      (rtccGetUnixTime 700 s.rtcc).2, 1000⟩
    (rtccGetUnixTime 700 s.rtcc).1 ≤ (rtccGetUnixTime 1500 final.rtcc).1 ∧
      ((∀ call ∈ [.modemGetTime (sampleQuery 500)] ++ [.modemGetTime (sampleQuery 900)],
        ¬ ClockCall.Compares call) → (rtccGetUnixTime 1500 final.rtcc).1 = 0) ∧
      ((∃ call ∈ [.modemGetTime (sampleQuery 500)] ++ [.modemGetTime (sampleQuery 900)],
        ClockCall.Compares call) →
        Follows 1000 (1998 + 100) (1700000000000 + 1500)
          (rtccGetUnixTime 1500 final.rtcc).1.toNat) := by
  have hreports : ∀ call ∈ [.modemGetTime (sampleQuery 500)] ++ [.modemGetTime (sampleQuery 900)],
      ClockCall.Reports 1700000000000 100 call := by
    rw [List.cons_append, List.nil_append, List.forall_mem_cons, List.forall_mem_singleton]
    exact ⟨reports_sampleQuery 500, reports_sampleQuery 900⟩
  have hstart : (0 : ℤ) ≤ 1700000000000 + 0 := by decide
  have hrange : (1700000000000 : ℤ) + 1500 < 2 ^ 32 * 1000 := by decide
  have hlater : (1000 : ℤ) ≤ 1500 := by decide
  exact readings_of_run hstart rfl rfl hreports hlater hrange

end ClockState

end NrfExamples.MqttWorking
