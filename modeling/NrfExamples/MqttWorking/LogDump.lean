import NrfExamples.MqttWorking.Polling

/-!
# Dumping the log

The dump loop of `mqtt_pooling_procedure` takes at most 64 bytes of the log at a time into `buf`
and publishes the whole of `buf`. The published bytes begin with the log. Where the last read does
not fill `buf`, its end is published as earlier turns left it.
-/

namespace NrfExamples.MqttWorking

open Memory

/-- The payloads that `sys_log_data_publish` is given, one behind the other. -/
def publishedLog (effects : List Effect) : List Byte :=
  effects.flatMap fun effect ↦
    match effect with
    | .logPublish bytes => bytes
    | _ => []

/-- The dump publishes the log and what is left of `buf` behind its end. -/
theorem publishedLog_dumpChunks (logRam : List Byte) (buf : Buffer 64) :
    ∃ stale, publishedLog (dumpChunks logRam buf).2 = logRam ++ stale ∧
      stale.length = (64 - logRam.length % 64) % 64 := by
  induction logRam, buf using dumpChunks.induct with
  | case1 logRam buf hne stored ih =>
    obtain ⟨stale, hrest, hlength⟩ := ih
    have hstored : stored.1 = logRam.take (min 64 logRam.length) ++
        buf.1.drop (min 64 logRam.length) :=
      buf.store_eq (Nat.min_le_right ..) (Nat.min_le_left ..)
    have hpublished : publishedLog (dumpChunks logRam buf).2 =
        stored.1 ++ publishedLog (dumpChunks (logRam.drop 64) stored).2 := by
      rw [dumpChunks, if_pos hne]
      rfl
    rw [List.length_drop] at hlength
    by_cases hlong : 64 ≤ logRam.length
    · refine ⟨stale, ?_, ?_⟩
      · have hfull : buf.1.drop 64 = [] := List.drop_of_length_le buf.2.le
        rw [hpublished, hrest, hstored, Nat.min_eq_left hlong, hfull, List.append_nil,
          ← List.append_assoc, List.take_append_drop]
      · rw [hlength]
        omega
    · have hshort : logRam.length ≤ 64 := (not_le.mp hlong).le
      have hend : logRam.drop 64 = [] := List.drop_of_length_le hshort
      refine ⟨buf.1.drop logRam.length, ?_, ?_⟩
      · rw [hpublished, hend, hstored, Nat.min_eq_right hshort, List.take_length, dumpChunks]
        exact List.append_nil _
      · have hpos := List.length_pos_iff.mpr hne
        rw [List.length_drop, buf.2]
        omega
  | case2 logRam buf hempty =>
    have hnil : logRam = [] := not_not.mp hempty
    refine ⟨[], ?_, ?_⟩
    · rw [dumpChunks, if_neg hempty, hnil]
      rfl
    · rw [hnil]
      rfl

/-- The dump is exact for the logs that fill the last read. -/
theorem dumpLog_exact_iff (unit : UnitState) (hflag : unit.inbox.flags.dumpLogFlag = true) :
    publishedLog (dumpLog unit).effects = unit.logRam ↔ 64 ∣ unit.logRam.length := by
  obtain ⟨stale, hpublished, hlength⟩ := publishedLog_dumpChunks unit.logRam unit.buf
  have heffects : (dumpLog unit).effects = (dumpChunks unit.logRam unit.buf).2 := by
    rw [dumpLog, if_pos hflag]
  rw [heffects, hpublished, List.append_right_eq_self, ← List.length_eq_zero_iff, hlength]
  omega

/-- A unit that has received the dump command, with the given log. -/
def dumpingUnit (logRam : List Byte) : UnitState :=
  let unit := UnitState.boot ⟨55, 35, 4000, 0⟩ (fun _ ↦ 0) logRam
  { unit with inbox := { unit.inbox with
      flags := { unit.inbox.flags with dumpLogFlag := true } } }

theorem dumpLog_exact_iff_two_reads :
    publishedLog (dumpLog (dumpingUnit (List.replicate 128 1))).effects = List.replicate 128 1 ↔
      64 ∣ (List.replicate 128 (1 : Byte)).length :=
  dumpLog_exact_iff (dumpingUnit (List.replicate 128 1)) rfl

/-- A log of one byte is published with 63 bytes behind it. -/
theorem not_dumpLog_exact_single :
    ¬ ∀ unit : UnitState, unit.inbox.flags.dumpLogFlag = true →
      publishedLog (dumpLog unit).effects = unit.logRam := by
  intro hall
  obtain ⟨stale, hpublished, hlength⟩ := publishedLog_dumpChunks [1] (Buffer.zero 64)
  have hexact : [1] ++ stale = [1] := hpublished.symm.trans (hall (dumpingUnit [1]) rfl)
  rw [List.append_right_eq_self.mp hexact] at hlength
  exact absurd hlength (by decide)

end NrfExamples.MqttWorking
