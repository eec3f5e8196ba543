import NrfExamples.Library.Trace
import NrfExamples.MqttWorking.LogRamBackend

/-!
# Reading the retained log

The log as a stream: messages are written to the ring and `log_ram_read` takes bytes out in pieces
of any size, before and behind warm resets. What is read, followed by what is still in the ring, is
the output in its order without the bytes that found the ring full.
-/

namespace NrfExamples.MqttWorking

open Memory Trace

/-- The calls that reach the ring. -/
inductive LogCall where
  | event (event : LogEvent)
  | read (len : ℕ)

namespace LogRamRetention

/-- A ring that was set up before. -/
def Initialised (ret : LogRamRetention) : Prop := ret.magic = logRamMagic

def serve (ret : LogRamRetention) : LogCall → Option LogRamRetention
  | .event event => some (ret.step event)
  | .read len => some (logRamRead len ret).2

/-- The output of a call. -/
def output (_ : LogRamRetention) : LogCall → List Byte
  | .event event => event.pieces.flatten
  | .read _ => []

/-- The part of it that the ring takes. -/
def taken (ret : LogRamRetention) (call : LogCall) : List Byte :=
  (ret.output call).take ret.rb.space

def bytesRead (ret : LogRamRetention) : LogCall → List Byte
  | .event _ => []
  | .read len => (logRamRead len ret).1

/-- The output of a call fits the free part of the ring. -/
def Fits (ret : LogRamRetention) (call : LogCall) : Prop :=
  (ret.output call).length ≤ ret.rb.space

variable {ret next : LogRamRetention} {call : LogCall}

theorem taken_eq_iff : ret.taken call = ret.output call ↔ ret.Fits call :=
  List.take_eq_self_iff _

/-- A call reads from the front of the ring, or adds what it takes behind its end. -/
theorem bytesRead_append_entries (h : ret.Initialised) (hcall : ret.serve call = some next) :
    next.Initialised ∧
      ret.bytesRead call ++ next.rb.entries = ret.rb.entries ++ ret.taken call := by
  cases call with
  | event event =>
    have hnext : next = { ret with rb := ret.rb.puts event.pieces } :=
      (Option.some.inj hcall).symm.trans (step_eq h event)
    rw [hnext]
    refine ⟨h, ?_⟩
    calc
      [] ++ (ret.rb.puts event.pieces).entries =
          (ret.rb.entries ++ event.pieces.flatten).take logRamBufferSize :=
        BoundedQueue.entries_puts _ _
      _ = ret.rb.entries ++ event.pieces.flatten.take ret.rb.space := by
        rw [List.take_append, List.take_of_length_le ret.rb.length_le]
        rfl
  | read len =>
    rw [← Option.some.inj hcall]
    refine ⟨h, ?_⟩
    calc
      ret.rb.entries.take len ++ ret.rb.entries.drop len = ret.rb.entries :=
        List.take_append_drop _ _
      _ = ret.rb.entries ++ ret.taken (.read len) := by
        rw [taken, output, List.take_nil, List.append_nil]

/-- From a fresh ring, over any messages, warm resets and reads: the bytes read, followed by the
contents of the ring, are a subsequence of the output, and they are all of it exactly if every
message finds room. -/
theorem stream_of_run {calls : List LogCall} {final : LogRamRetention}
    (hrun : Trace.run serve fresh calls = some final) :
    (outputs serve bytesRead fresh calls ++ final.rb.entries).Sublist
        (outputs serve output fresh calls) ∧
      (outputs serve bytesRead fresh calls ++ final.rb.entries =
          outputs serve output fresh calls ↔
        Along serve Fits fresh calls) := by
  have hstream : outputs serve bytesRead fresh calls ++ final.rb.entries =
      outputs serve taken fresh calls :=
    outputs_append_stored (congruence_eq Byte)
      (fun _ _ _ h hcall ↦ (bytesRead_append_entries h hcall).1)
      (fun _ _ _ h hcall ↦ (bytesRead_append_entries h hcall).2) rfl hrun
  have htaken (ret : LogRamRetention) (call : LogCall) :
      (ret.taken call).Sublist (ret.output call) := List.take_sublist _ _
  have hfits : Along serve (fun ret call ↦ ret.taken call = ret.output call) fresh calls ↔
      Along serve Fits fresh calls :=
    ⟨Along.mono fun _ _ ↦ taken_eq_iff.mp, Along.mono fun _ _ ↦ taken_eq_iff.mpr⟩
  rw [hstream]
  exact ⟨outputs_sublist htaken _ _, (outputs_eq_iff htaken _ _).trans hfits⟩

/-- A message, a piece of it read, a warm reset, and the rest read. -/
def readAcrossReset : List LogCall :=
  [.event (.message 7 [[0x41, 0x42]]), .read 4, .event .warmReset, .read 64]

theorem stream_of_readAcrossReset : ∃ final, Trace.run serve fresh readAcrossReset = some final ∧
    (outputs serve bytesRead fresh readAcrossReset ++ final.rb.entries).Sublist
        (outputs serve output fresh readAcrossReset) ∧
      (outputs serve bytesRead fresh readAcrossReset ++ final.rb.entries =
          outputs serve output fresh readAcrossReset ↔
        Along serve Fits fresh readAcrossReset) :=
  ⟨_, rfl, stream_of_run rfl⟩

end LogRamRetention

end NrfExamples.MqttWorking
