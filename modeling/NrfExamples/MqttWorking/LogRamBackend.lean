import Mathlib.Data.List.Infix
import NrfExamples.Library.BoundedQueue
import NrfExamples.MqttWorking.MqttConnection

/-!
# The retained log

`log_ram_backend.c` writes every log message to a ring in RAM that is not initialised on a reset.
The ring takes what fits and drops the rest, and no caller looks at how much it took. Over any
sequence of messages and warm resets the ring therefore holds the first 4096 bytes of the output.
-/

namespace NrfExamples.MqttWorking

open Memory

def logRamBufferSize : ℕ := 4096

def logRamMagic : UInt32 := 0x4C4F4752

structure LogRamRetention where
  magic : UInt32
  rb : BoundedQueue Byte logRamBufferSize

/-! ## Functions of the backend -/

/-- The result counts bytes that the ring may have dropped. -/
def ramOutputFunc (data : List Byte) (ret : LogRamRetention) : LogRamRetention × ℕ :=
  ({ ret with rb := (ret.rb.put data).1 }, data.length)

/-- The text `[%llu]` with a tab behind it. -/
def timeStamp (tsMs : UInt64) : List Byte :=
  ascii (['['] ++ Nat.toDigits 10 tsMs.toNat ++ [']', '\t'])

/-- A message with the pieces that `log_output_msg_process` hands to `ram_output_func`. -/
def logRamProcess (tsMs : UInt64) (pieces : List (List Byte)) (ret : LogRamRetention) :
    LogRamRetention :=
  let tsBuf := timeStamp tsMs
  let ret := if tsBuf.length > 0 then { ret with rb := (ret.rb.put tsBuf).1 } else ret
  pieces.foldl (fun ret data ↦ (ramOutputFunc data ret).1) ret

def logRamInit (ret : LogRamRetention) : LogRamRetention :=
  if ret.magic ≠ logRamMagic then ⟨logRamMagic, BoundedQueue.empty Byte logRamBufferSize⟩ else ret

def logRamRead (len : ℕ) (ret : LogRamRetention) : List Byte × LogRamRetention :=
  ((ret.rb.get len).1, { ret with rb := (ret.rb.get len).2 })

/-! ## Messages and resets -/

inductive LogEvent where
  | message (tsMs : UInt64) (pieces : List (List Byte))
  | warmReset

namespace LogRamRetention

/-- The state behind the first start. -/
def fresh : LogRamRetention := ⟨logRamMagic, BoundedQueue.empty Byte logRamBufferSize⟩

/-- A warm reset keeps the RAM and runs the initialisation on it. -/
def step (ret : LogRamRetention) : LogEvent → LogRamRetention
  | .message tsMs pieces => logRamProcess tsMs pieces ret
  | .warmReset => logRamInit ret

def run (ret : LogRamRetention) (events : List LogEvent) : LogRamRetention := events.foldl step ret

end LogRamRetention

/-- What the two producers hand to the ring for an event. -/
def LogEvent.pieces : LogEvent → List (List Byte)
  | .message tsMs pieces => timeStamp tsMs :: pieces
  | .warmReset => []

/-- The bytes emitted over a sequence of events. -/
def emitted (events : List LogEvent) : List Byte := (events.flatMap LogEvent.pieces).flatten

namespace LogRamRetention

theorem logRamProcess_eq (tsMs : UInt64) (pieces : List (List Byte)) (ret : LogRamRetention) :
    logRamProcess tsMs pieces ret = { ret with rb := ret.rb.puts (timeStamp tsMs :: pieces) } := by
  have hpieces (ret : LogRamRetention) :
      pieces.foldl (fun ret data ↦ (ramOutputFunc data ret).1) ret =
        { ret with rb := ret.rb.puts pieces } := by
    induction pieces generalizing ret with
    | nil => rfl
    | cons data pieces ih => exact ih (ramOutputFunc data ret).1
  have hstamp : (timeStamp tsMs).length > 0 := by simp [timeStamp, ascii]
  simp only [logRamProcess, if_pos hstamp, hpieces, BoundedQueue.puts_cons]

/-- A step keeps the magic number and adds the pieces of its event. -/
theorem step_eq {ret : LogRamRetention} (hmagic : ret.magic = logRamMagic) (event : LogEvent) :
    ret.step event = { ret with rb := ret.rb.puts event.pieces } := by
  cases event with
  | message tsMs pieces => exact logRamProcess_eq tsMs pieces ret
  | warmReset => exact if_neg (not_not.mpr hmagic)

theorem run_eq {ret : LogRamRetention} (hmagic : ret.magic = logRamMagic)
    (events : List LogEvent) :
    ret.run events = { ret with rb := ret.rb.puts (events.flatMap LogEvent.pieces) } := by
  induction events generalizing ret with
  | nil => rfl
  | cons event events ih =>
    have hkept : ({ ret with rb := ret.rb.puts event.pieces } : LogRamRetention).magic =
        logRamMagic := hmagic
    calc
      ret.run (event :: events) = (ret.step event).run events := rfl
      _ = { ret with rb := (ret.rb.puts event.pieces).puts (events.flatMap LogEvent.pieces) } := by
        rw [step_eq hmagic, ih hkept]
      _ = { ret with rb := ret.rb.puts ((event :: events).flatMap LogEvent.pieces) } := by
        rw [List.flatMap_cons, BoundedQueue.puts_append]

/-- The ring keeps the oldest output. -/
theorem entries_run_fresh (events : List LogEvent) :
    (fresh.run events).rb.entries = (emitted events).take logRamBufferSize := by
  rw [run_eq rfl]
  exact BoundedQueue.entries_puts_empty _

/-- The ring holds the latest 4096 bytes exactly if these are also the first 4096 bytes. -/
theorem holds_latest_output_iff (events : List LogEvent) :
    (fresh.run events).rb.entries = (emitted events).rtake 4096 ↔
      (emitted events).take 4096 = (emitted events).rtake 4096 := by
  rw [run_eq rfl]
  exact BoundedQueue.holds_latest_iff _

/-- Thirty-two full buffers of letters. -/
def fullBuffers : List (List Byte) := List.replicate 32 (List.replicate 128 0x41)

/-- One long message behind an empty ring: its time stamp is kept and its end is not. -/
theorem not_holds_latest_output_long :
    ¬ ∀ events : List LogEvent,
      (fresh.run events).rb.entries = (emitted events).rtake 4096 := by
  intro hall
  have hkept := hall [.message 0 fullBuffers]
  have hemitted : emitted [.message 0 fullBuffers] = timeStamp 0 ++ List.replicate 4096 0x41 := by
    simp only [emitted, List.flatMap_singleton, LogEvent.pieces, List.flatten_cons, fullBuffers,
      List.flatten_replicate_replicate]
  have hlatest : (timeStamp 0 ++ List.replicate 4096 (0x41 : Byte)).rtake 4096 =
      List.replicate 4096 0x41 := by
    rw [List.rtake, List.length_append, List.length_replicate, Nat.add_sub_cancel,
      List.drop_left]
  rw [entries_run_fresh, hemitted, hlatest] at hkept
  have hfirst := congrArg List.head? hkept
  exact absurd hfirst (by decide)

end LogRamRetention

end NrfExamples.MqttWorking
