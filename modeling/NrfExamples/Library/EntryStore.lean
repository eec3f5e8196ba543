import NrfExamples.Library.Memory
import Mathlib.Logic.Function.Basic

/-!
# Stores of numbered entries

A flash file system that keeps byte strings under numbers. A read reports the length of the entry,
or an error where there is none. A write replaces one entry, or it fails and leaves every entry as
it is. Nothing else is assumed about the medium, so what is proved of such a store holds of any
implementation.
-/

namespace NrfExamples.Memory

structure EntryStore where
  State : Type
  entry : State → ℕ → Option (List Byte)
  /-- The result of a read of at most `length` bytes, and the bytes that it copies. -/
  read : State → ℕ → ℕ → ℤ × List Byte
  write : State → ℕ → List Byte → ℤ × State
  read_none : ∀ {state id}, entry state id = none → ∀ length,
    (read state id length).1 < 0 ∧ (read state id length).2 = []
  read_some : ∀ {state id bytes}, entry state id = some bytes → ∀ length,
    read state id length = ((bytes.length : ℤ), bytes.take length)
  write_stored : ∀ {state id bytes}, 0 ≤ (write state id bytes).1 →
    entry (write state id bytes).2 = Function.update (entry state) id (some bytes)
  write_failed : ∀ {state id bytes}, (write state id bytes).1 < 0 →
    entry (write state id bytes).2 = entry state

namespace EntryStore

/-- Entries in a memory, in which a write to a worn entry fails. -/
def inMemory (worn : ℕ → Bool) : EntryStore where
  State := ℕ → Option (List Byte)
  entry state := state
  read state id length :=
    match state id with
    | none => (-2, [])
    | some bytes => ((bytes.length : ℤ), bytes.take length)
  write state id bytes :=
    if worn id then (-5, state) else ((bytes.length : ℤ), Function.update state id (some bytes))
  read_none hnone length := by
    rw [hnone]
    exact ⟨show (-2 : ℤ) < 0 by decide, rfl⟩
  read_some hsome length := by rw [hsome]
  write_stored {_ id _} hstored := by
    cases hworn : worn id with
    | true =>
      rw [hworn] at hstored
      exact absurd (show (0 : ℤ) ≤ -5 from hstored) (by decide)
    | false => rfl
  write_failed {_ id _} hfailed := by
    cases hworn : worn id with
    | true => rfl
    | false =>
      rw [hworn] at hfailed
      exact absurd (Int.natCast_nonneg _) (Int.not_le.mpr hfailed)

end EntryStore

end NrfExamples.Memory
