import NrfExamples.MqttWorking.UnitLib
import NrfExamples.Library.Window

/-!
# Pre-trigger ring

`circular_buffer_init` and `circular_buffer_add_value` over the four ring arrays and their common
head. The head moves through 1 to 1024, and 1024 means that the next value goes to index zero.
`CircBuffer.Shows` says that each array is a wrapping window over the values added so far.
-/

namespace NrfExamples.MqttWorking

def crclrBuffSize : ℕ := 1024

structure CircBuffer where
  circBuffCh0 : List ℤ
  circBuffCh1 : List ℤ
  circBuffCh2 : List ℤ
  circBuffCh3 : List ℤ
  buffHead : ℕ
  circBuffOverflow : Bool

namespace CircBuffer

/-- The ring array of a channel. -/
def array (ring : CircBuffer) : Quad (List ℤ)
  | 0 => ring.circBuffCh0
  | 1 => ring.circBuffCh1
  | 2 => ring.circBuffCh2
  | 3 => ring.circBuffCh3

/-- Move the head back to index zero. -/
def rewind (ring : CircBuffer) : CircBuffer :=
  { ring with buffHead := 0, circBuffOverflow := true }

/-- Store one value for each channel at the head and move the head. -/
def store (ring : CircBuffer) (values : Quad ℤ) : CircBuffer :=
  { ring with
    circBuffCh0 := ring.circBuffCh0.set ring.buffHead (values 0)
    circBuffCh1 := ring.circBuffCh1.set ring.buffHead (values 1)
    circBuffCh2 := ring.circBuffCh2.set ring.buffHead (values 2)
    circBuffCh3 := ring.circBuffCh3.set ring.buffHead (values 3)
    buffHead := ring.buffHead + 1 }

end CircBuffer

/-- `circular_buffer_init` sets every field, so its result does not depend on the old ring. -/
def circularBufferInit : CircBuffer where
  circBuffCh0 := clearBuffer crclrBuffSize
  circBuffCh1 := clearBuffer crclrBuffSize
  circBuffCh2 := clearBuffer crclrBuffSize
  circBuffCh3 := clearBuffer crclrBuffSize
  buffHead := 0
  circBuffOverflow := true

/-- The returned head is the `buffHead` of the result. -/
def circularBufferAddValue (ring : CircBuffer) (values : Quad ℤ) : CircBuffer :=
  if ring.buffHead < crclrBuffSize then ring.store values
  else ring.rewind.store values

namespace CircBuffer

/-- Each array shows the newest values of its channel, over an initial fill of zeros. -/
def Shows (ring : CircBuffer) (history : List (Quad ℤ)) : Prop :=
  ∀ channel, Window.Holds crclrBuffSize 0 (ring.array channel) ring.buffHead
    (history.map fun values ↦ values channel)

@[simp]
theorem array_store (ring : CircBuffer) (values : Quad ℤ) (channel : Channel) :
    (ring.store values).array channel =
      (ring.array channel).set ring.buffHead (values channel) := by
  match channel with
  | 0 | 1 | 2 | 3 => rfl

@[simp]
theorem array_rewind (ring : CircBuffer) (channel : Channel) :
    ring.rewind.array channel = ring.array channel := by
  match channel with
  | 0 | 1 | 2 | 3 => rfl

theorem shows_circularBufferInit : circularBufferInit.Shows [] := by
  intro channel
  have harray : circularBufferInit.array channel = List.replicate crclrBuffSize 0 := by
    match channel with
    | 0 | 1 | 2 | 3 => rfl
  rw [harray]
  exact Window.Holds.init crclrBuffSize 0

theorem Shows.store {ring : CircBuffer} {history : List (Quad ℤ)} (h : ring.Shows history)
    (hhead : ring.buffHead < crclrBuffSize) (values : Quad ℤ) :
    (ring.store values).Shows (history ++ [values]) := by
  intro channel
  rw [array_store, List.map_append]
  exact (h channel).push hhead (values channel)

/-- One call adds one value to the history of every channel, also where the head wraps. -/
theorem Shows.addValue {ring : CircBuffer} {history : List (Quad ℤ)} (h : ring.Shows history)
    (values : Quad ℤ) : (circularBufferAddValue ring values).Shows (history ++ [values]) := by
  unfold circularBufferAddValue
  by_cases hhead : ring.buffHead < crclrBuffSize
  · rw [if_pos hhead]
    exact h.store hhead values
  · rw [if_neg hhead]
    have hend : ring.buffHead = crclrBuffSize := le_antisymm (h 0).head_le (not_lt.mp hhead)
    have hwrapped : ring.rewind.Shows history := by
      intro channel
      have hchannel := h channel
      rw [hend] at hchannel
      rw [array_rewind]
      exact hchannel.wrap
    exact hwrapped.store (Nat.succ_pos _) values

/-- `circ_buff_overflow` is set by the initialisation and never cleared by an addition. -/
theorem circBuffOverflow_addValue {ring : CircBuffer} (h : ring.circBuffOverflow = true)
    (values : Quad ℤ) : (circularBufferAddValue ring values).circBuffOverflow = true := by
  unfold circularBufferAddValue rewind store
  split
  · exact h
  · rfl

end CircBuffer

end NrfExamples.MqttWorking
