import Mathlib.Algebra.Order.Ring.Nat

/-!
# Counting semaphores

A semaphore holds at most `limit` tokens. Giving a full semaphore does nothing, and taking from an
empty one is refused: the thread that tries it has to wait. A token does not record who gave it or
when, so a taker only learns that some earlier give was not yet taken.
-/

namespace NrfExamples

structure Semaphore (limit : ℕ) where
  count : ℕ
  count_le : count ≤ limit

namespace Semaphore

variable {limit : ℕ}

def empty : Semaphore limit := ⟨0, Nat.zero_le limit⟩

def give (semaphore : Semaphore limit) : Semaphore limit :=
  ⟨min (semaphore.count + 1) limit, min_le_right _ _⟩

def take (semaphore : Semaphore limit) : Option (Semaphore limit) :=
  if semaphore.count = 0 then none
  else some ⟨semaphore.count - 1, (Nat.sub_le _ _).trans semaphore.count_le⟩

theorem take_eq_none_iff (semaphore : Semaphore limit) :
    semaphore.take = none ↔ semaphore.count = 0 := by
  unfold take
  split
  next hempty => exact iff_of_true rfl hempty
  next htoken => exact iff_of_false (Option.some_ne_none _) htoken

theorem take_of_count_ne_zero {semaphore : Semaphore limit} (h : semaphore.count ≠ 0) :
    ∃ rest, semaphore.take = some rest :=
  Option.ne_none_iff_exists'.mp fun hnone ↦ h ((take_eq_none_iff semaphore).mp hnone)

theorem count_give_ne_zero (hlimit : 0 < limit) (semaphore : Semaphore limit) :
    semaphore.give.count ≠ 0 := by
  rw [give]
  dsimp only
  omega

theorem count_take {semaphore rest : Semaphore limit} (h : semaphore.take = some rest) :
    rest.count + 1 = semaphore.count := by
  unfold take at h
  split at h
  · cases h
  · rw [← Option.some.inj h]
    dsimp only
    omega

end Semaphore

end NrfExamples
