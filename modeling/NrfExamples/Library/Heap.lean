import Mathlib.Data.List.Nodup
import Mathlib.Logic.Function.Basic

/-!
# Heaps of blocks

The allocated blocks with their contents. The allocator hands out any block that is not allocated.
An access to a block that is not allocated has no result, so a system over a heap shows where it
goes wrong.

`Owns` accounts for the allocated blocks: each of them has exactly one place in a list. Whoever
takes a block from the list may access it and free it once, and blocks elsewhere in the list keep
their contents meanwhile. `Holds` adds the contents of those blocks that somebody still knows.
-/

namespace NrfExamples

variable {α : Type}

abbrev Heap (α : Type) := ℕ → Option α

namespace Heap

/-! ## Operations -/

def empty : Heap α := fun _ ↦ none

/-- The heap behind an allocation that hands out the block, with whatever content it had. -/
def malloc (heap : Heap α) (block : ℕ) (content : α) : Option (Heap α) :=
  if (heap block).isSome then none else some (Function.update heap block (some content))

def store (heap : Heap α) (block : ℕ) (content : α) : Option (Heap α) :=
  if (heap block).isSome then some (Function.update heap block (some content)) else none

def free (heap : Heap α) (block : ℕ) : Option (Heap α) :=
  if (heap block).isSome then some (Function.update heap block none) else none

/-- The contents of a list of blocks. -/
def contents (heap : Heap α) (blocks : List ℕ) : List α := blocks.filterMap heap

/-! ## Frames -/

/-- The heaps differ at no other block. -/
def Frames (heap next : Heap α) (block : ℕ) : Prop :=
  ∀ other, other ≠ block → next other = heap other

theorem frames_update (heap : Heap α) (block : ℕ) (content : Option α) :
    Frames heap (Function.update heap block content) block :=
  fun _ hne ↦ Function.update_of_ne hne content heap

theorem Frames.contents_eq {heap next : Heap α} {block : ℕ} (h : Frames heap next block)
    {blocks : List ℕ} (hblock : block ∉ blocks) : next.contents blocks = heap.contents blocks := by
  apply List.filterMap_congr
  intro other hother
  apply h
  rintro rfl
  exact hblock hother

theorem contents_append (heap : Heap α) (first second : List ℕ) :
    heap.contents (first ++ second) = heap.contents first ++ heap.contents second :=
  List.filterMap_append

/-! ## Ownership -/

/-- The list has every allocated block exactly once. -/
structure Owns (heap : Heap α) (blocks : List ℕ) : Prop where
  nodup : blocks.Nodup
  live_iff : ∀ block, (heap block).isSome ↔ block ∈ blocks

theorem owns_empty : (empty : Heap α).Owns [] where
  nodup := List.nodup_nil
  live_iff _ := iff_of_false Bool.false_ne_true List.not_mem_nil

namespace Owns

variable {heap next : Heap α} {blocks other : List ℕ} {block : ℕ} {content : α}

theorem perm (h : heap.Owns blocks) (hperm : other.Perm blocks) : heap.Owns other where
  nodup := hperm.nodup_iff.mpr h.nodup
  live_iff block := (h.live_iff block).trans hperm.mem_iff.symm

theorem malloc (h : heap.Owns blocks) (hmalloc : heap.malloc block content = some next) :
    next.Owns (block :: blocks) ∧ Frames heap next block := by
  unfold Heap.malloc at hmalloc
  split at hmalloc
  · cases hmalloc
  · rename_i hdead
    rw [← Option.some.inj hmalloc]
    have hfresh : block ∉ blocks := fun hmem ↦ hdead ((h.live_iff block).mpr hmem)
    refine ⟨⟨List.nodup_cons.mpr ⟨hfresh, h.nodup⟩, fun other ↦ ?_⟩, frames_update _ _ _⟩
    rw [List.mem_cons, Function.update_apply]
    split
    · exact iff_of_true rfl (Or.inl ‹_›)
    · rw [h.live_iff, or_iff_right ‹_›]

theorem store (h : heap.Owns blocks) (hblock : block ∈ blocks) (content : α) :
    ∃ next, heap.store block content = some next ∧ next.Owns blocks ∧ Frames heap next block ∧
      next block = some content := by
  refine ⟨_, if_pos ((h.live_iff block).mpr hblock), ⟨h.nodup, fun other ↦ ?_⟩,
    frames_update _ _ _, Function.update_self _ _ _⟩
  rw [Function.update_apply]
  split
  · exact iff_of_true rfl (‹other = block› ▸ hblock)
  · exact h.live_iff other

theorem free (h : heap.Owns (block :: blocks)) :
    ∃ next, heap.free block = some next ∧ next.Owns blocks ∧ Frames heap next block := by
  obtain ⟨hfresh, hnodup⟩ := List.nodup_cons.mp h.nodup
  refine ⟨_, if_pos ((h.live_iff block).mpr List.mem_cons_self), ⟨hnodup, fun other ↦ ?_⟩,
    frames_update _ _ _⟩
  rw [Function.update_apply]
  split
  · exact iff_of_false Bool.false_ne_true (‹other = block› ▸ hfresh)
  · rw [h.live_iff, List.mem_cons, or_iff_right ‹_›]

end Owns

/-! ## Known contents -/

/-- The allocated blocks are those held, with the contents listed, and the ones lost. -/
structure Holds (heap : Heap α) (held : List (ℕ × α)) (lost : List ℕ) : Prop where
  owns : heap.Owns (held.map Prod.fst ++ lost)
  content_eq : ∀ entry ∈ held, heap entry.1 = some entry.2

namespace Holds

variable {heap next : Heap α} {held other : List (ℕ × α)} {lost : List ℕ} {block : ℕ}
  {content : α}

theorem perm (h : heap.Holds held lost) (hperm : other.Perm held) : heap.Holds other lost where
  owns := h.owns.perm ((hperm.map Prod.fst).append_right lost)
  content_eq entry hentry := h.content_eq entry (hperm.mem_iff.mp hentry)

/-- The blocks held besides the first one are other blocks. -/
theorem ne_of_nodup (hnodup : (block :: (held.map Prod.fst ++ lost)).Nodup) {entry : ℕ × α}
    (hentry : entry ∈ held) : entry.1 ≠ block := by
  intro heq
  apply (List.nodup_cons.mp hnodup).1
  rw [← heq]
  exact List.mem_append_left _ (List.mem_map_of_mem hentry)

theorem malloc (h : heap.Holds held lost) (hmalloc : heap.malloc block content = some next) :
    next.Holds ((block, content) :: held) lost := by
  obtain ⟨howns, hframe⟩ := h.owns.malloc hmalloc
  have hcontent : next block = some content := by
    unfold Heap.malloc at hmalloc
    split at hmalloc
    · cases hmalloc
    · rw [← Option.some.inj hmalloc]
      exact Function.update_self _ _ _
  refine ⟨howns, fun entry hentry ↦ ?_⟩
  rcases List.mem_cons.mp hentry with rfl | hheld
  · exact hcontent
  · rw [hframe entry.1 (ne_of_nodup howns.nodup hheld)]
    exact h.content_eq entry hheld

theorem store (h : heap.Holds ((block, content) :: held) lost) (value : α) :
    ∃ next, heap.store block value = some next ∧ next.Holds ((block, value) :: held) lost := by
  obtain ⟨next, hstore, howns, hframe, hvalue⟩ := h.owns.store List.mem_cons_self value
  refine ⟨next, hstore, howns, fun entry hentry ↦ ?_⟩
  rcases List.mem_cons.mp hentry with rfl | hheld
  · exact hvalue
  · rw [hframe entry.1 (ne_of_nodup h.owns.nodup hheld)]
    exact h.content_eq entry (List.mem_cons_of_mem _ hheld)

theorem free (h : heap.Holds ((block, content) :: held) lost) :
    ∃ next, heap.free block = some next ∧ next.Holds held lost := by
  obtain ⟨next, hfree, howns, hframe⟩ := (h.owns : heap.Owns (block :: _)).free
  refine ⟨next, hfree, howns, fun entry hentry ↦ ?_⟩
  rw [hframe entry.1 (ne_of_nodup h.owns.nodup hentry)]
  exact h.content_eq entry (List.mem_cons_of_mem _ hentry)

/-- Forgetting a block loses it. -/
theorem lose (h : heap.Holds ((block, content) :: held) lost) :
    heap.Holds held (block :: lost) where
  owns := h.owns.perm List.perm_middle
  content_eq entry hentry := h.content_eq entry (List.mem_cons_of_mem _ hentry)

end Holds

end Heap

end NrfExamples
