import Mathlib.Data.List.Basic

/-!
# Open descriptors

The descriptors that a sequence of events leaves open, each with the peer it is connected to. A
descriptor may be handed out again once it is closed, so an event refers to the entry that is open
when it happens.
-/

namespace NrfExamples.Descriptors

inductive Event (Descriptor Peer : Type) where
  | opened (descriptor : Descriptor)
  | connected (descriptor : Descriptor) (peer : Peer)
  | closed (descriptor : Descriptor)

structure Entry (Descriptor Peer : Type) where
  descriptor : Descriptor
  peer : Option Peer
deriving DecidableEq

variable {Descriptor Peer : Type} [DecidableEq Descriptor]

def step (table : List (Entry Descriptor Peer)) :
    Event Descriptor Peer → List (Entry Descriptor Peer)
  | .opened descriptor => table ++ [⟨descriptor, none⟩]
  | .connected descriptor peer => table.map fun entry ↦
      if entry.descriptor = descriptor then ⟨descriptor, some peer⟩ else entry
  | .closed descriptor => table.filter fun entry ↦ entry.descriptor ≠ descriptor

/-- The descriptors that are open behind the events. -/
def openAfter (events : List (Event Descriptor Peer)) : List (Entry Descriptor Peer) :=
  events.foldl step []

variable (descriptor : Descriptor) (peer : Peer) (events : List (Event Descriptor Peer))

theorem openAfter_opened :
    openAfter [(.opened descriptor : Event Descriptor Peer)] = [⟨descriptor, none⟩] := rfl

theorem openAfter_connected :
    openAfter [.opened descriptor, .connected descriptor peer] =
      [⟨descriptor, some peer⟩] := by
  simp [openAfter, step]

/-- A descriptor that is closed again leaves nothing behind. -/
theorem openAfter_closed :
    openAfter (.opened descriptor :: .closed descriptor :: events) = openAfter events := by
  simp [openAfter, step]

end NrfExamples.Descriptors
