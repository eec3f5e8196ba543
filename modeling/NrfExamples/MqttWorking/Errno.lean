import Mathlib.Algebra.Order.Ring.Int

/-!
# Error numbers

The numbers behind the error names of the C library that the modelled functions return or compare.
-/

namespace NrfExamples.MqttWorking

def eio : ℤ := 5

def eagain : ℤ := 11

def emsgsize : ℤ := 122

def enotsup : ℤ := 134

end NrfExamples.MqttWorking
