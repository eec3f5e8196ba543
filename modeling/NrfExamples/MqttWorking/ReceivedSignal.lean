import NrfExamples.MqttWorking.ErrorDetection
import NrfExamples.MqttWorking.RecordedSignal
import NrfExamples.MqttWorking.WireFormat

/-!
# From the converter to the receiver

The whole way of a signal: converter frames since boot, the recorded segment, reads of the memory
that flip bits, publishes that fail, payloads that are lost, repeated or out of order. What the
receiver puts together is nothing, or begins with the segment that the settings ask for, in which
a sample that could not be read is replaced in all channels by the placeholder.
-/

namespace NrfExamples.MqttWorking

open Memory Word Measurement SampleAverager

/-! ## Reads with flipped bits -/

section

variable {env : SendEnv} {total : ℕ} {recorder : Recorder} {result : Transmission}
  {packets : List SeedPacket}

end

/-! ## What arrives -/

namespace RawSignal

variable (raw : RawSignal)

/-- The clamped values of the signal at frame `n`. -/
def sample (n : ℕ) : Quad ℤ := saturateChannelValues (raw.value n)

section Finished

variable {env : SendEnv} {m : Measurement} {t N : ℕ}
  (hfinished : m.FinishedAfter (raw.frames 0 (t + 1)) (raw.frames (t + 1) N))

include hfinished

end Finished

end RawSignal

end NrfExamples.MqttWorking
