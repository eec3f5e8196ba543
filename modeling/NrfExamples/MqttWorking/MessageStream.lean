import NrfExamples.Library.Trace
import NrfExamples.MqttWorking.PayloadReads
import NrfExamples.MqttWorking.Recognition

/-!
# The messages of a connection

The messages of a connection stand one behind the other in one stream of bytes. The library takes
the header of a message from it and calls `mqtt_evt_handler`, which takes the payload. What it left
of a payload would stand in front of the next header. As long as the client is not disconnected
every payload is taken to its last byte, so the handler sees of each message the bytes that stand at
its place in the stream.
-/

namespace NrfExamples.MqttWorking

open Memory Trace

namespace PayloadStream

/-- A message: the bytes of its header, and its payload with the results of the reads. -/
structure Published where
  header : ℕ
  length : UInt32
  transport : Transport

/-- The reads take some bytes or fail, and with other errors than the one that the handler takes for
a payload that was too long. -/
structure Published.Documented (message : Published) : Prop where
  blocking_ne : ∀ n requested, message.transport.blocking n requested ≠ -emsgsize
  readall_le : message.transport.readall ≤ 0
  readall_ne : message.transport.readall ≠ -emsgsize

/-- Every read of the message succeeds. -/
def Published.Succeeds (message : Published) : Prop :=
  AllSucceed message.transport message.length.toNat ∧ message.transport.readall = 0

namespace Connection

end Connection

/-! ## The layout of the stream -/

/-- The position behind a message that begins at the given one. -/
def Published.behind (position : ℕ) (message : Published) : ℕ :=
  position + message.header + message.length.toNat

variable {stream : Store} {connection next : Connection} {message : Published}

variable {messages : List Published} {final : Connection} {inbox : Inbox}

end PayloadStream

end NrfExamples.MqttWorking
