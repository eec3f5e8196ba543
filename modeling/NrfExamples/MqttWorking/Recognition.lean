import NrfExamples.MqttWorking.MqttConnection

/-!
# Recognition of commands

The handler compares the first three bytes of the receive buffer, whatever the length of the
message. A message of three bytes or more fills them, so its commands do not depend on what was
received before it. A shorter message that begins a command text is completed by the bytes that an
earlier command left in the buffer.
-/

namespace NrfExamples.MqttWorking

open Memory

def commands : List (List Byte) := [rst, ldm, skp, cfg]

theorem command_text : ∀ command ∈ commands, command.length = 3 ∧ ∀ byte ∈ command, byte ≠ 0 := by
  decide

/-- The inbox after a history of messages. -/
def receivedAll (inbox : Inbox) (history : List Delivery) : Inbox :=
  history.foldl (fun inbox delivery ↦ (mqttEvtHandler inbox delivery).1) inbox

/-- The flags that the handling of one message sets. -/
def flagsSet (inbox : Inbox) (delivery : Delivery) : CommandFlags :=
  (mqttEvtHandler { inbox with flags := CommandFlags.clear } delivery).1.flags

/-! ## The bytes compared -/

theorem compareBufferToText_command (buffer : Buffer mqttBufferSize) {command : List Byte}
    (hcommand : command ∈ commands) :
    compareBufferToText buffer command = true ↔ buffer.1.take 3 = command :=
  compareBufferToText_iff buffer (command_text command hcommand).1 (command_text command hcommand).2

/-- The flags depend on the first three bytes alone. -/
theorem recognised_congr {buffer other : Buffer mqttBufferSize}
    (h : buffer.1.take 3 = other.1.take 3) : recognised buffer = recognised other := by
  simp only [recognised, compareBufferToText, h]

theorem recognised_eq_clear_iff (buffer : Buffer mqttBufferSize) :
    recognised buffer = CommandFlags.clear ↔ ∀ command ∈ commands, buffer.1.take 3 ≠ command := by
  calc
    recognised buffer = CommandFlags.clear ↔
        ∀ command ∈ commands, compareBufferToText buffer command = false := by
      simp [recognised, CommandFlags.clear, commands]
    _ ↔ ∀ command ∈ commands, buffer.1.take 3 ≠ command := by
      apply forall₂_congr
      intro command hcommand
      rw [Ne, ← compareBufferToText_command buffer hcommand, Bool.not_eq_true]

theorem flagsSet_of_accepted {delivery : Delivery} (h : delivery.Accepted) (inbox : Inbox) :
    flagsSet inbox delivery =
      recognised (inbox.payloadBuf.store delivery.payload delivery.payload.length) := by
  rw [flagsSet, mqttEvtHandler_of_accepted h, handleCommand_eq]
  simp [CommandFlags.union, CommandFlags.clear]

/-- The first three bytes behind an accepted message. -/
theorem take_three_store {delivery : Delivery} (h : delivery.Accepted)
    (buffer : Buffer mqttBufferSize) :
    (buffer.store delivery.payload delivery.payload.length).1.take 3 =
      delivery.payload.take 3 ++
        (buffer.1.drop delivery.payload.length).take (3 - delivery.payload.length) := by
  rw [Buffer.store_eq buffer le_rfl h.1, List.take_length, List.take_append]

/-! ## Whole commands -/

theorem take_three_of_prefix {delivery : Delivery} (h : delivery.Accepted) {command : List Byte}
    (hcommand : command ∈ commands) (hbegin : command <+: delivery.payload)
    (buffer : Buffer mqttBufferSize) :
    (buffer.store delivery.payload delivery.payload.length).1.take 3 = command := by
  have hlength := (command_text command hcommand).1
  have hlong : 3 ≤ delivery.payload.length := hlength ▸ hbegin.length_le
  rw [take_three_store h, Nat.sub_eq_zero_of_le hlong, List.take_zero, List.append_nil, ← hlength]
  exact (List.prefix_iff_eq_take.mp hbegin).symm

/-- The flags that one command sets. -/
def CommandFlags.ofCommand (command : List Byte) : CommandFlags where
  mqttTriggerReset := command = rst
  dumpLogFlag := command = ldm
  mqttSkipInitProcedure := command = skp
  configRequestFlag := command = cfg

theorem compareBufferToText_of_prefix {delivery : Delivery} (h : delivery.Accepted)
    {command other : List Byte} (hcommand : command ∈ commands)
    (hbegin : command <+: delivery.payload) (buffer : Buffer mqttBufferSize)
    (hother : other ∈ commands) :
    compareBufferToText (buffer.store delivery.payload delivery.payload.length) other =
      decide (command = other) := by
  rw [Bool.eq_iff_iff, compareBufferToText_command _ hother,
    take_three_of_prefix h hcommand hbegin, decide_eq_true_iff]

/-- A message that begins with a command sets the flag of this command alone. -/
theorem recognised_of_prefix {delivery : Delivery} (h : delivery.Accepted) {command : List Byte}
    (hcommand : command ∈ commands) (hbegin : command <+: delivery.payload)
    (buffer : Buffer mqttBufferSize) :
    recognised (buffer.store delivery.payload delivery.payload.length) =
      CommandFlags.ofCommand command := by
  have hcompare (other : List Byte) (hother : other ∈ commands) :=
    compareBufferToText_of_prefix h hcommand hbegin buffer hother
  rw [recognised, hcompare rst (by decide), hcompare ldm (by decide), hcompare skp (by decide),
    hcompare cfg (by decide), CommandFlags.ofCommand]

/-! ## Short messages -/

/-- A command in the buffer behind a short message begins with the message. -/
theorem prefix_of_take_three {delivery : Delivery} (h : delivery.Accepted)
    (hshort : delivery.payload.length < 3) {buffer : Buffer mqttBufferSize} {command : List Byte}
    (hcommand : (buffer.store delivery.payload delivery.payload.length).1.take 3 = command) :
    delivery.payload <+: command := by
  rw [take_three_store h, List.take_of_length_le hshort.le] at hcommand
  exact ⟨_, hcommand⟩

/-- The first three bytes of an empty receive buffer are never completed to a command. -/
theorem flagsSet_boot_of_short {delivery : Delivery} (h : delivery.Accepted)
    (hshort : delivery.payload.length < 3) :
    flagsSet Inbox.boot delivery = CommandFlags.clear := by
  rw [flagsSet_of_accepted h, recognised_eq_clear_iff]
  intro command hcommand heq
  have hnul : (0 : Byte) ∈ command := by
    rw [← heq, take_three_store h]
    apply List.mem_append_right
    have hcount : min (3 - delivery.payload.length) (mqttBufferSize - delivery.payload.length) =
        3 - delivery.payload.length :=
      Nat.min_eq_left (Nat.sub_le_sub_right (by decide) _)
    simp only [Inbox.boot, Buffer.zero, List.drop_replicate, List.take_replicate, hcount]
    exact List.mem_replicate.mpr ⟨by omega, rfl⟩
  exact (command_text command hcommand).2 0 hnul rfl

/-- Behind a whole command the beginning of the same command is taken for it. -/
theorem flagsSet_behind_command {delivery : Delivery} (h : delivery.Accepted) {command : List Byte}
    (hcommand : command ∈ commands) (hbegin : delivery.payload <+: command) :
    flagsSet (receivedAll Inbox.boot [Delivery.complete command]) delivery ≠
      CommandFlags.clear := by
  have hlength := (command_text command hcommand).1
  have haccepted : (Delivery.complete command).Accepted := by
    refine ⟨?_, rfl⟩
    rw [show (Delivery.complete command).payload = command from rfl, hlength]
    decide
  rw [flagsSet_of_accepted h, Ne, recognised_eq_clear_iff]
  intro hnone
  apply hnone command hcommand
  have hbuffer : (receivedAll Inbox.boot [Delivery.complete command]).payloadBuf =
      Inbox.boot.payloadBuf.store command command.length := by
    rw [receivedAll, List.foldl_cons, mqttEvtHandler_of_accepted haccepted, handleCommand_eq]
    rfl
  have hle : delivery.payload.length ≤ 3 := hlength ▸ hbegin.length_le
  have hfront : (Inbox.boot.payloadBuf.store command command.length).1 =
      command ++ Inbox.boot.payloadBuf.1.drop command.length := by
    rw [Buffer.store_eq _ le_rfl (hlength.le.trans (by decide)), List.take_length]
  calc
    ((receivedAll Inbox.boot [Delivery.complete command]).payloadBuf.store delivery.payload
          delivery.payload.length).1.take 3 =
        delivery.payload.take 3 ++ ((command ++ Inbox.boot.payloadBuf.1.drop command.length).drop
          delivery.payload.length).take (3 - delivery.payload.length) := by
      rw [take_three_store h, hbuffer, hfront]
    _ = delivery.payload ++ command.drop delivery.payload.length := by
      rw [List.take_of_length_le hle, List.drop_append_of_le_length hbegin.length_le,
        List.take_append_of_le_length, List.take_of_length_le]
      · rw [List.length_drop, hlength]
      · rw [List.length_drop, hlength]
    _ = command := by
      conv_rhs => rw [← List.take_append_drop delivery.payload.length command]
      rw [← List.prefix_iff_eq_take.mp hbegin]

/-! ## Independence of earlier messages -/

/-- The flags set by an accepted message are the same after every history exactly when it has three
bytes or more, or begins no command. -/
theorem flagsSet_independent_iff (delivery : Delivery) (h : delivery.Accepted) :
    (∀ first second : List Delivery, flagsSet (receivedAll Inbox.boot first) delivery =
        flagsSet (receivedAll Inbox.boot second) delivery) ↔
      3 ≤ delivery.payload.length ∨ ∀ command ∈ commands, ¬ delivery.payload <+: command := by
  constructor
  · intro hsame
    by_contra hleak
    push Not at hleak
    obtain ⟨hshort, command, hcommand, hbegin⟩ := hleak
    apply flagsSet_behind_command h hcommand hbegin
    rw [hsame _ [], receivedAll, List.foldl_nil]
    exact flagsSet_boot_of_short h hshort
  · intro hcondition first second
    rw [flagsSet_of_accepted h, flagsSet_of_accepted h]
    by_cases hlong : 3 ≤ delivery.payload.length
    · apply recognised_congr
      rw [take_three_store h, take_three_store h, Nat.sub_eq_zero_of_le hlong]
      rfl
    · have hnone (inbox : Inbox) : recognised
          (inbox.payloadBuf.store delivery.payload delivery.payload.length) =
            CommandFlags.clear := by
        rw [recognised_eq_clear_iff]
        intro command hcommand heq
        exact hcondition.resolve_left hlong command hcommand
          (prefix_of_take_three h (not_le.mp hlong) heq)
      rw [hnone, hnone]

theorem flagsSet_independent_iff_rst :
    (∀ first second : List Delivery,
        flagsSet (receivedAll Inbox.boot first) (Delivery.complete rst) =
          flagsSet (receivedAll Inbox.boot second) (Delivery.complete rst)) ↔
      3 ≤ (Delivery.complete rst).payload.length ∨
        ∀ command ∈ commands, ¬ (Delivery.complete rst).payload <+: command :=
  flagsSet_independent_iff (Delivery.complete rst) ⟨by decide, rfl⟩

/-- A one-byte message requests a log dump when the message before it was `LDM`. -/
theorem dump_completed_by_earlier_message :
    ¬ ∀ first second : List Delivery,
      flagsSet (receivedAll Inbox.boot first) (Delivery.complete (ascii ['L'])) =
        flagsSet (receivedAll Inbox.boot second) (Delivery.complete (ascii ['L'])) := by
  have haccepted : (Delivery.complete (ascii ['L'])).Accepted := ⟨by decide, rfl⟩
  intro hsame
  apply flagsSet_behind_command haccepted (by decide : ldm ∈ commands) ⟨ascii ['D', 'M'], rfl⟩
  rw [hsame _ [], receivedAll, List.foldl_nil]
  exact flagsSet_boot_of_short haccepted (by decide)

end NrfExamples.MqttWorking
