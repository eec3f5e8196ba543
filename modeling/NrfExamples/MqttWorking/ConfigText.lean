import NrfExamples.Library.Print
import NrfExamples.MqttWorking.Configuration

/-!
# Configuring the unit

The text that configures the unit to given settings. A call that receives it leaves exactly these
settings, for every four numbers, as long as no digit of an older text follows it in the buffer.
-/

namespace NrfExamples.MqttWorking

open Memory Scanf

/-- The text `CFG` with the four numbers of the settings. -/
def Settings.text (settings : Settings) : List Byte :=
  print (cfgFormat ++ [.hu]) [settings.rmsTrigStart, settings.rmsTrigEnd,
    settings.rmsTrigEndDuration, settings.bme280Enabled]

/-- A number is not preceded by white space of its own. -/
theorem endsBefore_space_decimalText (value : ℕ) (tail : List Byte) :
    Directive.space.EndsBefore (decimalText value ++ tail) := by
  intro byte hbyte
  have hmem : byte ∈ decimalText value := by
    rw [List.head?_append_of_ne_nil _ (decimalText_ne_nil value)] at hbyte
    exact List.mem_of_mem_head? hbyte
  exact (not_of_isDigit (isDigit_of_mem_decimalText value byte hmem)).1

theorem endsBefore_hu_space (tail : List Byte) : Directive.hu.EndsBefore (0x20 :: tail) := by
  intro byte hbyte
  rw [← Option.some.inj hbyte]
  decide

theorem legible_text (settings : Settings) {tail : List Byte}
    (hstop : Directive.hu.EndsBefore tail) :
    Legible (cfgFormat ++ [.hu]) [settings.rmsTrigStart, settings.rmsTrigEnd,
      settings.rmsTrigEndDuration, settings.bme280Enabled] tail := by
  have hnumber (value : UInt16) (format : List Directive) (values : List UInt16) :
      Directive.space.EndsBefore (print (.hu :: format) (value :: values) ++ tail) := by
    rw [print, List.append_assoc]
    exact endsBefore_space_decimalText _ _
  have hspace (format : List Directive) (values : List UInt16) :
      Directive.hu.EndsBefore (print (.space :: format) values ++ tail) :=
    endsBefore_hu_space _
  exact ⟨hnumber _ _ _, hspace _ _, hnumber _ _ _, hspace _ _, hnumber _ _ _, hspace _ _,
    hnumber _ _ _, hstop, rfl⟩

/-- The scan of the text reads its four numbers. -/
theorem sscanf_text (settings : Settings) {tail : List Byte}
    (hstop : Directive.hu.EndsBefore tail) :
    sscanf (settings.text ++ tail) (cfgFormat ++ [.hu]) = [settings.rmsTrigStart,
      settings.rmsTrigEnd, settings.rmsTrigEndDuration, settings.bme280Enabled] := by
  have hnul : .literal 0 ∉ cfgFormat ++ [.hu] := by
    simp [cfgFormat, cfg, ascii]
  exact sscanf_print hnul (legible_text settings hstop.cString)

/-- A text has the three letters, four spaces and at most five digits for each number. -/
theorem length_text_le (settings : Settings) : settings.text.length ≤ 27 := by
  have hdigits (value : UInt16) : (decimalText value.toNat).length ≤ 5 :=
    length_decimalText_le (value.toNat_lt.trans (by decide))
  have hlength : settings.text.length =
      4 + (decimalText settings.rmsTrigStart.toNat).length +
        (1 + (decimalText settings.rmsTrigEnd.toNat).length) +
        (1 + (decimalText settings.rmsTrigEndDuration.toNat).length) +
        (1 + (decimalText settings.bme280Enabled.toNat).length) := by
    simp only [Settings.text, cfgFormat, cfg, ascii, List.map_cons, List.map_nil,
      List.cons_append, List.nil_append, print, List.length_cons, List.length_append,
      List.append_nil]
    omega
  have hstart := hdigits settings.rmsTrigStart
  have hend := hdigits settings.rmsTrigEnd
  have hduration := hdigits settings.rmsTrigEndDuration
  have henabled := hdigits settings.bme280Enabled
  omega

theorem cfg_prefix_text (settings : Settings) : cfg <+: settings.text :=
  List.prefix_append cfg _

/-- The call receives the text of the settings, and no digit of an older text stands behind it. -/
structure TextReceived (env : PollEnv) (unit : UnitState) (settings : Settings) : Prop where
  delivered : ConfigDelivered env settings.text
  succeeds : env.Succeeds
  stops : Directive.hu.EndsBefore (unit.inbox.cfgBuff.1.drop settings.text.length)

theorem settings_of_text {env : PollEnv} {unit : UnitState} {settings : Settings}
    (h : TextReceived env unit settings) :
    (mqttPoolingProcedure env unit).state.settings = settings := by
  rw [settings_of_config h.delivered h.succeeds]
  exact configured_of_four (sscanf_text settings h.stops) unit.settings

/-- The buffer of a unit that has just booted holds no digits. -/
theorem textReceived_of_boot (settings : Settings) {unit : UnitState}
    (hinbox : unit.inbox = Inbox.boot) (send : SendEnv) :
    TextReceived (PollEnv.receiving settings.text send) unit settings where
  delivered := Program.configDelivered_receiving _ (cfg_prefix_text _)
    ((length_text_le _).trans (by decide)) _
  succeeds := PollEnv.succeeds_receiving _ _
  stops := by
    intro byte hbyte
    rw [hinbox] at hbyte
    have hzero : byte ∈ List.replicate cfgBuffSize (0 : Byte) :=
      List.mem_of_mem_drop (List.mem_of_mem_head? hbyte)
    rw [List.eq_of_mem_replicate hzero]
    decide

end NrfExamples.MqttWorking
