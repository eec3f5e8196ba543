import NrfExamples.Library.Faulting
import NrfExamples.Library.Heap
import NrfExamples.Library.Trace
import Mathlib.Algebra.Order.Ring.Int

/-!
# Documents of the AWS IoT client

`shadow_update` and `publish_custom_topic` build a JSON tree, print it, send the text and delete the
tree; a received message is parsed, printed and searched for the item `reset`. The tree library
and the allocator are parameters: which requests for memory are granted, which items can be added,
what a text parses to. A tree is one block of the heap until it is added to another one.

`json_add_obj` drops the result of `cJSON_AddItemToObject`. Where an item is refused, its tree stays
allocated for good and the document goes out without it.
-/

namespace NrfExamples.AwsIot

open Faulting

/-! ## Trees and memory -/

inductive Json (Number : Type) where
  | null
  | bool (value : Bool)
  | number (value : Number)
  | string (value : String)
  | array (items : List (Json Number))
  | object (members : List (String × Json Number))

/-- A tree that is not part of another one, or a printed text. -/
inductive Block (Number : Type) where
  | item (json : Json Number)
  | text (json : Json Number)

inductive Topic where
  | shadowUpdate
  | custom (name : String)
deriving DecidableEq

structure Publication (Number : Type) where
  topic : Topic
  message : Json Number

/-- The lines on the console. -/
inductive Line (Number : Type) where
  | error (text : String) (err : ℤ)
  | printFailed (text : String)
  | publishing (message : Json Number)
  | received (topic : String) (message : Json Number)
  | parseFailure
  /-- The item may be something else than a number. -/
  | reset (value : Option Number)

/-- The heap, the calls of the allocator and of `cJSON_AddItemToObject` so far, how many of the
latter were refused, and the output. -/
structure JsonMemory (Number : Type) where
  heap : Heap (Block Number)
  requests : ℕ
  additions : ℕ
  refused : ℕ
  sent : List (Publication Number)
  console : List (Line Number)

/-- The library. A request that is answered with no block or with one in use fails. -/
structure CJson (Number : Type) where
  block : ℕ → Option ℕ
  adds : ℕ → Bool
  parse : String → Option (Json Number)
  ofInt : ℤ → Number

/-- What the other calls of a shadow update return, and the values they store. -/
structure Calls where
  dateTimeNow : ℤ
  messageTs : ℤ
  modemInfoShortGet : ℤ
  batVoltage : ℤ
  awsIotSend : ℤ

def enomem : ℤ := 12

variable {Number : Type}

def JsonMemory.start : JsonMemory Number where
  heap := Heap.empty
  requests := 0
  additions := 0
  refused := 0
  sent := []
  console := []

namespace CJson

variable (lib : CJson Number)

/-! ## Library calls -/

def allocate (content : Block Number) : Program (JsonMemory Number) (Option ℕ) := fun memory ↦
  let asked := { memory with requests := memory.requests + 1 }
  match lib.block memory.requests with
  | none => some (none, asked)
  | some block =>
      match memory.heap.malloc block content with
      | none => some (none, asked)
      | some heap => some (some block, { asked with heap := heap })

def createObject : Program (JsonMemory Number) (Option ℕ) := lib.allocate (.item (.object []))

def createString (string : String) : Program (JsonMemory Number) (Option ℕ) :=
  lib.allocate (.item (.string string))

def createNumber (number : Number) : Program (JsonMemory Number) (Option ℕ) :=
  lib.allocate (.item (.number number))

/-- `cJSON_AddItemToObject`. What is added is a part of the other tree from then on. -/
def addItemToObject (object : ℕ) (key : String) (item : ℕ) : Program (JsonMemory Number) Bool :=
  fun memory ↦
    let asked := { memory with additions := memory.additions + 1 }
    match memory.heap object, memory.heap item with
    | some (.item (.object members)), some (.item json) =>
        if lib.adds memory.additions then do
          let heap ← memory.heap.store object (.item (.object (members ++ [(key, json)])))
          let heap ← heap.free item
          some (true, { asked with heap := heap })
        else some (false, { asked with refused := memory.refused + 1 })
    | _, _ => none

/-- `cJSON_Delete`, which takes a null pointer too. -/
def delete : Option ℕ → Program (JsonMemory Number) Unit
  | none => pure ()
  | some item => fun memory ↦
      match memory.heap item with
      | some (.item _) => (memory.heap.free item).map fun heap ↦ ((), { memory with heap := heap })
      | _ => none

/-- The tree behind a pointer. -/
def getItem (item : ℕ) : Program (JsonMemory Number) (Json Number) := fun memory ↦
  match memory.heap item with
  | some (.item json) => some (json, memory)
  | _ => none

/-- The tree that a printed text stands for. -/
def getText (text : ℕ) : Program (JsonMemory Number) (Json Number) := fun memory ↦
  match memory.heap text with
  | some (.text json) => some (json, memory)
  | _ => none

def print (item : ℕ) : Program (JsonMemory Number) (Option ℕ) := do
  let json ← getItem item
  lib.allocate (.text json)

def freeString (text : ℕ) : Program (JsonMemory Number) Unit := fun memory ↦
  match memory.heap text with
  | some (.text _) => (memory.heap.free text).map fun heap ↦ ((), { memory with heap := heap })
  | _ => none

def parseText (buf : String) : Program (JsonMemory Number) (Option ℕ) :=
  match lib.parse buf with
  | none => pure none
  | some json => lib.allocate (.item json)

def printk (line : Line Number) : Program (JsonMemory Number) Unit := fun memory ↦
  some ((), { memory with console := memory.console ++ [line] })

/-- The test of a result that is only printed. -/
def reportError (text : String) (err : ℤ) : Program (JsonMemory Number) Unit :=
  if err ≠ 0 then printk (.error text err) else pure ()

def send (topic : Topic) (text : ℕ) : Program (JsonMemory Number) Unit := do
  let message ← getText text
  fun memory ↦ some ((), { memory with sent := memory.sent ++ [⟨topic, message⟩] })

/-! ## Building blocks -/

def jsonAddObj (parent : ℕ) (str : String) (item : ℕ) : Program (JsonMemory Number) ℤ := do
  let _ ← lib.addItemToObject parent str item
  return 0

/-- `json_add_str` and `json_add_number` from the creation of the item on. -/
def jsonAddCreated (parent : ℕ) (str : String) (created : Option ℕ) :
    Program (JsonMemory Number) ℤ :=
  match created with
  | none => pure (-enomem)
  | some item => lib.jsonAddObj parent str item

def jsonAddStr (parent : ℕ) (str item : String) : Program (JsonMemory Number) ℤ := do
  lib.jsonAddCreated parent str (← lib.createString item)

def jsonAddNumber (parent : ℕ) (str : String) (item : Number) : Program (JsonMemory Number) ℤ := do
  lib.jsonAddCreated parent str (← lib.createNumber item)

/-- From `cJSON_Print` to `cJSON_FreeString`. -/
def printAndSend (awsIotSend : ℤ) (topic : Topic) (rootObj : ℕ) :
    Program (JsonMemory Number) ℤ := do
  match ← lib.print rootObj with
  | none =>
      printk (.printFailed "cJSON_Print, error: returned NULL\n")
      return -enomem
  | some message =>
      printk (.publishing (← getText message))
      send topic message
      reportError "aws_iot_send, error: %d\n" awsIotSend
      freeString message
      return awsIotSend

/-- From the test of what was added to the label `cleanup`. -/
def sendAdded (awsIotSend : ℤ) (topic : Topic) (rootObj : ℕ) (err : ℤ) :
    Program (JsonMemory Number) ℤ :=
  if err ≠ 0 then do
    printk (.error "json_add, error: %d\n" err)
    return err
  else lib.printAndSend awsIotSend topic rootObj

def finish (awsIotSend : ℤ) (topic : Topic) (rootObj : ℕ) (err : ℤ) :
    Program (JsonMemory Number) ℤ := do
  let err ← lib.sendAdded awsIotSend topic rootObj err
  delete (some rootObj)
  return err

/-! ## Functions -/

def addVersion (appVersion : String) (versionNumberInclude : Bool) (reportedObj : ℕ) :
    Program (JsonMemory Number) ℤ :=
  if versionNumberInclude then lib.jsonAddStr reportedObj "app_version" appVersion else pure 0

/-- The members of the three objects. -/
def fillShadow (appVersion : String) (calls : Calls) (versionNumberInclude : Bool)
    (rootObj stateObj reportedObj : ℕ) : Program (JsonMemory Number) ℤ := do
  let version ← lib.addVersion appVersion versionNumberInclude reportedObj
  let batv ← lib.jsonAddNumber reportedObj "batv" (lib.ofInt calls.batVoltage)
  let ts ← lib.jsonAddNumber reportedObj "ts" (lib.ofInt calls.messageTs)
  let reported ← lib.jsonAddObj stateObj "reported" reportedObj
  let state ← lib.jsonAddObj rootObj "state" stateObj
  return version + batv + ts + reported + state

def buildShadow (appVersion : String) (calls : Calls) (versionNumberInclude : Bool) :
    Program (JsonMemory Number) ℤ := do
  let rootObj ← lib.createObject
  let stateObj ← lib.createObject
  let reportedObj ← lib.createObject
  match rootObj, stateObj, reportedObj with
  | some rootObj, some stateObj, some reportedObj =>
      let err ← lib.fillShadow appVersion calls versionNumberInclude rootObj stateObj reportedObj
      lib.finish calls.awsIotSend .shadowUpdate rootObj err
  | rootObj, stateObj, reportedObj =>
      delete rootObj
      delete stateObj
      delete reportedObj
      return -enomem

/-- `sizeof(bat_voltage)`. -/
def sizeofBatVoltage : ℤ := 2

def shadowUpdate (appVersion : String) (calls : Calls) (versionNumberInclude : Bool) :
    Program (JsonMemory Number) ℤ :=
  if calls.dateTimeNow ≠ 0 then do
    printk (.error "date_time_now, error: %d\n" calls.dateTimeNow)
    return calls.dateTimeNow
  else if calls.modemInfoShortGet ≠ sizeofBatVoltage then do
    printk (.error "modem_info_short_get, error: %d\n" calls.modemInfoShortGet)
    return calls.modemInfoShortGet
  else lib.buildShadow appVersion calls versionNumberInclude

def awsIotPubCustomTopic : String := "my-custom-topic/status"

def publishCustomTopic (awsIotSend : ℤ) : Program (JsonMemory Number) ℤ := do
  match ← lib.createObject with
  | none =>
      delete none
      return -enomem
  | some rootObj =>
      let err ← lib.jsonAddNumber rootObj "Test" (lib.ofInt 1)
      lib.finish awsIotSend (.custom awsIotPubCustomTopic) rootObj err

def printReceivedData (buf topic : String) : Program (JsonMemory Number) Unit := do
  match ← lib.parseText buf with
  | none => printk .parseFailure
  | some rootObj =>
      match ← lib.print rootObj with
      | none => printk (.printFailed "Failed to print JSON object")
      | some str =>
          printk (.received topic (← getText str))
          freeString str
      delete (some rootObj)

/-- `cJSON_GetObjectItem`, which does not distinguish upper and lower case. -/
def getObjectItem (name : String) : Json Number → Option (Json Number)
  | .object members => (members.find? fun member ↦ member.1.toLower = name.toLower).map Prod.snd
  | _ => none

def getNumberValue : Json Number → Option Number
  | .number value => some value
  | _ => none

/-- The block behind `cJSON_HasObjectItem`. -/
def printReset (json : Json Number) : Program (JsonMemory Number) Unit :=
  match getObjectItem "reset" json with
  | none => pure ()
  | some item => printk (.reset (getNumberValue item))

def processCustomTopic (buf : String) : Program (JsonMemory Number) Unit := do
  match ← lib.parseText buf with
  | none => printk .parseFailure
  | some rootObj =>
      printReset (← getItem rootObj)
      delete (some rootObj)

def awsIotSubCustomTopic : String := "my-custom-topic/set"

/-- `strncmp` over the length of the first text, with a terminator behind the second one. -/
def strncmpEqual : List Char → List Char → Bool
  | [], _ => true
  | first :: _, [] => first = Char.ofNat 0
  | first :: firsts, second :: seconds => first = second && strncmpEqual firsts seconds

def processReceivedData (buf topic : String) : Program (JsonMemory Number) Unit :=
  if strncmpEqual topic.toList awsIotSubCustomTopic.toList then lib.processCustomTopic buf
  else pure ()

/-- `AWS_IOT_EVT_DATA_RECEIVED`. -/
def dataReceived (buf topic : String) : Program (JsonMemory Number) Unit := do
  lib.printReceivedData buf topic
  lib.processReceivedData buf topic

end CJson

end NrfExamples.AwsIot
