import NrfExamples.AwsIot.ShadowDocument

/-!
# Memory and contents of the documents

Over any sequence of calls, with every answer of the allocator and of `cJSON_AddItemToObject`: no
call accesses or frees a tree that is not allocated, every refused addition leaves exactly one tree
behind and nothing else does, and the document of a call is complete exactly if the call had no
addition refused.
-/

namespace NrfExamples.AwsIot

open Faulting

variable {Number : Type}

namespace JsonMemory

/-- The trees and texts are those held and, for each refused addition, one lost for good. -/
def Keeps (memory : JsonMemory Number) (held : List (ℕ × Block Number)) : Prop :=
  ∃ lost, memory.heap.Holds held lost ∧ lost.length = memory.refused

/-- No addition was refused and nothing sent, and the blocks held are these. -/
structure Quiet (memory final : JsonMemory Number) (held : List (ℕ × Block Number)) : Prop where
  keeps : final.Keeps held
  refused_eq : final.refused = memory.refused
  sent_eq : final.sent = memory.sent

variable {memory mid final : JsonMemory Number} {held other : List (ℕ × Block Number)}
  {block : ℕ} {content : Block Number}

theorem Keeps.perm (h : memory.Keeps held) (hperm : other.Perm held) : memory.Keeps other := by
  obtain ⟨lost, hheld, hlost⟩ := h
  exact ⟨lost, hheld.perm hperm, hlost⟩

theorem Quiet.trans (h : memory.Quiet mid other) (h' : mid.Quiet final held) :
    memory.Quiet final held where
  keeps := h'.keeps
  refused_eq := h'.refused_eq.trans h.refused_eq
  sent_eq := h'.sent_eq.trans h.sent_eq

theorem Keeps.heap_eq (h : memory.Keeps ((block, content) :: held)) :
    memory.heap block = some content := by
  obtain ⟨_, hheld, _⟩ := h
  exact hheld.content_eq (block, content) List.mem_cons_self

theorem Keeps.free (h : memory.Keeps ((block, content) :: held)) :
    ∃ heap, memory.heap.free block = some heap ∧
      memory.Quiet { memory with heap := heap } held := by
  obtain ⟨lost, hheld, hlost⟩ := h
  obtain ⟨heap, hfree, hrest⟩ := hheld.free
  exact ⟨heap, hfree, ⟨lost, hrest, hlost⟩, rfl, rfl⟩

theorem keeps_start : (start : JsonMemory Number).Keeps [] :=
  ⟨[], ⟨Heap.owns_empty, fun _ hentry ↦ absurd hentry List.not_mem_nil⟩, rfl⟩

end JsonMemory

namespace CJson

open JsonMemory

variable {lib : CJson Number} {memory : JsonMemory Number} {held : List (ℕ × Block Number)}

/-! ## Library calls -/

/-- The block that a pointer stands for. -/
def owned (block : Option ℕ) (content : Block Number) : List (ℕ × Block Number) :=
  (block.map fun block ↦ (block, content)).toList

theorem ends_allocate (h : memory.Keeps held) (content : Block Number) :
    Ends (lib.allocate content) memory fun block final ↦
      memory.Quiet final (owned block content ++ held) := by
  unfold Ends allocate
  cases lib.block memory.requests with
  | none => exact ⟨none, _, rfl, h, rfl, rfl⟩
  | some block =>
    cases hmalloc : memory.heap.malloc block content with
    | none =>
      exact ⟨none, { memory with requests := memory.requests + 1 }, by simp only [hmalloc], h, rfl,
        rfl⟩
    | some heap =>
      obtain ⟨lost, hheld, hlost⟩ := h
      exact ⟨some block, { memory with requests := memory.requests + 1, heap := heap },
        by simp only [hmalloc], ⟨lost, hheld.malloc hmalloc, hlost⟩, rfl, rfl⟩

theorem ends_delete {json : Json Number} (block : Option ℕ)
    (h : memory.Keeps (owned block (.item json) ++ held)) :
    Ends (delete block) memory fun _ final ↦ memory.Quiet final held := by
  cases block with
  | none => exact ends_pure ⟨h, rfl, rfl⟩
  | some block =>
    have hcontent : memory.heap block = some (.item json) := Keeps.heap_eq h
    obtain ⟨heap, hfree, hquiet⟩ := Keeps.free h
    have hdelete : delete (some block) memory = some ((), { memory with heap := heap }) := by
      simp only [delete, hcontent, hfree, Option.map_some]
    exact ⟨(), _, hdelete, hquiet⟩

theorem ends_freeString {json : Json Number} {text : ℕ}
    (h : memory.Keeps ((text, .text json) :: held)) :
    Ends (freeString text) memory fun _ final ↦ memory.Quiet final held := by
  obtain ⟨heap, hfree, hquiet⟩ := h.free
  have hfreed : freeString text memory = some ((), { memory with heap := heap }) := by
    simp only [freeString, h.heap_eq, hfree, Option.map_some]
  exact ⟨(), _, hfreed, hquiet⟩

theorem ends_getItem {json : Json Number} {item : ℕ}
    (h : memory.Keeps ((item, .item json) :: held)) :
    Ends (getItem item) memory fun value final ↦ value = json ∧ final = memory :=
  ⟨json, memory, by simp only [getItem, h.heap_eq], rfl, rfl⟩

theorem ends_getText {json : Json Number} {text : ℕ}
    (h : memory.Keeps ((text, .text json) :: held)) :
    Ends (getText text) memory fun value final ↦ value = json ∧ final = memory :=
  ⟨json, memory, by simp only [getText, h.heap_eq], rfl, rfl⟩

theorem ends_printk (h : memory.Keeps held) (line : Line Number) :
    Ends (printk line) memory fun _ final ↦ memory.Quiet final held :=
  ⟨(), _, rfl, h, rfl, rfl⟩

theorem ends_reportError (h : memory.Keeps held) (text : String) (err : ℤ) :
    Ends (reportError text err) memory fun _ final ↦ memory.Quiet final held :=
  ends_ite (fun _ ↦ ends_printk h _) fun _ ↦ ends_pure ⟨h, rfl, rfl⟩

theorem ends_print {json : Json Number} {item : ℕ}
    (h : memory.Keeps ((item, .item json) :: held)) :
    Ends (lib.print item) memory fun text final ↦
      memory.Quiet final (owned text (.text json) ++ (item, .item json) :: held) := by
  apply (ends_getItem h).bind
  rintro value final ⟨rfl, rfl⟩
  exact ends_allocate h (.text value)

theorem ends_send {json : Json Number} {text : ℕ}
    (h : memory.Keeps ((text, .text json) :: held)) (topic : Topic) :
    Ends (send topic text) memory fun _ final ↦ final.Keeps ((text, .text json) :: held) ∧
      final.refused = memory.refused ∧ final.sent = memory.sent ++ [⟨topic, json⟩] := by
  apply (ends_getText h).bind
  rintro value final ⟨rfl, rfl⟩
  exact ⟨(), _, rfl, h, rfl, rfl⟩

/-! ## Additions -/

/-- What an addition leaves: the value returned, the refused additions and the new members. -/
inductive Adds (member : String × Json Number) (refused : ℕ) :
    ℤ → ℕ → List (String × Json Number) → Prop where
  | added : Adds member refused 0 refused [member]
  | refused : Adds member refused 0 (refused + 1) []
  | noMemory : Adds member refused (-enomem) refused []

/-- The value `err` returned and the state behind an addition. -/
def AddsTo (member : String × Json Number) (object : ℕ) (members : List (String × Json Number))
    (held : List (ℕ × Block Number)) (memory : JsonMemory Number) (err : ℤ)
    (final : JsonMemory Number) : Prop :=
  final.sent = memory.sent ∧ ∃ added,
    final.Keeps ((object, .item (.object (members ++ added))) :: held) ∧
      Adds member memory.refused err final.refused added

variable {object item : ℕ} {members : List (String × Json Number)} {json : Json Number}

/-- A refused item is lost, an added one is a part of the other tree. -/
theorem ends_addItemToObject (key : String)
    (h : memory.Keeps ((object, .item (.object members)) :: (item, .item json) :: held)) :
    Ends (lib.addItemToObject object key item) memory fun _ final ↦
      AddsTo (key, json) object members held memory 0 final := by
  have hobject : memory.heap object = some (.item (.object members)) := h.heap_eq
  have hitem : memory.heap item = some (.item json) :=
    (h.perm (List.Perm.swap _ _ _)).heap_eq
  obtain ⟨lost, hheld, hlost⟩ := h
  unfold Ends addItemToObject
  simp only [hobject, hitem]
  by_cases hadds : lib.adds memory.additions = true
  · obtain ⟨mid, hstore, hmid⟩ := hheld.store (.item (.object (members ++ [(key, json)])))
    obtain ⟨heap, hfree, hrest⟩ := (hmid.perm (List.Perm.swap _ _ _)).free
    refine ⟨true, { memory with additions := memory.additions + 1, heap := heap }, ?_, rfl,
      [(key, json)], ⟨lost, hrest, hlost⟩, .added⟩
    simp only [if_pos hadds, hstore, hfree, Option.bind_eq_bind, Option.bind_some]
  · have hrest := (hheld.perm (List.Perm.swap _ _ _)).lose
    refine ⟨false, { memory with
        additions := memory.additions + 1
        refused := memory.refused + 1 }, if_neg hadds, rfl, [],
      ⟨item :: lost, ?_, congrArg Nat.succ hlost⟩, .refused⟩
    rwa [List.append_nil]

theorem ends_jsonAddObj (str : String)
    (h : memory.Keeps ((object, .item (.object members)) :: (item, .item json) :: held)) :
    Ends (lib.jsonAddObj object str item) memory fun err final ↦
      err = 0 ∧ AddsTo (str, json) object members held memory err final := by
  apply (ends_addItemToObject str h).bind
  intro _ final hadds
  exact ends_pure ⟨rfl, hadds⟩

/-- An item that was not created leaves the object as it is. -/
theorem ends_jsonAddCreated (str : String) (created : Option ℕ)
    (h : memory.Keeps (owned created (.item json) ++ (object, .item (.object members)) :: held)) :
    Ends (lib.jsonAddCreated object str created) memory
      (AddsTo (str, json) object members held memory) := by
  cases created with
  | none =>
    apply ends_pure
    refine ⟨rfl, [], ?_, .noMemory⟩
    rwa [List.append_nil]
  | some item =>
    apply (ends_jsonAddObj str (h.perm (List.Perm.swap _ _ _))).mono
    rintro err final ⟨_, hadds⟩
    exact hadds

theorem AddsTo.of_quiet {member : String × Json Number} {mid final : JsonMemory Number}
    {other : List (ℕ × Block Number)} {err : ℤ} (h : memory.Quiet mid other)
    (hadds : AddsTo member object members held mid err final) :
    AddsTo member object members held memory err final := by
  obtain ⟨hsent, added, hkeeps, hadded⟩ := hadds
  rw [h.refused_eq] at hadded
  exact ⟨hsent.trans h.sent_eq, added, hkeeps, hadded⟩

theorem ends_jsonAddStr (str string : String)
    (h : memory.Keeps ((object, .item (.object members)) :: held)) :
    Ends (lib.jsonAddStr object str string) memory
      (AddsTo (str, .string string) object members held memory) := by
  apply (ends_allocate h (.item (.string string))).bind
  intro created mid hmid
  apply (ends_jsonAddCreated str created hmid.keeps).mono
  intro err final hadds
  exact hadds.of_quiet hmid

theorem ends_jsonAddNumber (str : String) (number : Number)
    (h : memory.Keeps ((object, .item (.object members)) :: held)) :
    Ends (lib.jsonAddNumber object str number) memory
      (AddsTo (str, .number number) object members held memory) := by
  apply (ends_allocate h (.item (.number number))).bind
  intro created mid hmid
  apply (ends_jsonAddCreated str created hmid.keeps).mono
  intro err final hadds
  exact hadds.of_quiet hmid

/-! ## Wanted members -/

/-- Members are added to an object, with the sum of the values returned. Unless it is negative, they
are the wanted ones exactly if no addition was refused. -/
structure Outcome (wanted : List (String × Json Number)) (refused : ℕ) (err : ℤ) (final : ℕ)
    (added : List (String × Json Number)) : Prop where
  err_le : err ≤ 0
  refused_le : refused ≤ final
  eq_iff : err = 0 → (added = wanted ↔ final = refused)

theorem Outcome.nil (refused : ℕ) : Outcome ([] : List (String × Json Number)) refused 0 refused []
    where
  err_le := le_rfl
  refused_le := le_rfl
  eq_iff _ := iff_of_true rfl rfl

theorem Outcome.append {first second more rest : List (String × Json Number)}
    {refused mid final : ℕ} {err value : ℤ} (h : Outcome first refused err mid more)
    (h' : Outcome second mid value final rest) (hfirst : more.Sublist first)
    (hsecond : rest.Sublist second) :
    Outcome (first ++ second) refused (err + value) final (more ++ rest) where
  err_le := add_nonpos h.err_le h'.err_le
  refused_le := h.refused_le.trans h'.refused_le
  eq_iff hsum := by
    have herr := h.err_le
    have hvalue := h'.err_le
    have hmid := h.refused_le
    have hfinal := h'.refused_le
    have hmore := h.eq_iff (by omega)
    have hrest := h'.eq_iff (by omega)
    constructor
    · intro heq
      have hlengths := congrArg List.length heq
      rw [List.length_append, List.length_append] at hlengths
      have hfirstLength := hfirst.length_le
      have hsecondLength := hsecond.length_le
      have hmoreEq := hmore.mp (hfirst.eq_of_length (by omega))
      have hrestEq := hrest.mp (hsecond.eq_of_length (by omega))
      exact hrestEq.trans hmoreEq
    · intro heq
      rw [hmore.mpr (by omega), hrest.mpr (by omega)]

theorem Adds.outcome {member : String × Json Number} {refused final : ℕ} {err : ℤ}
    {added : List (String × Json Number)} (h : Adds member refused err final added) :
    Outcome [member] refused err final added ∧ added.Sublist [member] := by
  cases h with
  | added => exact ⟨⟨le_rfl, le_rfl, fun _ ↦ iff_of_true rfl rfl⟩, List.Sublist.refl _⟩
  | refused =>
    refine ⟨⟨le_rfl, Nat.le_succ _, fun _ ↦ iff_of_false ?_ (Nat.succ_ne_self _)⟩,
      List.nil_sublist _⟩
    exact List.cons_ne_nil _ _ ∘ Eq.symm
  | noMemory => exact ⟨⟨by decide, le_rfl, nofun⟩, List.nil_sublist _⟩

/-- An object with the wanted members is itself a wanted member. -/
theorem Outcome.nest {wanted added outer : List (String × Json Number)} {key : String}
    {refused mid final : ℕ} {err value : ℤ} (h : Outcome wanted refused err mid added)
    (hadds : Adds (key, .object added) mid value final outer) :
    Outcome [(key, .object wanted)] refused (err + value) final outer := by
  have houter := hadds.outcome.1
  refine ⟨add_nonpos h.err_le houter.err_le, h.refused_le.trans houter.refused_le, fun hsum ↦ ?_⟩
  have herr := h.err_le
  have hmid := h.refused_le
  have hinner := h.eq_iff (by have := houter.err_le; omega)
  cases hadds with
  | added => simpa using hinner
  | refused =>
    apply iff_of_false
    · exact List.cons_ne_nil _ _ ∘ Eq.symm
    · omega
  | noMemory => exact absurd hsum (by unfold enomem; omega)

/-! ## Functions -/

variable {rootObj stateObj reportedObj : ℕ}

/-- The last part of a function keeps no tree, and sends the document unless a value says no. -/
def Closes (awsIotSend : ℤ) (publication : Publication Number) (held : List (ℕ × Block Number))
    (err : ℤ) (memory : JsonMemory Number) (value : ℤ) (final : JsonMemory Number) : Prop :=
  final.Keeps held ∧ final.refused = memory.refused ∧
    ((final.sent = memory.sent ∧ value ≠ 0) ∨
      (final.sent = memory.sent ++ [publication] ∧ err = 0 ∧ value = awsIotSend))

theorem ends_printAndSend (awsIotSend : ℤ) (topic : Topic)
    (h : memory.Keeps ((rootObj, .item json) :: held)) :
    Ends (lib.printAndSend awsIotSend topic rootObj) memory
      (Closes awsIotSend ⟨topic, json⟩ ((rootObj, .item json) :: held) 0 memory) := by
  apply (ends_print h).bind
  intro text printed hprinted
  cases text with
  | none =>
    apply (ends_printk hprinted.keeps _).bind
    intro _ final hfinal
    have hquiet := hprinted.trans hfinal
    exact ends_pure ⟨hquiet.keeps, hquiet.refused_eq, Or.inl ⟨hquiet.sent_eq, by decide⟩⟩
  | some text =>
    apply (ends_getText hprinted.keeps).bind
    rintro _ _ ⟨rfl, rfl⟩
    apply (ends_printk hprinted.keeps _).bind
    intro _ shown hshown
    apply (ends_send hshown.keeps topic).bind
    rintro _ sent ⟨hkeeps, hrefused, hsent⟩
    apply (ends_reportError hkeeps _ awsIotSend).bind
    intro _ reported hreported
    apply (ends_freeString hreported.keeps).bind
    intro _ final hfinal
    have hquiet := hreported.trans hfinal
    have hbefore := hprinted.trans hshown
    refine ends_pure ⟨hquiet.keeps, ?_, Or.inr ⟨?_, rfl, rfl⟩⟩
    · rw [hquiet.refused_eq, hrefused, hbefore.refused_eq]
    · rw [hquiet.sent_eq, hsent, hbefore.sent_eq]

theorem ends_sendAdded (awsIotSend : ℤ) (topic : Topic) (err : ℤ)
    (h : memory.Keeps ((rootObj, .item json) :: held)) :
    Ends (lib.sendAdded awsIotSend topic rootObj err) memory
      (Closes awsIotSend ⟨topic, json⟩ ((rootObj, .item json) :: held) err memory) := by
  apply ends_ite
  · intro herr
    apply (ends_printk h _).bind
    intro _ final hquiet
    exact ends_pure ⟨hquiet.keeps, hquiet.refused_eq, Or.inl ⟨hquiet.sent_eq, herr⟩⟩
  · intro herr
    rw [not_not.mp herr]
    exact ends_printAndSend awsIotSend topic h

theorem ends_finish (awsIotSend : ℤ) (topic : Topic) (err : ℤ)
    (h : memory.Keeps ((rootObj, .item json) :: held)) :
    Ends (lib.finish awsIotSend topic rootObj err) memory
      (Closes awsIotSend ⟨topic, json⟩ held err memory) := by
  apply (ends_sendAdded awsIotSend topic err h).bind
  rintro value mid ⟨hkeeps, hrefused, hsent⟩
  apply (ends_delete (some rootObj) hkeeps).bind
  intro _ final hquiet
  refine ends_pure ⟨hquiet.keeps, hquiet.refused_eq.trans hrefused, ?_⟩
  rwa [hquiet.sent_eq]

/-- The member that only some documents have. -/
def versionMembers (appVersion : String) (versionNumberInclude : Bool) :
    List (String × Json Number) :=
  if versionNumberInclude then [("app_version", .string appVersion)] else []

/-- The members of the reported object. -/
def reportedMembers (lib : CJson Number) (appVersion : String) (calls : Calls)
    (versionNumberInclude : Bool) : List (String × Json Number) :=
  versionMembers appVersion versionNumberInclude ++
    [("batv", .number (lib.ofInt calls.batVoltage))] ++
    [("ts", .number (lib.ofInt calls.messageTs))]

def shadowDocument (lib : CJson Number) (appVersion : String) (calls : Calls)
    (versionNumberInclude : Bool) : Json Number :=
  .object [("state", .object [("reported",
    .object (lib.reportedMembers appVersion calls versionNumberInclude))])]

theorem ends_addVersion (appVersion : String) (versionNumberInclude : Bool)
    (h : memory.Keeps ((reportedObj, .item (.object [])) :: held)) :
    Ends (lib.addVersion appVersion versionNumberInclude reportedObj) memory fun err final ↦
      final.sent = memory.sent ∧ ∃ added,
        final.Keeps ((reportedObj, .item (.object added)) :: held) ∧
        Outcome (versionMembers appVersion versionNumberInclude) memory.refused err final.refused
          added ∧
        added.Sublist (versionMembers appVersion versionNumberInclude) := by
  cases versionNumberInclude with
  | true =>
    apply (ends_jsonAddStr "app_version" appVersion h).mono
    rintro err final ⟨hsent, added, hkeeps, hadds⟩
    exact ⟨hsent, added, hkeeps, hadds.outcome.1, hadds.outcome.2⟩
  | false => exact ends_pure ⟨rfl, [], h, Outcome.nil _, List.Sublist.refl _⟩

theorem ends_fillShadow (appVersion : String) (calls : Calls) (versionNumberInclude : Bool)
    (h : memory.Keeps ((reportedObj, .item (.object [])) :: (stateObj, .item (.object [])) ::
      (rootObj, .item (.object [])) :: held)) :
    Ends (lib.fillShadow appVersion calls versionNumberInclude rootObj stateObj reportedObj) memory
      fun err final ↦ final.sent = memory.sent ∧ ∃ members,
        final.Keeps ((rootObj, .item (.object members)) :: held) ∧
        Outcome [("state", .object [("reported",
            .object (lib.reportedMembers appVersion calls versionNumberInclude))])]
          memory.refused err final.refused members := by
  apply (ends_addVersion appVersion versionNumberInclude h).bind
  rintro version first ⟨hfirst, added, hversionKeeps, hversion, hsublist⟩
  apply (ends_jsonAddNumber "batv" (lib.ofInt calls.batVoltage) hversionKeeps).bind
  rintro batv second ⟨hsecond, batvMembers, hbatvKeeps, hbatv⟩
  apply (ends_jsonAddNumber "ts" (lib.ofInt calls.messageTs) hbatvKeeps).bind
  rintro ts third ⟨hthird, tsMembers, htsKeeps, hts⟩
  have hnumbers := (hversion.append hbatv.outcome.1 hsublist hbatv.outcome.2).append
    hts.outcome.1 (hsublist.append hbatv.outcome.2) hts.outcome.2
  apply (ends_jsonAddObj "reported" (htsKeeps.perm (List.Perm.swap _ _ _))).bind
  rintro reported fourth ⟨_, hfourth, stateMembers, hstateKeeps, hreported⟩
  apply (ends_jsonAddObj "state" (hstateKeeps.perm (List.Perm.swap _ _ _))).bind
  rintro state final ⟨_, hfinal, members, hkeeps, hstate⟩
  apply ends_pure
  refine ⟨?_, members, hkeeps, (hnumbers.nest hreported).nest hstate⟩
  rw [hfinal, hfourth, hthird, hsecond, hfirst]

theorem perm_reverse_front (first second third : List (ℕ × Block Number)) :
    (first ++ (second ++ (third ++ held))).Perm (third ++ (second ++ (first ++ held))) :=
  calc
    List.Perm (first ++ (second ++ (third ++ held))) (second ++ (first ++ (third ++ held))) :=
      List.perm_append_comm_assoc _ _ _
    List.Perm _ (second ++ (third ++ (first ++ held))) :=
      (List.perm_append_comm_assoc first third held).append_left second
    List.Perm _ (third ++ (second ++ (first ++ held))) := List.perm_append_comm_assoc _ _ _

/-- The branch for an object that was not created. -/
theorem ends_deleteAll {root state reported : Json Number} (rootObj stateObj reportedObj : Option ℕ)
    (h : memory.Keeps (owned reportedObj (.item reported) ++ (owned stateObj (.item state) ++
      (owned rootObj (.item root) ++ held)))) :
    Ends (do
      delete rootObj
      delete stateObj
      delete reportedObj
      return -enomem) memory fun value final ↦ memory.Quiet final held ∧ value = -enomem := by
  apply (ends_delete rootObj (h.perm (perm_reverse_front _ _ _))).bind
  intro _ first hfirst
  apply (ends_delete stateObj hfirst.keeps).bind
  intro _ second hsecond
  apply (ends_delete reportedObj hsecond.keeps).bind
  intro _ final hfinal
  exact ends_pure ⟨(hfirst.trans hsecond).trans hfinal, rfl⟩

/-- A function keeps no tree. If it sends nothing, its value may only be zero where `silent` allows
it. If it sends a document, that is the wanted one exactly if no addition was refused. -/
structure Publishes (awsIotSend : ℤ) (wanted : Publication Number) (silent : Prop)
    (held : List (ℕ × Block Number)) (memory : JsonMemory Number) (value : ℤ)
    (final : JsonMemory Number) : Prop where
  keeps : final.Keeps held
  sends : final.sent = memory.sent ∧ (value = 0 → silent) ∨
    ∃ message, final.sent = memory.sent ++ [⟨wanted.topic, message⟩] ∧ value = awsIotSend ∧
      (message = wanted.message ↔ final.refused = memory.refused)

/-- A function that returns early. -/
theorem Publishes.of_quiet {awsIotSend value : ℤ} {wanted : Publication Number} {silent : Prop}
    {final : JsonMemory Number} (h : memory.Quiet final held) (hvalue : value = 0 → silent) :
    Publishes awsIotSend wanted silent held memory value final where
  keeps := h.keeps
  sends := Or.inl ⟨h.sent_eq, hvalue⟩

/-- The last part of a function, behind the additions. -/
theorem Publishes.of_closes {awsIotSend err value : ℤ} {topic : Topic} {silent : Prop}
    {mid final : JsonMemory Number} {wanted added : List (String × Json Number)}
    (hsent : mid.sent = memory.sent)
    (houtcome : Outcome wanted memory.refused err mid.refused added)
    (h : Closes awsIotSend ⟨topic, .object added⟩ held err mid value final) :
    Publishes awsIotSend ⟨topic, .object wanted⟩ silent held memory value final where
  keeps := h.1
  sends := by
    obtain ⟨_, hrefused, ⟨hquiet, hvalue⟩ | ⟨hsends, herr, hvalue⟩⟩ := h
    · exact Or.inl ⟨hquiet.trans hsent, fun hzero ↦ absurd hzero hvalue⟩
    · refine Or.inr ⟨.object added, hsent ▸ hsends, hvalue, ?_⟩
      rw [hrefused, ← houtcome.eq_iff herr]
      exact Json.object.injEq _ _ ▸ Iff.rfl

theorem ends_buildShadow (appVersion : String) (calls : Calls) (versionNumberInclude : Bool)
    {silent : Prop} (h : memory.Keeps held) :
    Ends (lib.buildShadow appVersion calls versionNumberInclude) memory
      (Publishes calls.awsIotSend
        ⟨.shadowUpdate, lib.shadowDocument appVersion calls versionNumberInclude⟩ silent held
        memory) := by
  apply (ends_allocate h (.item (.object []))).bind
  intro rootObj first hfirst
  apply (ends_allocate hfirst.keeps (.item (.object []))).bind
  intro stateObj second hsecond
  apply (ends_allocate hsecond.keeps (.item (.object []))).bind
  intro reportedObj third hthird
  have hcreated := (hfirst.trans hsecond).trans hthird
  have hfailed : Ends (do
      delete rootObj
      delete stateObj
      delete reportedObj
      return -enomem) third (Publishes calls.awsIotSend
        ⟨.shadowUpdate, lib.shadowDocument appVersion calls versionNumberInclude⟩ silent held
        memory) := by
    apply (ends_deleteAll rootObj stateObj reportedObj hcreated.keeps).mono
    rintro _ final ⟨hquiet, rfl⟩
    exact Publishes.of_quiet (hcreated.trans hquiet) nofun
  cases rootObj with
  | none => exact hfailed
  | some rootObj =>
    cases stateObj with
    | none => exact hfailed
    | some stateObj =>
      cases reportedObj with
      | none => exact hfailed
      | some reportedObj =>
        apply (ends_fillShadow appVersion calls versionNumberInclude hcreated.keeps).bind
        rintro err filled ⟨hsent, members, hkeeps, houtcome⟩
        apply (ends_finish calls.awsIotSend .shadowUpdate err hkeeps).mono
        intro value final hcloses
        rw [hcreated.refused_eq] at houtcome
        exact Publishes.of_closes (hsent.trans hcreated.sent_eq) houtcome hcloses

theorem ends_shadowUpdate (appVersion : String) (calls : Calls) (versionNumberInclude : Bool)
    (h : memory.Keeps held) :
    Ends (lib.shadowUpdate appVersion calls versionNumberInclude) memory
      (Publishes calls.awsIotSend
        ⟨.shadowUpdate, lib.shadowDocument appVersion calls versionNumberInclude⟩
        (calls.modemInfoShortGet = 0) held memory) := by
  apply ends_ite
  · intro herr
    apply (ends_printk h _).bind
    intro _ final hquiet
    exact ends_pure (Publishes.of_quiet hquiet fun hzero ↦ absurd hzero herr)
  · intro _
    apply ends_ite
    · intro _
      apply (ends_printk h _).bind
      intro _ final hquiet
      exact ends_pure (Publishes.of_quiet hquiet id)
    · exact fun _ ↦ ends_buildShadow appVersion calls versionNumberInclude h

def customDocument (lib : CJson Number) : Json Number :=
  .object [("Test", .number (lib.ofInt 1))]

theorem ends_publishCustomTopic (awsIotSend : ℤ) (h : memory.Keeps held) :
    Ends (lib.publishCustomTopic awsIotSend) memory
      (Publishes awsIotSend ⟨.custom awsIotPubCustomTopic, lib.customDocument⟩ False held
        memory) := by
  apply (ends_allocate h (.item (.object []))).bind
  intro rootObj created hcreated
  cases rootObj with
  | none => exact ends_pure (Publishes.of_quiet hcreated nofun)
  | some rootObj =>
    apply (ends_jsonAddNumber "Test" (lib.ofInt 1) hcreated.keeps).bind
    rintro err filled ⟨hsent, members, hkeeps, hadds⟩
    apply (ends_finish awsIotSend (.custom awsIotPubCustomTopic) err hkeeps).mono
    intro value final hcloses
    have houtcome := hadds.outcome.1
    rw [hcreated.refused_eq] at houtcome
    exact Publishes.of_closes (hsent.trans hcreated.sent_eq) houtcome hcloses

/-! ## Received messages -/

theorem ends_parseText (buf : String) (h : memory.Keeps held) :
    Ends (lib.parseText buf) memory fun rootObj final ↦
      ∃ json, memory.Quiet final (owned rootObj (.item json) ++ held) := by
  unfold parseText
  cases lib.parse buf with
  | none => exact ends_pure ⟨.null, h, rfl, rfl⟩
  | some json =>
    apply (ends_allocate h (.item json)).mono
    intro rootObj final hquiet
    exact ⟨json, hquiet⟩

theorem ends_printReceivedData (buf topic : String) (h : memory.Keeps held) :
    Ends (lib.printReceivedData buf topic) memory fun _ final ↦ memory.Quiet final held := by
  apply (ends_parseText buf h).bind
  rintro rootObj parsed ⟨json, hparsed⟩
  cases rootObj with
  | none =>
    apply (ends_printk hparsed.keeps _).mono
    intro _ final hfinal
    exact hparsed.trans hfinal
  | some rootObj =>
    apply (ends_print hparsed.keeps).bind
    intro str printed hprinted
    cases str with
    | none =>
      apply (ends_printk hprinted.keeps _).bind
      intro _ shown hshown
      apply (ends_delete (some rootObj) hshown.keeps).mono
      intro _ final hfinal
      exact ((hparsed.trans hprinted).trans hshown).trans hfinal
    | some str =>
      apply (ends_getText hprinted.keeps).bind
      rintro _ _ ⟨rfl, rfl⟩
      apply (ends_printk hprinted.keeps _).bind
      intro _ shown hshown
      apply (ends_freeString hshown.keeps).bind
      intro _ freed hfreed
      apply (ends_delete (some rootObj) hfreed.keeps).mono
      intro _ final hfinal
      exact (((hparsed.trans hprinted).trans hshown).trans hfreed).trans hfinal

theorem ends_printReset (json : Json Number) (h : memory.Keeps held) :
    Ends (printReset json) memory fun _ final ↦ memory.Quiet final held := by
  unfold printReset
  split
  · exact ends_pure ⟨h, rfl, rfl⟩
  · exact ends_printk h _

theorem ends_processCustomTopic (buf : String) (h : memory.Keeps held) :
    Ends (lib.processCustomTopic buf) memory fun _ final ↦ memory.Quiet final held := by
  apply (ends_parseText buf h).bind
  rintro rootObj parsed ⟨json, hparsed⟩
  cases rootObj with
  | none =>
    apply (ends_printk hparsed.keeps _).mono
    intro _ final hfinal
    exact hparsed.trans hfinal
  | some rootObj =>
    apply (ends_getItem hparsed.keeps).bind
    rintro _ _ ⟨rfl, rfl⟩
    apply (ends_printReset _ hparsed.keeps).bind
    intro _ shown hshown
    apply (ends_delete (some rootObj) hshown.keeps).mono
    intro _ final hfinal
    exact (hparsed.trans hshown).trans hfinal

theorem ends_processReceivedData (buf topic : String) (h : memory.Keeps held) :
    Ends (lib.processReceivedData buf topic) memory fun _ final ↦ memory.Quiet final held :=
  ends_ite (fun _ ↦ ends_processCustomTopic buf h) fun _ ↦ ends_pure ⟨h, rfl, rfl⟩

theorem ends_dataReceived (buf topic : String) (h : memory.Keeps held) :
    Ends (lib.dataReceived buf topic) memory fun _ final ↦ memory.Quiet final held := by
  apply (ends_printReceivedData buf topic h).bind
  intro _ shown hshown
  apply (ends_processReceivedData buf topic hshown.keeps).mono
  intro _ final hfinal
  exact hshown.trans hfinal

/-! ## Runs -/

end CJson

/-- A call of one of the functions. -/
inductive DocumentCall where
  | shadowUpdate (calls : Calls) (versionNumberInclude : Bool)
  | publishCustomTopic (awsIotSend : ℤ)
  | dataReceived (buf topic : String)

namespace DocumentCall

variable (lib : CJson Number) (appVersion : String)

/-- The function, with its value. -/
def program : DocumentCall → Program (JsonMemory Number) ℤ
  | .shadowUpdate calls versionNumberInclude =>
      lib.shadowUpdate appVersion calls versionNumberInclude
  | .publishCustomTopic awsIotSend => lib.publishCustomTopic awsIotSend
  | .dataReceived buf topic => do
      lib.dataReceived buf topic
      return 0

def serve (memory : JsonMemory Number) (call : DocumentCall) : Option (JsonMemory Number) :=
  (call.program lib appVersion memory).map Prod.snd

/-- What a call does to the memory and the connection, with its value. -/
def Meets (memory : JsonMemory Number) : DocumentCall → ℤ → JsonMemory Number → Prop
  | .shadowUpdate calls versionNumberInclude => CJson.Publishes calls.awsIotSend
      ⟨.shadowUpdate, lib.shadowDocument appVersion calls versionNumberInclude⟩
      (calls.modemInfoShortGet = 0) [] memory
  | .publishCustomTopic awsIotSend => CJson.Publishes awsIotSend
      ⟨.custom CJson.awsIotPubCustomTopic, lib.customDocument⟩ False [] memory
  | .dataReceived _ _ => fun _ final ↦ memory.Quiet final []

variable {lib appVersion}

theorem ends_program {memory : JsonMemory Number} (h : memory.Keeps []) (call : DocumentCall) :
    Ends (call.program lib appVersion) memory (call.Meets lib appVersion memory) := by
  cases call with
  | shadowUpdate calls versionNumberInclude =>
    exact CJson.ends_shadowUpdate appVersion calls versionNumberInclude h
  | publishCustomTopic awsIotSend => exact CJson.ends_publishCustomTopic awsIotSend h
  | dataReceived buf topic =>
    apply (CJson.ends_dataReceived buf topic h).bind
    intro _ final hquiet
    exact ends_pure hquiet

theorem Meets.keeps {memory final : JsonMemory Number} {call : DocumentCall} {value : ℤ}
    (h : call.Meets lib appVersion memory value final) : final.Keeps [] := by
  cases call with
  | shadowUpdate calls versionNumberInclude => exact CJson.Publishes.keeps h
  | publishCustomTopic awsIotSend => exact CJson.Publishes.keeps h
  | dataReceived buf topic => exact JsonMemory.Quiet.keeps h

/-- No sequence of calls ends in an access to memory that is not allocated. Behind it, as many
blocks are allocated as additions were refused, and every call has sent at most one document, the
wanted one exactly if none of its additions was refused. -/
theorem documents_of_run (lib : CJson Number) (appVersion : String) (calls : List DocumentCall) :
    ∃ final, Trace.run (serve lib appVersion) JsonMemory.start calls = some final ∧
      (∃ lost, final.heap.Owns lost ∧ lost.length = final.refused) ∧
      Trace.Along (serve lib appVersion) (fun memory call ↦ ∃ value next,
        call.program lib appVersion memory = some (value, next) ∧
          call.Meets lib appVersion memory value next) JsonMemory.start calls := by
  have hstep (memory : JsonMemory Number) (call : DocumentCall) (h : memory.Keeps []) :
      (∃ value next, call.program lib appVersion memory = some (value, next) ∧
        call.Meets lib appVersion memory value next) ∧
      ∃ next, serve lib appVersion memory call = some next ∧ next.Keeps [] := by
    obtain ⟨value, next, hprogram, hmeets⟩ :
        Ends (call.program lib appVersion) memory (call.Meets lib appVersion memory) :=
      ends_program h call
    have hserve : serve lib appVersion memory call = some next :=
      congrArg (Option.map Prod.snd) hprogram
    exact ⟨⟨value, next, hprogram, hmeets⟩, next, hserve, hmeets.keeps⟩
  obtain ⟨final, hrun, ⟨lost, hheld, hlost⟩, halong⟩ :=
    Trace.exists_run hstep JsonMemory.keeps_start calls
  exact ⟨final, hrun, ⟨lost, hheld.owns, hlost⟩, halong⟩

end DocumentCall

end NrfExamples.AwsIot
