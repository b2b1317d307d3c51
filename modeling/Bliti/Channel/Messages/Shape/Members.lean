import Bliti.Channel.Messages.Shape

/-!
# The shapes of messages - members read

Each way a member of a message is read succeeds where the member is met, and what it reads
is written again as the member follows.
-/

namespace Bliti.Channel.Messages

open Config (Failure Outcome)
open Envelope (Member Reads Taken)
open Readings (Entry)
open Report

variable {φ Date : Type} {formats : Formats φ Date}

/-! ## Members read -/

variable {map : Json.Map φ} {name : String}

/-- A required member is read where it is there and has a value. -/
theorem member_eq_ok {α : Type} {what : String} {read : Json φ → Option α} {a : α} :
    member map name what read = .ok a ↔ (Json.get map name).bind read = some a := by
  unfold member
  cases (Json.get map name).bind read <;> simp

/-- A member that may be left out is read where it is, or has a value. -/
theorem optionalMember_eq_ok {α : Type} {reason : String} {read : Json φ → Option α}
    {found : Option α} : Config.optionalMember map name reason read = .ok found ↔
      match (Json.get map name).filter (fun held => !held.isNull) with
      | none => none = found
      | some held => ∃ a, read held = some a ∧ some a = found := by
  unfold Config.optionalMember
  cases hget : Json.get map name with
  | none => simp
  | some held =>
      cases held with
      | null => simp [Option.filter, Json.isNull]
      | _ =>
          simp only [Option.filter, Json.isNull]
          split <;> simp [*]

/-- The text of a value is written again as it was. -/
theorem text_follows {value : Json φ} {s : String}
    (htext : value.asStr = some s) : wholeFollows value (.string s) := by
  cases value with
  | string text => exact .inr rfl
  | _ => cases htext

/-- A text is read. -/
theorem string_reads : Reads Shape.takes Shape.follows map (textMember name)
    (some ∘ Json.string) (string map name = .ok ·) :=
  Envelope.reads_required Json.asStr (fun _ => member_eq_ok) (fun _ => rfl) fun _ _ => text_follows

/-- A text that may be left out is read. -/
theorem optionalString_reads : Reads Shape.takes Shape.follows map (optionalText name)
    (Option.map Json.string) (optionalString map name = .ok ·) :=
  Envelope.reads_optional Json.asStr (fun _ => optionalMember_eq_ok) (fun _ => rfl) fun _ _ => text_follows

/-- A truth value is read. -/
theorem boolean_reads : Reads Shape.takes Shape.follows map ⟨name, .required, .whole isTruth⟩
    (some ∘ Json.bool) (boolean map name = .ok ·) := by
  refine Envelope.reads_required readBool (fun _ => member_eq_ok) ?_ ?_
  · intro held
    cases held <;> rfl
  · intro held b hb
    cases held with
    | bool b => exact .inr rfl
    | _ => cases hb

/-- The members of an object are written again as the object. -/
theorem object_follows {value : Json φ} {members : Json.Map φ}
    (hobject : value.asObject = some members) :
    wholeFollows value (.object members) := by
  cases value with
  | object held =>
      cases hobject
      exact .inl rfl
  | _ => cases hobject

/-- A value is an object where it has members. -/
theorem isObject_eq (value : Json φ) : value.isObject = value.asObject.isSome := by
  cases value <;> rfl

/-- An object is read. -/
theorem object_reads : Reads Shape.takes Shape.follows map (objectMember name)
    (some ∘ Json.object) (object map name = .ok ·) :=
  Envelope.reads_required Json.asObject (fun _ => member_eq_ok) isObject_eq fun _ _ => object_follows

/-- An object that may be left out is read. -/
theorem optionalObject_reads : Reads Shape.takes Shape.follows map
    ⟨name, .optional, .whole Json.isObject⟩ (Option.map Json.object)
    (optionalObject map name = .ok ·) :=
  Envelope.reads_optional Json.asObject (fun _ => optionalMember_eq_ok) isObject_eq
    fun _ _ => object_follows

/-- An array is read. -/
theorem array_reads : Reads Shape.takes Shape.follows map ⟨name, .required, .whole isArray⟩
    (some ∘ Json.array) (array map name = .ok ·) := by
  refine Envelope.reads_required asArray (fun _ => member_eq_ok) ?_ ?_
  · intro held
    cases held <;> rfl
  · intro held items hitems
    cases held with
    | array held =>
        cases hitems
        exact .inl rfl
    | _ => cases hitems

/-- A value is an array of texts where it has them. -/
theorem isTexts_eq (value : Json φ) : isTexts value = (Config.readStrings value).isSome := by
  cases value with
  | array items => exact Fallible.isSome_mapM.symm
  | _ => rfl

/-- Texts are those of the array of them. -/
theorem texts_follows {value : Json φ} {texts : List String}
    (htexts : Config.readStrings value = some texts) :
    wholeFollows value (textArray texts) := by
  cases value with
  | array items =>
      have hall : items.mapM Json.asStr = some texts := htexts
      rw [Fallible.mapM_eq_some] at hall
      clear htexts
      refine .inl (congrArg Json.array ?_)
      induction hall with
      | nil => rfl
      | cons hone _ ih => rw [List.map_cons, ih, Config.eq_of_asStr hone]
  | _ => cases htexts

/-- The strings of an array are those of its items. -/
theorem readStrings_eq (value : Json φ) :
    Config.readStrings value = (asArray value).bind fun items => items.mapM Json.asStr := by
  cases value <;> rfl

/-- Texts are read where the array of them is. -/
theorem strings_eq_ok {texts : List String} :
    strings map name = .ok texts ↔ (Json.get map name).bind Config.readStrings = some texts := by
  unfold strings array
  rw [Fallible.bind_ok]
  simp only [member_eq_ok, readStrings_eq, Option.bind_eq_some_iff]
  constructor
  · intro hread
    obtain ⟨items, ⟨value, hget, hitems⟩, htexts⟩ := hread
    refine ⟨value, hget, items, hitems, ?_⟩
    cases hall : items.mapM Json.asStr with
    | none =>
        rw [hall] at htexts
        cases htexts
    | some found =>
        rw [hall] at htexts
        cases htexts
        rfl
  · intro hread
    obtain ⟨value, hget, items, hitems, htexts⟩ := hread
    refine ⟨items, ⟨value, hget, hitems⟩, ?_⟩
    rw [htexts]
    rfl

/-- Texts are read. -/
theorem strings_reads : Reads Shape.takes Shape.follows map (textsMember name)
    (some ∘ textArray) (strings map name = .ok ·) :=
  Envelope.reads_required Config.readStrings (fun _ => strings_eq_ok) isTexts_eq
    fun _ _ => texts_follows

/-- Texts that may be left out are read. -/
theorem optionalStrings_reads : Reads Shape.takes Shape.follows map
    ⟨name, .optional, .whole isTexts⟩ (Option.map textArray)
    (optionalStrings map name = .ok ·) := by
  refine Envelope.reads_optional Config.readStrings ?_ isTexts_eq fun _ _ => texts_follows
  intro found
  unfold optionalStrings
  cases hget : Json.get map name with
  | none => simp
  | some held =>
      have hstrings : ∀ texts, strings map name = .ok texts ↔ Config.readStrings held = some texts := by
        intro texts
        rw [strings_eq_ok, hget, Option.bind_some]
      cases held with
      | null => simp [Option.filter, Json.isNull]
      | _ => simp [Option.filter, Json.isNull, Fallible.map_ok, hstrings]

/-- A value that may be left out is read. -/
theorem optionalValue_reads : Reads Shape.takes Shape.follows map
    ⟨name, .optional, .whole fun _ => true⟩ (Option.map id) (optionalValue map name = ·) := by
  refine Envelope.reads_optional some ?_ (fun _ => rfl) ?_
  · intro found
    unfold optionalValue
    cases hget : (Json.get map name).filter fun value => !value.isNull with
    | none => simp
    | some held => simp
  · intro held a ha
    cases ha
    exact .inl rfl

/-! ## Objects read part by part -/

/-- A reading of an object part by part. -/
abbrev PartsTaken {α : Type} (write : α → List (String × Option (Json φ)))
    (parts : List (Member (Json φ → Bool))) (held : Json.Map φ) (read : α → Prop) : Prop :=
  Taken (fun takes => takes) (fun _ => wholeFollows) held write parts [] read

section

variable {α : Type} {parts : List (Member (Json φ → Bool))} {toMap : α → Json.Map φ}
  {write : α → List (String × Option (Json φ))}

/-- An object has the parts it is to where it is read. -/
theorem partsMet_eq {held : Json.Map φ} {x : Option α}
    (htaken : PartsTaken write parts held (x = some ·)) : partsMet parts held = x.isSome := by
  rw [Bool.eq_iff_iff, Option.isSome_iff_exists, htaken.succeeds]
  exact List.all_eq_true

/-- An object read part by part is written again part by part. -/
theorem partsFollow_of_taken {held : Json.Map φ} {read : α → Prop} {a : α}
    (htaken : PartsTaken write parts held read) (ha : read a)
    (hround : ∀ a, ∀ written ∈ write a, Json.get (toMap a) written.1 = written.2) :
    partsFollow parts (.object held) (.object (toMap a)) := by
  refine ⟨toMap a, rfl, fun other hother => ?_⟩
  cases hother
  exact htaken.get_follows ha (hround a)

end

section

variable {held : Json.Map φ}

/-- A text that is a part is read. -/
theorem textPart_reads {read : String → Prop}
    (hread : ∀ a, read a ↔ (Json.get held name).bind Json.asStr = some a) :
    Reads (fun takes => takes) (fun _ => wholeFollows) held ⟨name, .required, isText⟩
      (some ∘ Json.string) read :=
  Envelope.reads_required Json.asStr hread (fun _ => rfl) fun _ _ => text_follows

/-- A text that is a part and may be left out is read. -/
theorem optionalTextPart_reads {read : Option String → Prop}
    (hread : ∀ found, read found ↔
      match (Json.get held name).filter (fun held => !held.isNull) with
      | none => none = found
      | some held => ∃ a, held.asStr = some a ∧ some a = found) :
    Reads (fun takes => takes) (fun _ => wholeFollows) held ⟨name, .optional, isText⟩
      (Option.map Json.string) read :=
  Envelope.reads_optional Json.asStr hread (fun _ => rfl) fun _ _ => text_follows

end

/-- A text of a failure is read. -/
theorem readString_eq_ok {held : Json.Map φ} {s : String} :
    Failure.readString held name = .ok s ↔ (Json.get held name).bind Json.asStr = some s := by
  unfold Failure.readString
  cases Json.get held name with
  | none => simp
  | some value => cases value <;> simp [Json.asStr]

/-- The parts of a failure as they are written. -/
def failureWritten (failure : Failure) : List (String × Option (Json φ)) :=
  [("at", some (.string failure.atPath)),
    ("reason", some (.string failure.reason)),
    ("reached", failure.reached.map Json.string)]

/-- A failure is written part by part. -/
theorem get_failure (failure : Failure) : ∀ written ∈ failureWritten (φ := φ) failure,
    Json.get failure.toMap written.1 = written.2 := by
  obtain ⟨atPath, reason, reached⟩ := failure
  cases reached <;> simp [failureWritten, Failure.toMap]

/-- A failure is read of its three members. -/
theorem failure_read_eq (held : Json.Map φ) : Failure.read held = (do
    let atPath ← Failure.readString held "at"
    let reason ← Failure.readString held "reason"
    let reached ← Config.optionalMember held "reached" "`reached` is a string" Json.asStr
    pure { atPath := atPath, reason := reason, reached := reached }) := by
  unfold Failure.read Config.optionalMember
  cases Json.get held "reached" with
  | none => rfl
  | some value => cases value <;> rfl

/-- A failure is read part by part. -/
theorem failure_taken (held : Json.Map φ) :
    PartsTaken failureWritten failureParts held (Failure.read held = .ok ·) := by
  rw [failure_read_eq]
  refine .bind (textPart_reads fun _ => readString_eq_ok) fun atPath => ?_
  refine .bind (textPart_reads fun _ => readString_eq_ok) fun reason => ?_
  exact .bind (optionalTextPart_reads fun _ => optionalMember_eq_ok) fun reached => .pure rfl

/-- An object that may be left out is read part by part. -/
theorem optionalParts_reads {α : Type} {parts : List (Member (Json φ → Bool))}
    {write : α → List (String × Option (Json φ))} {toMap : α → Json.Map φ}
    {read : Json.Map φ → Except String α}
    {readAny : Option (Json.Map φ) → Except String (Option α)}
    (htaken : ∀ held, PartsTaken write parts held (read held = .ok ·))
    (hround : ∀ a, ∀ written ∈ write a, Json.get (toMap a) written.1 = written.2)
    (hnone : readAny none = .ok none)
    (hsome : ∀ held, readAny (some held) = (read held).map some) :
    Reads Shape.takes Shape.follows map ⟨name, .optional, .object parts⟩
      (Option.map fun a => .object (toMap a)) (optionalObject map name >>= readAny = .ok ·) := by
  have hpart : ∀ held, PartsTaken write parts held ((read held).toOption = some ·) := by
    intro held
    simp only [Fallible.toOption_eq_some]
    exact htaken held
  refine Envelope.reads_optional
    (fun held => held.asObject.bind fun held => (read held).toOption) ?_ ?_ ?_
  · intro found
    rw [Fallible.bind_ok]
    unfold optionalObject optional
    simp only [optionalMember_eq_ok]
    cases (Json.get map name).filter fun held => !held.isNull with
    | none => simp [hnone]
    | some held =>
        cases held with
        | object members => simp [Json.asObject, hsome, Fallible.map_ok, Fallible.toOption_eq_some]
        | _ => simp [Json.asObject]
  · intro held
    cases held with
    | object members => exact partsMet_eq (hpart members)
    | _ => rfl
  · intro held a ha
    cases held with
    | object members => exact partsFollow_of_taken (hpart members) ha hround
    | _ => cases ha

/-- A failure that may be left out is read. -/
theorem optionalFailure_reads : Reads Shape.takes Shape.follows map
    ⟨name, .optional, .object failureParts⟩
    (Option.map fun failure => .object failure.toMap) (optionalFailure map name = .ok ·) :=
  optionalParts_reads failure_taken get_failure rfl fun _ => rfl

/-- A number is read of a value that is one. -/
theorem isNumber_eq (ofInt : Int → φ) (value : Json φ) :
    isNumber value = (asF64 ofInt value).isSome := by
  cases value with
  | number n => cases n <;> rfl
  | _ => rfl

/-- A number has nothing below it. -/
theorem isScalar_of_asF64 {ofInt : Int → φ} (value : Json φ) (double : Double φ)
    (hread : asF64 ofInt value = some double) : value.isScalar = true := by
  cases value with
  | number n => rfl
  | _ => cases hread

/-- The parts of a time as they are written. -/
def spanWritten (span : Span φ) : List (String × Option (Json φ)) :=
  [("duration", some (number span.duration)), ("margin", some (number span.margin))]

/-- A time is read part by part. -/
theorem span_taken (formats : Formats φ Date) (name : String) (held : Json.Map φ) :
    PartsTaken spanWritten spanParts held
    ((do
      let duration ← seconds formats name held "duration"
      let margin ← seconds formats name held "margin"
      pure { duration := duration, margin := margin } : Except String (Span φ)) = .ok ·) := by
  have hread : ∀ part, Reads (fun takes => takes) (fun _ => wholeFollows) held
      ⟨part, .required, isNumber⟩ (some ∘ number) (seconds formats name held part = .ok ·) := by
    intro part
    refine Envelope.reads_required (asF64 formats.ofInt) ?_ ?_ ?_
    · intro double
      unfold seconds
      cases (Json.get held part).bind (asF64 formats.ofInt) <;> simp
    · exact isNumber_eq formats.ofInt
    · exact fun value double hdouble => .inr (isScalar_of_asF64 value double hdouble)
  exact .bind (hread "duration") fun duration => .bind (hread "margin") fun margin => .pure rfl

/-- A time that may be left out is read. -/
theorem optionalSpan_reads : Reads Shape.takes Shape.follows map
    ⟨name, .optional, .object spanParts⟩ (Option.map Span.toJson)
    (optionalSpan formats map name = .ok ·) := by
  refine optionalParts_reads (span_taken formats name) ?_ rfl ?_
  · intro span
    simp [spanWritten]
  · intro held
    simp only
    cases seconds formats name held "duration" with
    | error reason => rfl
    | ok duration => cases seconds formats name held "margin" <;> rfl

/-! ## Members of a shape of their own -/

/-- A member of a shape of its own is read where it is there and has a value. -/
theorem fromMember_eq_ok {α : Type} {read : Json φ → Option α} {a : α} :
    fromMember formats map name read = .ok a ↔ (Json.get map name).bind read = some a := by
  unfold fromMember
  cases Json.get map name with
  | none => simp
  | some value =>
      simp only [Option.bind_some]
      cases read value <;> simp

/-- A member whose value has nothing below it is read. -/
theorem fromMember_reads {α : Type} {takes : Json φ → Bool} {read : Json φ → Option α}
    {write : α → Json φ} (htakes : ∀ value, takes value = (read value).isSome)
    (hscalar : ∀ value a, read value = some a → value.isScalar = true) :
    Reads Shape.takes Shape.follows map ⟨name, .required, .whole takes⟩ (some ∘ write)
      (fromMember formats map name read = .ok ·) :=
  Envelope.reads_required read (fun _ => fromMember_eq_ok) htakes fun value a ha =>
    .inr (hscalar value a ha)

/-- A text has nothing below it. -/
theorem isScalar_of_asStr {α : Type} {read : String → Option α} (value : Json φ) (a : α)
    (hread : value.asStr.bind read = some a) : value.isScalar = true := by
  cases value with
  | string s => rfl
  | _ => cases hread

/-- A whole number below `2 ^ 32` is one. -/
theorem isBelow_readU32 (value : Json φ) :
    isBelow 4294967296 value = (readU32 value).isSome := by
  cases value with
  | number n =>
      cases n with
      | int i =>
          simp only [isBelow, readU32]
          split <;> simp_all
      | float f => rfl
  | _ => rfl

/-- A whole number has nothing below it. -/
theorem isScalar_of_readU32 (value : Json φ) (n : UInt32) (hread : readU32 value = some n) :
    value.isScalar = true := by
  cases value with
  | number n => rfl
  | _ => cases hread

/-- A text is one of some where it names something found among them. -/
theorem isOneOf_find {α : Type} {all : List α} {asStr : α → String} (value : Json φ) :
    isOneOf (all.map asStr) value =
      (value.asStr.bind fun name => all.find? fun a => asStr a == name).isSome := by
  cases value with
  | string name =>
      rw [Bool.eq_iff_iff]
      simp [isOneOf, Json.asStr]
  | _ => rfl

/-- An array of objects read part by part is read. -/
theorem records_reads {α : Type} {parts : List (Member (Json φ → Bool))}
    {write : α → List (String × Option (Json φ))} {toMap : α → Json.Map φ}
    {read : Json.Map φ → Option α} {readItem : Json φ → Option α}
    (htaken : ∀ held, PartsTaken write parts held (read held = some ·))
    (hround : ∀ a, ∀ written ∈ write a, Json.get (toMap a) written.1 = written.2)
    (hitem : ∀ item, readItem item = (fields (parts.map Member.name) item).bind read) :
    Reads Shape.takes Shape.follows map ⟨name, .required, .records parts⟩
      (some ∘ fun items => .array (items.map fun a => .object (toMap a)))
      (fromMember formats map name
        (fun value => (asArray value).bind fun items => items.mapM readItem) = .ok ·) := by
  refine Envelope.reads_required (fun value => (asArray value).bind fun items =>
    items.mapM readItem) (fun _ => fromMember_eq_ok) ?_ ?_
  · intro held
    cases held with
    | array items =>
        have hone : ∀ item, (fields (parts.map Member.name) item).any (partsMet parts) =
            (readItem item).isSome := by
          intro item
          rw [hitem]
          cases fields (parts.map Member.name) item with
          | none => rfl
          | some map => exact partsMet_eq (htaken map)
        simp only [Shape.takes, hone]
        exact Fallible.isSome_mapM.symm
    | _ => rfl
  · intro held all hall
    cases held with
    | array items =>
        have hitems : items.mapM readItem = some all := hall
        rw [Fallible.mapM_eq_some] at hitems
        refine ⟨items, _, rfl, rfl, List.forall₂_map_right_iff.mpr (hitems.imp ?_)⟩
        intro item a ha
        rw [hitem] at ha
        cases item with
        | object members => exact partsFollow_of_taken (htaken members) ha hround
        | _ => exact ⟨toMap a, rfl, nofun⟩
    | _ => cases hall

/-- The fields of a step as they are written. -/
def stepWritten (step : StepReport φ) : List (String × Option (Json φ)) :=
  [("id", some (.string step.id)),
    ("title", some (.string step.title)),
    ("done", some (.string step.done.asStr)),
    ("why", step.why.map Json.string),
    ("state", some (.string step.state.asStr)),
    ("progress", step.progress.map number),
    ("reason", step.reason.map Json.string),
    ("result", step.result.map Json.object)]

/-- A step is written part by part. -/
theorem get_step (step : StepReport φ) : ∀ written ∈ stepWritten step,
    Json.get step.toMap written.1 = written.2 := by
  simp [stepWritten, StepReport.toMap]

/-- The fields of a prompt as they are written. -/
def promptWritten (prompt : PromptReport) : List (String × Option (Json φ)) :=
  [("id", some (.string prompt.id)),
    ("step", some (.string prompt.step)),
    ("kind", some (.string prompt.kind.asStr)),
    ("text", some (.string prompt.text)),
    ("blocking", some (.bool prompt.blocking)),
    ("default", prompt.default.map Json.string)]

/-- A prompt is written part by part. -/
theorem get_prompt (prompt : PromptReport) : ∀ written ∈ promptWritten (φ := φ) prompt,
    Json.get prompt.toMap written.1 = written.2 := by
  simp [promptWritten, PromptReport.toMap]

section

variable {held : Json.Map φ}

/-- A field that may be left out is read where it is, or has a value. -/
theorem optionalField_eq_some {α : Type} {read : Json φ → Option α} {found : Option α} :
    optionalField held name read = some found ↔
      match (Json.get held name).filter (fun held => !held.isNull) with
      | none => none = found
      | some held => ∃ a, read held = some a ∧ some a = found := by
  unfold optionalField
  cases Json.get held name with
  | none => simp
  | some value => cases value <;> simp [Option.filter, Json.isNull]

/-- A name that is a field is read where it is one of some. -/
theorem oneOfField_reads {α : Type} {all : List α} {asStr : α → String} {texts : List String}
    {read : String → Option α} (hread : read = fun text => all.find? fun a => asStr a == text)
    (htexts : texts = all.map asStr) :
    Reads (fun takes => takes) (fun _ => wholeFollows) held
      ⟨name, .required, isOneOf texts⟩ (some ∘ fun a => .string (asStr a))
      (requiredField held name (fun value => value.asStr.bind read) = some ·) := by
  subst hread htexts
  exact Envelope.reads_required _ (fun _ => .rfl) isOneOf_find fun value a ha =>
    .inr (isScalar_of_asStr value a ha)

/-- A number that is a field and may be left out is read. -/
theorem numberField_reads {ofInt : Int → φ} : Reads (fun takes => takes) (fun _ => wholeFollows)
    held ⟨name, .optional, isNumber⟩ (Option.map number)
    (optionalField held name (asF64 ofInt) = some ·) := by
  exact Envelope.reads_optional _ (fun _ => optionalField_eq_some) (isNumber_eq ofInt)
    fun value double hdouble => .inr (isScalar_of_asF64 value double hdouble)

/-- An object that is a field and may be left out is read. -/
theorem objectField_reads : Reads (fun takes => takes) (fun _ => wholeFollows)
    held ⟨name, .optional, Json.isObject⟩ (Option.map Json.object)
    (optionalField held name Json.asObject = some ·) :=
  Envelope.reads_optional _ (fun _ => optionalField_eq_some) isObject_eq fun _ _ => object_follows

end

/-- A step is read part by part. -/
theorem step_taken (ofInt : Int → φ) (held : Json.Map φ) :
    PartsTaken stepWritten stepParts held (StepReport.read ofInt (.object held) = some ·) := by
  simp only [StepReport.read, fields, Option.bind_eq_bind, Option.bind_some]
  refine .bindSome (textPart_reads fun _ => .rfl) fun id => ?_
  refine .bindSome (textPart_reads fun _ => .rfl) fun title => ?_
  refine .bindSome (oneOfField_reads rfl rfl) fun doneState => ?_
  refine .bindSome (optionalTextPart_reads fun _ => optionalField_eq_some) fun why => ?_
  refine .bindSome (oneOfField_reads rfl rfl) fun state => ?_
  refine .bindSome numberField_reads fun progress => ?_
  refine .bindSome (optionalTextPart_reads fun _ => optionalField_eq_some) fun reason => ?_
  exact .bindSome objectField_reads fun result => .pureSome rfl

/-- A truth value that is a field is read. -/
theorem truthField_reads {held : Json.Map φ} : Reads (fun takes => takes) (fun _ => wholeFollows)
    held ⟨name, .required, isTruth⟩ (some ∘ Json.bool)
    (requiredField held name readBool = some ·) := by
  refine Envelope.reads_required _ (fun _ => .rfl) ?_ ?_
  · intro value
    cases value <;> rfl
  · intro value b hb
    cases value with
    | bool b => exact .inr rfl
    | _ => cases hb

/-- The kind of a prompt is read of its name. -/
theorem kindField_reads {held : Json.Map φ} : Reads (fun takes => takes) (fun _ => wholeFollows)
    held ⟨name, .required, isText⟩ (some ∘ fun kind => .string kind.asStr)
    (requiredField held name (fun value => value.asStr.map PromptKind.read) = some ·) := by
  refine Envelope.reads_required _ (fun _ => .rfl) ?_ ?_
  · intro value
    cases value <;> rfl
  · intro value kind hkind
    cases value with
    | string s => exact .inr rfl
    | _ => cases hkind

/-- A prompt is read part by part. -/
theorem prompt_taken (held : Json.Map φ) :
    PartsTaken promptWritten promptParts held (PromptReport.read (.object held) = some ·) := by
  simp only [PromptReport.read, fields, Option.bind_eq_bind, Option.bind_some]
  refine .bindSome (textPart_reads fun _ => .rfl) fun id => ?_
  refine .bindSome (textPart_reads fun _ => .rfl) fun step => ?_
  refine .bindSome kindField_reads fun kind => ?_
  refine .bindSome (textPart_reads fun _ => .rfl) fun text => ?_
  refine .bindSome truthField_reads fun blocking => ?_
  exact .bindSome (optionalTextPart_reads fun _ => optionalField_eq_some) fun default =>
    .pureSome rfl

/-- Steps are read. -/
theorem steps_reads : Reads Shape.takes Shape.follows map ⟨name, .required, .records stepParts⟩
    (some ∘ fun steps => .array (steps.map fun step => .object step.toMap))
    (fromMember formats map name (fun value => (asArray value).bind fun items =>
      items.mapM (StepReport.read formats.ofInt)) = .ok ·) := by
  refine records_reads (step_taken formats.ofInt) get_step ?_
  intro item
  have hnames : (stepParts (φ := φ)).map Member.name = StepReport.names := rfl
  simp only [StepReport.read, hnames]
  cases fields StepReport.names item <;> rfl

/-- Prompts are read. -/
theorem prompts_reads : Reads Shape.takes Shape.follows map
    ⟨name, .required, .records promptParts⟩
    (some ∘ fun prompts => .array (prompts.map fun prompt => .object prompt.toMap))
    (fromMember formats map name (fun value => (asArray value).bind fun items =>
      items.mapM PromptReport.read) = .ok ·) := by
  refine records_reads prompt_taken get_prompt ?_
  intro item
  have hnames : (promptParts (φ := φ)).map Member.name = PromptReport.names := rfl
  simp only [PromptReport.read, hnames]
  cases fields PromptReport.names item <;> rfl

/-- The outcome of a name is found among them. -/
theorem outcome_toOption (name : String) : (Outcome.read name).toOption =
    [Outcome.verifying, .applied, .failed].find? fun outcome => outcome.asStr == name := by
  unfold Outcome.read
  split
  · rfl
  · rfl
  · rfl
  · rename_i hverifying happlied hfailed
    have hnone : ∀ outcome : Outcome, (outcome.asStr == name) = false := by
      intro outcome
      cases outcome with
      | verifying => simpa [Outcome.asStr] using Ne.symm hverifying
      | applied => simpa [Outcome.asStr] using Ne.symm happlied
      | failed => simpa [Outcome.asStr] using Ne.symm hfailed
    simp [Except.toOption, hnone]

/-- An outcome is read of its name. -/
theorem outcome_reads : Reads Shape.takes Shape.follows map
    ⟨name, .required, .whole (isOneOf ["verifying", "applied", "failed"])⟩
    (some ∘ fun outcome => .string outcome.asStr)
    (string map name >>= Outcome.read = .ok ·) := by
  refine Envelope.reads_required
    (fun value => value.asStr.bind fun name => (Outcome.read name).toOption) ?_ ?_ ?_
  · intro outcome
    have hname : ∀ text, string map name = .ok text ↔
        (Json.get map name).bind Json.asStr = some text := fun _ => member_eq_ok
    rw [Fallible.bind_ok]
    simp only [hname, ← Fallible.toOption_eq_some]
    rw [← Option.bind_eq_some_iff, Option.bind_assoc]
  · intro value
    have hnames : ["verifying", "applied", "failed"] =
        [Outcome.verifying, .applied, .failed].map Outcome.asStr := rfl
    simp only [Shape.takes, hnames, outcome_toOption]
    exact isOneOf_find value
  · exact fun value outcome houtcome => .inr (isScalar_of_asStr value outcome houtcome)

/-- A value that is to be there, whatever it is, is read. -/
theorem anyMember_reads {what : String} : Reads Shape.takes Shape.follows map
    ⟨name, .required, .whole fun _ => true⟩ some (member map name what some = .ok ·) := by
  refine Envelope.reads_required some (fun _ => member_eq_ok) (fun _ => rfl) ?_
  intro value a ha
  cases ha
  exact .inl rfl

/-- A revision is read. -/
theorem revision_reads : Reads Shape.takes Shape.follows map
    ⟨name, .required, .whole (isBelow 4294967296)⟩ (some ∘ fun n => .number (.int n.toNat))
    (fromMember formats map name readU32 = .ok ·) :=
  fromMember_reads isBelow_readU32 isScalar_of_readU32

/-- The date of a build is read. -/
theorem built_reads : Reads Shape.takes Shape.follows map
    ⟨name, .required, .whole (isDate formats)⟩
    (some ∘ fun date => .string (formats.showDate date))
    (fromMember formats map name (fun value => value.asStr.bind formats.readDate) = .ok ·) :=
  fromMember_reads (fun _ => rfl) isScalar_of_asStr

/-- The state of a run is read. -/
theorem run_reads : Reads Shape.takes Shape.follows map
    ⟨name, .required, .whole (isOneOf ["idle", "running", "waiting", "failed", "finished"])⟩
    (some ∘ fun run => .string run.asStr)
    (fromMember formats map name (fun value => value.asStr.bind RunState.read) = .ok ·) := by
  have hnames : ["idle", "running", "waiting", "failed", "finished"] =
      [RunState.idle, .running, .waiting, .failed, .finished].map RunState.asStr := rfl
  rw [hnames]
  exact fromMember_reads isOneOf_find isScalar_of_asStr

/-- A required member of an entry is read where it is there and has a value. -/
theorem required_eq_ok {α : Type} {reason : String} {read : Json φ → Option α} {a : α} :
    Entry.required map name reason read = .ok a ↔ (Json.get map name).bind read = some a := by
  unfold Entry.required
  cases (Json.get map name).bind read <;> simp

/-- A whole number below `2 ^ 64` is one. -/
theorem isBelow_readU64 (value : Json φ) :
    isBelow 18446744073709551616 value = (Entry.readU64 value).isSome := by
  cases value with
  | number n =>
      cases n with
      | int i =>
          simp only [isBelow, Entry.readU64]
          split <;> simp_all
      | float f => rfl
  | _ => rfl

/-- The time of an entry is read. -/
theorem time_reads {reason : String} : Reads Shape.takes Shape.follows map
    ⟨name, .required, .whole (isBelow 18446744073709551616)⟩
    (some ∘ fun n => .number (.int n.toNat))
    (Entry.required map name reason Entry.readU64 = .ok ·) := by
  refine Envelope.reads_required _ (fun _ => required_eq_ok) isBelow_readU64 ?_
  intro value n hn
  cases value with
  | number n => exact .inr rfl
  | _ => cases hn

/-- An entry is read member by member. -/
theorem entry_taken {nameMember : String} {wrap : Entry φ → Message φ Date}
    (hmembers : ∀ entry, (wrap entry).members formats = entry.members nameMember) :
    Taken Shape.takes Shape.follows map (Message.members formats) (entryMembers nameMember) []
      ((do pure (wrap (← Entry.readFrom nameMember map)) : Except String _) = .ok ·) := by
  simp only [Entry.readFrom, bind_assoc, pure_bind]
  refine .bind time_reads fun atMillis => ?_
  refine .bind (Envelope.reads_required _ (fun _ => required_eq_ok) (fun _ => rfl)
    fun _ _ => text_follows) fun name => ?_
  refine .bind (Envelope.reads_required _ (fun _ => required_eq_ok) isObject_eq
    fun _ _ => object_follows) fun traits => ?_
  refine .bind (Envelope.reads_required _ (fun _ => required_eq_ok) (fun _ => rfl)
    fun _ _ => text_follows) fun kind => ?_
  refine .bind (Envelope.reads_optional _ (fun _ => optionalMember_eq_ok) (fun _ => rfl)
    fun _ _ => text_follows) fun unit => ?_
  exact .given (Envelope.reads_free (fun _ => rfl) fun _ => .inl rfl) (.pure (hmembers _))

end Bliti.Channel.Messages
