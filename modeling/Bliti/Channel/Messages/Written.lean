import Bliti.Channel.Envelope.Kept
import Bliti.Channel.Messages.ReadBack

/-!
# The message set - messages written and read

A message is read off a stream as it was written there, where its raw payloads keep to
plain member names and JSON carries it.  Only the kind of a prompt may change: one kept
by the name of a kind that is known is read as that kind.

Main results:

- Theorem `Message.read_write_message`: off a stream too, exactly where the kinds of its
  prompts are their own.
-/

namespace Bliti.Channel.Messages

open Config (Failure)
open Envelope (AllPlain Cased Kept Marked Paths Plain Raw)
open Readings (Entry)
open Report

variable {φ Date : Type} {formats : Formats φ Date}

/-! ## Members written -/

/-- A failure is written with plain member names. -/
theorem kept_failure (failure : Failure) : Kept (φ := φ) (.object failure.toMap) := by
  obtain ⟨atPath, reason, reached⟩ := failure
  have hbase : Kept (φ := φ) (.object (Json.insert (Json.insert [] "at" (.string atPath)) "reason"
      (.string reason))) :=
    Envelope.kept_insert (Envelope.kept_insert Envelope.kept_nil (by decide) (by simp))
      (by decide) (by simp)
  cases reached with
  | none => exact hbase
  | some reached => exact Envelope.kept_insert hbase (by decide) (by simp)

/-- A double is written with no member names. -/
@[simp]
theorem kept_double (double : Double φ) : Kept (number double) := by
  cases double <;> exact trivial

/-- A time is written with plain member names. -/
@[simp]
theorem kept_span (span : Span φ) : Kept span.toJson :=
  Envelope.kept_insert (Envelope.kept_insert Envelope.kept_nil (by decide) (kept_double _))
    (by decide) (kept_double _)

/-- Texts are written with no member names. -/
@[simp]
theorem kept_textArray (items : List String) : Kept (φ := φ) (textArray items) := by
  simp [textArray]

/-- A step whose result keeps to plain member names is written with them. -/
theorem kept_step {step : StepReport φ}
    (hresult : ∀ result, step.result = some result → Kept (.object result)) :
    Kept (.object step.toMap) := by
  have hsame : step.toMap = Json.setAll [] [("id", some (.string step.id)),
      ("title", some (.string step.title)), ("done", some (.string step.done.asStr)),
      ("why", step.why.map Json.string), ("state", some (.string step.state.asStr)),
      ("progress", step.progress.map number), ("reason", step.reason.map Json.string),
      ("result", step.result.map Json.object)] := rfl
  have hnames : AllPlain StepReport.names := by decide
  rw [hsame]
  apply Envelope.kept_setAll Envelope.kept_nil
  · exact hnames
  · simpa using hresult

/-- A prompt is written with plain member names. -/
@[simp]
theorem kept_prompt (prompt : PromptReport) : Kept (φ := φ) (.object prompt.toMap) := by
  have hsame : prompt.toMap (φ := φ) = Json.setAll [] [("id", some (.string prompt.id)),
      ("step", some (.string prompt.step)), ("kind", some (.string prompt.kind.asStr)),
      ("text", some (.string prompt.text)), ("blocking", some (.bool prompt.blocking)),
      ("default", prompt.default.map Json.string)] := rfl
  have hnames : AllPlain PromptReport.names := by decide
  rw [hsame]
  apply Envelope.kept_setAll Envelope.kept_nil
  · exact hnames
  · simp

/-- The members written as critical are plain names with a letter. -/
theorem cased_criticalMembers (typeName : String) {name : String}
    (hname : name ∈ criticalMembers typeName) : Cased name := by
  have hall : ∀ name ∈ ["topic", "document", "act", "method", "key", "name", "peer", "steps",
      "prompt", "value"], Plain name ∧ name.toList.any Char.isLower = true := by
    decide
  have hin : name ∈ ["topic", "document", "act", "method", "key", "name", "peer", "steps",
      "prompt", "value"] := by
    unfold criticalMembers at hname
    grind
  obtain ⟨hplain, hletter⟩ := hall name hin
  exact Envelope.cased_of_plain hplain hletter

namespace Message

/-- The raw JSON a message carries. -/
def raws : Message φ Date → List (Json φ)
  | fact entry => .object entry.traits :: entry.value.toList
  | reading entry => .object entry.traits :: entry.value.toList
  | configuration document capabilities =>
      .object document :: (capabilities.map Json.object).toList
  | state _ _ _ attachments capabilities => attachments ++ (capabilities.map Json.object).toList
  | networks accessPoints => accessPoints
  | spectrum found => [.object found]
  | curves document _ _ => document.toList
  | load document => [document]
  | tailscaleResult result => [.object result]
  | provisionState _ _ _ _ _ steps _ =>
      steps.filterMap fun step => step.result.map Json.object
  | provisionAct _ _ _ value => (value.map Answer.value).toList
  | _ => []

variable {message : Message φ Date}

/-- The members of a message have plain names. -/
theorem plain_members (formats : Formats φ Date) (message : Message φ Date) :
    AllPlain ((message.members formats).map Prod.fst) := by
  cases message <;> simp only [members, Entry.members, List.map_cons, List.map_nil] <;> decide

/-- The members of a message keep to plain names where its raw payloads do. -/
theorem kept_members (hkept : ∀ raw ∈ message.raws, Kept raw) :
    ∀ member ∈ message.members formats, ∀ value, member.2 = some value → Kept value := by
  cases message with
  | provisionState revision built run checked provisioned steps prompts =>
      have hsteps : ∀ step ∈ steps, Kept (.object step.toMap) := by
        intro step hstep
        apply kept_step
        intro result hresult
        exact hkept _ (List.mem_filterMap.mpr ⟨step, hstep, by simp [hresult]⟩)
      simp only [members, List.forall_mem_cons]
      simpa using hsteps
  | _ => simp_all [members, Entry.members, raws, kept_failure]

/-- A message is written with plain member names, where its raw payloads keep to them. -/
theorem kept_toMap (hkept : ∀ raw ∈ message.raws, Kept raw) :
    Kept (.object (message.toMap formats)) := by
  have htyped : Kept (φ := φ) (.object (typed message.typeName)) :=
    Envelope.kept_insert Envelope.kept_nil (by decide) (by simp)
  exact Envelope.kept_setAll htyped (plain_members formats message) (kept_members hkept)

/-! ## Messages off a stream -/

/-- A message as it is read of its object: the kind of each prompt is read of its name. -/
def asRead : Message φ Date → Message φ Date
  | provisionState revision built run checked provisioned steps prompts =>
      provisionState revision built run checked provisioned steps
        (prompts.map PromptReport.asRead)
  | message => message

/-- A message as it is read is written as the message is. -/
theorem toMap_asRead : message.asRead.toMap formats = message.toMap formats := by
  cases message with
  | provisionState revision built run checked provisioned steps prompts =>
      simp [toMap, asRead, members, typeName, Function.comp_def]
  | _ => rfl

/-- A message is as it is read exactly where the kinds of its prompts are their own. -/
theorem asRead_eq_self : message.asRead = message ↔ ∀ kind ∈ message.kinds, kind.Proper := by
  cases message with
  | provisionState revision built run checked provisioned steps prompts =>
      have hid : prompts.map PromptReport.asRead = prompts ↔
          ∀ prompt ∈ prompts, prompt.asRead = prompt := by
        conv_lhs => rhs; rw [← List.map_id prompts]
        exact List.map_inj_left
      simp [asRead, kinds, hid, PromptReport.asRead_eq_self]
  | _ => simp [asRead, kinds]

/-- What is critical on a message written is what its type is held to. -/
theorem checkPinned_written (hplain : AllPlain ((message.toMap formats).map Prod.fst))
    {critical : Paths} (hmarked : ∀ p, p ∈ critical ↔
      Marked "" ((criticalMembers message.typeName).foldl Envelope.upperCased
        (message.toMap formats)) p) :
    Envelope.checkPinned message.typeName (message.toMap formats) critical
      (criticality message.typeName) = .ok () := by
  cases message with
  | hello name version =>
      apply Envelope.checkPinned_exactly
      · intro p hp
        exact absurd ((hmarked p).mp hp) (Envelope.not_marked hplain)
      · simp
  | subscribe topic =>
      have htopic : ∀ p, p ∈ critical ↔ p = "topic" := by
        intro p
        have hcased : Cased "topic" := cased_criticalMembers "subscribe" (by simp [criticalMembers])
        have hget : Json.get ((subscribe topic).toMap formats) "topic" = some (.string topic) :=
          get_toMap (by simp [members])
        rw [hmarked]
        exact Envelope.marked_upperCased hcased hplain hget
      apply Envelope.checkPinned_exactly
      · simp [htopic]
      · simp [htopic]
  | _ => rfl

/-- The type of every message is one the set knows. -/
theorem knows_typeName (message : Message φ Date) :
    (messages formats).knows message.typeName = true := by
  cases message <;> rfl

/-- A message that is as it is read is read as it was written. -/
theorem readRaw_message
    (hdate : ∀ date ∈ message.dates, formats.readDate (formats.showDate date) = some date)
    (hkept : ∀ raw ∈ message.raws, Kept raw) (hcarried : message.Carried)
    (hproper : ∀ kind ∈ message.kinds, kind.Proper) :
    Envelope.readRaw (messages formats) (Raw.ofJson (Envelope.written (messages formats) message)) =
      .ok (.message message) := by
  have hobject : Kept (.object (message.toMap formats)) := kept_toMap hkept
  have hplain := (Json.everyObject_object.mp hobject).1.1
  apply Envelope.readRaw_written rfl hobject
  · exact fromMap_toMap hdate hcarried hproper
  · exact get_type
  · exact knows_typeName message
  · exact fun name hname => cased_criticalMembers message.typeName hname
  · exact fun critical hmarked => checkPinned_written hplain hmarked

/-- The kinds of the prompts of a message as it is read are their own. -/
theorem proper_asRead : ∀ kind ∈ message.asRead.kinds, kind.Proper := by
  cases message with
  | provisionState revision built run checked provisioned steps prompts =>
      intro kind hkind
      obtain ⟨prompt, hprompt, rfl⟩ := List.mem_map.mp hkind
      obtain ⟨written, -, rfl⟩ := List.mem_map.mp hprompt
      apply PromptKind.read_asStr.mp
      simp [PromptReport.asRead]
  | _ => simp [asRead, kinds]

/-- A message as it is read carries the raw payloads of the message. -/
@[simp]
theorem raws_asRead : message.asRead.raws = message.raws := by
  cases message <;> rfl

/-- A message as it is read carries the dates of the message. -/
@[simp]
theorem dates_asRead : message.asRead.dates = message.dates := by
  cases message <;> rfl

/-- A message as it is read is one JSON carries where the message is. -/
theorem carried_asRead (hcarried : message.Carried) : message.asRead.Carried := by
  have hdoubles : message.asRead.doubles = message.doubles := by
    cases message <;> rfl
  have hpayloads : message.asRead.payloads = message.payloads := by
    cases message <;> rfl
  exact ⟨hdoubles ▸ hcarried.finite, hpayloads ▸ hcarried.set⟩

/-- A message that JSON carries is read of its object, but for the kinds of its prompts. -/
theorem fromValue_toMap
    (hdate : ∀ date ∈ message.dates, formats.readDate (formats.showDate date) = some date)
    (hcarried : message.Carried) :
    (messages formats).fromValue (.object (message.toMap formats)) = .ok message.asRead := by
  rw [← toMap_asRead]
  exact fromMap_toMap (by simpa using hdate) (carried_asRead hcarried) proper_asRead

/-- No member of a message is lost as it is written and read. -/
theorem roundTripOmissions_eq_nil
    (hdate : ∀ date ∈ message.dates, formats.readDate (formats.showDate date) = some date)
    (hkept : ∀ raw ∈ message.raws, Kept raw) (hcarried : message.Carried) :
    Envelope.roundTripOmissions (messages formats) message = [] := by
  have hvalue : ∀ message : Message φ Date,
      (messages formats).toValue message = .object (message.toMap formats) := fun _ => rfl
  have hunknown : Envelope.collectUnknown "" ∅ (.object (message.toMap formats))
      (.object (message.toMap formats)) = ∅ :=
    Envelope.collectUnknown_self _ (kept_toMap hkept).ascending
  unfold Envelope.roundTripOmissions
  simp only [hvalue, fromValue_toMap hdate hcarried, toMap_asRead, hunknown]
  rfl

variable [ToString φ] {fromStr : String → Except String (Raw φ)}

/-- A message is read off a stream as it was written, but for the kinds of its prompts. -/
theorem read_write
    (hdate : ∀ date ∈ message.dates, formats.readDate (formats.showDate date) = some date)
    (hparsed : fromStr (Envelope.written (messages formats) message).text =
      .ok (Raw.ofJson (Envelope.written (messages formats) message)))
    (hkept : ∀ raw ∈ message.raws, Kept raw) (hcarried : message.Carried) :
    Envelope.read (messages formats) fromStr (Envelope.write (messages formats) message) =
      .ok (.message message.asRead) := by
  have hwritten : Envelope.written (messages formats) message =
      Envelope.written (messages formats) message.asRead := by
    simp only [Envelope.written, messages, toMap_asRead]
  rw [Envelope.read_write hparsed, hwritten]
  apply readRaw_message
  · simpa using hdate
  · simpa using hkept
  · exact carried_asRead hcarried
  · exact proper_asRead

/-- A message is read off a stream as it was written exactly where the kinds of its prompts are
their own, and none of its members is lost either way. -/
theorem read_write_message
    (hdate : ∀ date ∈ message.dates, formats.readDate (formats.showDate date) = some date)
    (hparsed : fromStr (Envelope.written (messages formats) message).text =
      .ok (Raw.ofJson (Envelope.written (messages formats) message)))
    (hkept : ∀ raw ∈ message.raws, Kept raw) (hcarried : message.Carried) :
    (Envelope.read (messages formats) fromStr (Envelope.write (messages formats) message) =
        .ok (.message message) ↔ ∀ kind ∈ message.kinds, kind.Proper) ∧
      Envelope.roundTripOmissions (messages formats) message = [] := by
  constructor
  · rw [read_write hdate hparsed hkept hcarried, Except.ok.injEq, Envelope.Reading.message.injEq]
    exact asRead_eq_self
  · exact roundTripOmissions_eq_nil hdate hkept hcarried

/-- Formats of dates kept as text and of doubles that are whole. -/
def plainFormats : Formats Int String where
  ofInt := fun i => i
  showDate := fun date => date
  readDate := some
  wrong := fun expected _ => expected

/-- A JSON reader that knows the text of one message. -/
def readerOf (message : Message Int String) (text : String) : Except String (Raw Int) :=
  if text = (Envelope.written (messages plainFormats) message).text then
    .ok (Raw.ofJson (Envelope.written (messages plainFormats) message))
  else .error "expected value"

/-- It reads the text of the message. -/
theorem readerOf_text (message : Message Int String) :
    readerOf message (Envelope.written (messages plainFormats) message).text =
      .ok (Raw.ofJson (Envelope.written (messages plainFormats) message)) :=
  if_pos rfl

/-- An answer to a prompt. -/
def answered : Message Int String :=
  provisionAct "answer" none (some "overwrite") (some ⟨.bool true⟩)

/-- An answer to a prompt is read as it was written. -/
theorem read_write_answered :
    Envelope.read (messages plainFormats) (readerOf answered)
        (Envelope.write (messages plainFormats) answered) = .ok (.message answered) ∧
      Envelope.roundTripOmissions (messages plainFormats) answered = [] := by
  have hkept : ∀ raw ∈ answered.raws, Kept raw := by simp [answered, raws]
  have hcarried : answered.Carried :=
    ⟨by simp [answered, doubles], by simp [answered, payloads, Json.isNull]⟩
  obtain ⟨hread, homissions⟩ :=
    read_write_message (fun _ _ => rfl) (readerOf_text answered) hkept hcarried
  exact ⟨hread.mpr (by simp [answered, kinds]), homissions⟩

/-- A prompt kept by the name of a notice. -/
def noticed : Message Int String :=
  provisionState 0 "2026-01-01" .running false false [] [{
    id := "ready"
    step := "disk"
    kind := .other "notice"
    text := "The disk is ready"
    blocking := false
    default := none }]

/-- A message with a prompt kept by the name of a kind that is known is not read as it was
written. -/
theorem not_read_write_noticed :
    ¬ ∀ (message : Message Int String) (fromStr : String → Except String (Raw Int)),
      fromStr (Envelope.written (messages plainFormats) message).text =
        .ok (Raw.ofJson (Envelope.written (messages plainFormats) message)) →
      (∀ raw ∈ message.raws, Kept raw) → message.Carried →
      Envelope.read (messages plainFormats) fromStr
          (Envelope.write (messages plainFormats) message) = .ok (.message message) ∧
        Envelope.roundTripOmissions (messages plainFormats) message = [] := by
  intro hall
  have hkept : ∀ raw ∈ noticed.raws, Kept raw := by simp [noticed, raws]
  have hcarried : noticed.Carried :=
    ⟨by simp [noticed, doubles], by simp [noticed, payloads]⟩
  have hread : Envelope.read (messages plainFormats) (readerOf noticed)
      (Envelope.write (messages plainFormats) noticed) = .ok (.message noticed.asRead) :=
    read_write (fun _ _ => rfl) (readerOf_text noticed) hkept hcarried
  have hsame := (hall noticed _ (readerOf_text noticed) hkept hcarried).1
  rw [hread, Except.ok.injEq, Envelope.Reading.message.injEq, asRead_eq_self] at hsame
  have hproper : PromptKind.Proper (.other "notice") := hsame _ (by simp [noticed, kinds])
  exact hproper "notice" rfl (by simp)

end Message

end Bliti.Channel.Messages
