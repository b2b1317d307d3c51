import Bliti.Channel.Messages

/-!
# The message set - messages read back

A message is read back of the object it is written as, where its numbers are ones JSON
can carry, its optional raw payloads are left out rather than null and the kinds of
its prompts are their own.
-/

namespace Bliti.Channel.Messages

open Config (Failure Outcome)
open Readings (Entry)
open Report

variable {φ Date : Type} {formats : Formats φ Date}

/-! ## Messages JSON carries -/

namespace Message

/-- The doubles of a message. -/
def doubles : Message φ Date → List (Double φ)
  | curves _ lasts recharge =>
      (lasts.toList ++ recharge.toList).flatMap fun span => [span.duration, span.margin]
  | provisionState _ _ _ _ _ steps _ => steps.filterMap StepReport.progress
  | _ => []

/-- The raw payloads of a message that are left out where there is none. -/
def payloads : Message φ Date → List (Json φ)
  | curves document _ _ => document.toList
  | provisionAct _ _ _ value => (value.map Answer.value).toList
  | _ => []

/-- The kinds of the prompts of a message. -/
def kinds : Message φ Date → List PromptKind
  | provisionState _ _ _ _ _ _ prompts => prompts.map PromptReport.kind
  | _ => []

/-- The dates of a message. -/
def dates : Message φ Date → List Date
  | provisionState _ built _ _ _ _ _ => [built]
  | _ => []

/-- A message that JSON carries: its numbers are ones JSON can carry and its optional payloads
are left out rather than null. -/
structure Carried (message : Message φ Date) : Prop where
  finite : ∀ double ∈ message.doubles, double.isSome = true
  set : ∀ payload ∈ message.payloads, payload.isNull = false

end Message

/-! ## Members read back -/

variable {map : Json.Map φ} {name : String}

/-- A member found is read. -/
theorem member_ok {α : Type} {what : String} {read : Json φ → Option α} {value : Json φ} {a : α}
    (hget : Json.get map name = some value) (hread : read value = some a) :
    member map name what read = .ok a := by
  unfold member
  rw [hget, Option.bind_some, hread]

/-- A member that may be left out is read back of how it is written. -/
theorem optional_ok {α : Type} {what : String} {read : Json φ → Option α} {write : α → Json φ}
    {value : Option α} (hget : Json.get map name = value.map write)
    (hread : ∀ a, read (write a) = some a) (hset : ∀ a, (write a).isNull = false) :
    optional map name what read = .ok value := by
  unfold optional Config.optionalMember
  rw [hget]
  rcases value with _ | a
  · rfl
  · have hwrite := hset a
    rw [Option.map_some]
    split
    · cases ‹some (write a) = none›
    · rename_i hnull
      rw [Option.some.inj hnull] at hwrite
      cases hwrite
    · rename_i value _ hvalue
      rw [← Option.some.inj hvalue, hread]

/-- A text is read. -/
theorem string_ok {value : String} (hget : Json.get map name = some (.string value)) :
    string map name = .ok value :=
  member_ok hget rfl

/-- A truth value is read. -/
theorem boolean_ok {value : Bool} (hget : Json.get map name = some (.bool value)) :
    boolean map name = .ok value :=
  member_ok hget rfl

/-- An object is read. -/
theorem object_ok {value : Json.Map φ} (hget : Json.get map name = some (.object value)) :
    object map name = .ok value :=
  member_ok hget rfl

/-- An array is read. -/
theorem array_ok {items : List (Json φ)} (hget : Json.get map name = some (.array items)) :
    array map name = .ok items :=
  member_ok hget rfl

/-- A text that may be left out is read back. -/
theorem optionalString_ok {value : Option String}
    (hget : Json.get map name = value.map Json.string) :
    optionalString map name = .ok value :=
  optional_ok hget (fun _ => rfl) fun _ => rfl

/-- An object that may be left out is read back. -/
theorem optionalObject_ok {value : Option (Json.Map φ)}
    (hget : Json.get map name = value.map Json.object) :
    optionalObject map name = .ok value :=
  optional_ok hget (fun _ => rfl) fun _ => rfl

theorem mapM_map {α β : Type} {write : α → β} {read : β → Option α} {items : List α}
    (hread : ∀ a ∈ items, read (write a) = some a) :
    (items.map write).mapM read = some items := by
  induction items with
  | nil => rfl
  | cons item rest ih =>
      rw [List.forall_mem_cons] at hread
      rw [List.map_cons, List.mapM_cons, hread.1, ih hread.2]
      rfl

/-- Texts are read back of their array. -/
theorem strings_ok {items : List String} (hget : Json.get map name = some (textArray items)) :
    strings map name = .ok items := by
  have harray : array map name = .ok (items.map Json.string) := member_ok hget rfl
  have htexts : (items.map (Json.string (φ := φ))).mapM Json.asStr = some items :=
    mapM_map fun _ _ => rfl
  unfold strings
  rw [harray, Fallible.ok_bind, htexts]
  rfl

/-- Texts that may be left out are read back. -/
theorem optionalStrings_ok {value : Option (List String)}
    (hget : Json.get map name = value.map textArray) :
    optionalStrings map name = .ok value := by
  unfold optionalStrings
  rcases value with _ | items
  · rw [hget]
    rfl
  · rw [Option.map_some] at hget
    rw [strings_ok hget, hget]
    rfl

/-- A failure that may be left out is read back. -/
theorem optionalFailure_ok {value : Option Failure}
    (hget : Json.get map name = value.map fun failure => .object failure.toMap) :
    optionalFailure map name = .ok value := by
  have hobject : optionalObject map name = .ok (value.map Failure.toMap) := by
    apply optionalObject_ok
    rw [hget, Option.map_map]
    rfl
  unfold optionalFailure
  rw [hobject, Fallible.ok_bind]
  rcases value with _ | failure
  · rfl
  · simp [Except.map]

/-- A time whose numbers JSON can carry is read back. -/
theorem optionalSpan_ok {value : Option (Span φ)}
    (hget : Json.get map name = value.map Span.toJson)
    (hfinite : ∀ span, value = some span →
      span.duration.isSome = true ∧ span.margin.isSome = true) :
    optionalSpan formats map name = .ok value := by
  rcases value with _ | span
  · have hobject : optionalObject map name = .ok none := by
      apply optionalObject_ok
      exact hget
    unfold optionalSpan
    rw [hobject]
    rfl
  · obtain ⟨duration, margin⟩ := span
    obtain ⟨hduration, hmargin⟩ := hfinite _ rfl
    obtain ⟨duration, rfl⟩ := Option.isSome_iff_exists.mp hduration
    obtain ⟨margin, rfl⟩ := Option.isSome_iff_exists.mp hmargin
    let written : Json.Map φ := Json.insert (Json.insert [] "duration" (number (some duration)))
      "margin" (number (some margin))
    have hobject : optionalObject map name = .ok (some written) := by
      apply optionalObject_ok
      exact hget
    unfold optionalSpan
    rw [hobject, Fallible.ok_bind]
    simp [seconds, written, number, asF64, pure, Except.pure]

/-- A member of a shape of its own is read back. -/
theorem fromMember_ok {α : Type} {read : Json φ → Option α} {value : Json φ} {a : α}
    (hget : Json.get map name = some value) (hread : read value = some a) :
    fromMember formats map name read = .ok a := by
  unfold fromMember
  rw [hget]
  simp only
  rw [hread]

/-- A payload that may be left out is read back, where it is not null. -/
theorem optionalValue_ok {value : Option (Json φ)} (hget : Json.get map name = value)
    (hset : ∀ payload ∈ value.toList, payload.isNull = false) :
    optionalValue map name = value := by
  unfold optionalValue
  rw [hget]
  cases value with
  | none => rfl
  | some payload => simp [Option.filter, hset payload (by simp)]

/-- A whole number is read back. -/
theorem readU32_toNat (n : UInt32) : readU32 (φ := φ) (.number (.int n.toNat)) = some n := by
  have hn := n.toNat_lt
  rw [readU32, if_pos (by omega)]
  simp

/-! ## Messages read back -/

namespace Message

/-- No member of a message is named twice, nor as its type is. -/
theorem nodup_members (formats : Formats φ Date) (message : Message φ Date) :
    ("type" :: (message.members formats).map Prod.fst).Nodup := by
  cases message <;> simp [members, Entry.members]

variable {message : Message φ Date}

/-- The type of a message is found. -/
theorem get_type :
    Json.get (message.toMap formats) "type" = some (.string message.typeName) := by
  have hnew := (List.nodup_cons.mp (nodup_members formats message)).1
  unfold toMap
  rw [Json.get_setAll_of_not_mem hnew]
  simp [typed]

/-- A member of a message is found where there is a value for it. -/
theorem get_toMap {name : String} {value : Option (Json φ)}
    (hmember : (name, value) ∈ message.members formats) :
    Json.get (message.toMap formats) name = value := by
  obtain ⟨hnew, hdistinct⟩ := List.nodup_cons.mp (nodup_members formats message)
  have hname : ¬ "type" = name := fun hsame =>
    hnew (hsame ▸ List.mem_map.mpr ⟨(name, value), hmember, rfl⟩)
  apply Json.get_setAll_of_mem hdistinct _ hmember
  simp [typed, hname]

/-- A message is read by the reader of its type. -/
theorem fromMap_of_lookup {read : Json.Map φ → Except String (Message φ Date)}
    (hread : (readers formats).lookup message.typeName = some read) :
    fromMap formats (message.toMap formats) = read (message.toMap formats) := by
  unfold fromMap
  rw [get_type]
  simp only [Json.asStr, Option.bind_some, hread]

/-- What a configuration came to is read back. -/
theorem fromMap_state {busy : Bool} {outcome : Outcome} {failure : Option Failure}
    {attachments : List (Json φ)} {capabilities : Option (Json.Map φ)} :
    fromMap formats ((state busy outcome failure attachments capabilities :
        Message φ Date).toMap formats) =
      .ok (state busy outcome failure attachments capabilities) := by
  let map := (state busy outcome failure attachments capabilities).toMap formats
  have hbusy : boolean map "busy" = .ok busy := boolean_ok (get_toMap (by simp [members]))
  have houtcome : string map "outcome" = .ok outcome.asStr :=
    string_ok (get_toMap (by simp [members]))
  have hfailure : optionalFailure map "failure" = .ok failure :=
    optionalFailure_ok (get_toMap (by simp [members]))
  have hattachments : array map "attachments" = .ok attachments :=
    array_ok (get_toMap (by simp [members]))
  have hcapabilities : optionalObject map "capabilities" = .ok capabilities :=
    optionalObject_ok (get_toMap (by simp [members]))
  rw [fromMap_of_lookup rfl, hbusy, houtcome, Fallible.ok_bind, Fallible.ok_bind,
    Outcome.read_asStr, hfailure, hattachments, hcapabilities]
  rfl

/-- The curves in force are read back, where their times are ones JSON can carry. -/
theorem fromMap_curves {document : Option (Json φ)} {lasts recharge : Option (Span φ)}
    (hcarried : (curves document lasts recharge : Message φ Date).Carried) :
    fromMap formats ((curves document lasts recharge : Message φ Date).toMap formats) =
      .ok (curves document lasts recharge) := by
  let map := (curves document lasts recharge).toMap formats
  have hdocument : optionalValue map "document" = document :=
    optionalValue_ok (get_toMap (by simp [members])) hcarried.set
  have hlasts : optionalSpan formats map "lasts" = .ok lasts := by
    apply optionalSpan_ok (get_toMap (by simp [members]))
    intro span hspan
    exact ⟨hcarried.finite _ (by simp [doubles, hspan]),
      hcarried.finite _ (by simp [doubles, hspan])⟩
  have hrecharge : optionalSpan formats map "recharge" = .ok recharge := by
    apply optionalSpan_ok (get_toMap (by simp [members]))
    intro span hspan
    exact ⟨hcarried.finite _ (by simp [doubles, hspan]),
      hcarried.finite _ (by simp [doubles, hspan])⟩
  rw [fromMap_of_lookup rfl, hdocument, hlasts, hrecharge]
  rfl

/-- An act asked of tailscale is read back. -/
theorem fromMap_tailscaleAct {asked : String} {method : Option String} {key : Option Secret}
    {name peer : Option String} :
    fromMap formats ((tailscaleAct asked method key name peer : Message φ Date).toMap formats) =
      .ok (tailscaleAct asked method key name peer) := by
  let map := (tailscaleAct asked method key name peer).toMap formats
  have hact : string map "act" = .ok asked := string_ok (get_toMap (by simp [members]))
  have hmethod : optionalString map "method" = .ok method :=
    optionalString_ok (get_toMap (by simp [members]))
  have hkey : optionalString map "key" = .ok (key.map Secret.exposed) := by
    apply optionalString_ok
    rw [Option.map_map]
    exact get_toMap (by simp [members, Function.comp_def])
  have hname : optionalString map "name" = .ok name :=
    optionalString_ok (get_toMap (by simp [members]))
  have hpeer : optionalString map "peer" = .ok peer :=
    optionalString_ok (get_toMap (by simp [members]))
  have hsecret : (key.map Secret.exposed).map Secret.mk = key := by
    cases key <;> rfl
  rw [fromMap_of_lookup rfl, hact, hmethod, hkey, hname, hpeer]
  simp [hsecret, pure, Except.pure]

/-- An act asked of provisioning is read back, where its value is left out rather than null. -/
theorem fromMap_provisionAct {asked : String} {steps : Option (List String)}
    {prompt : Option String} {value : Option (Answer φ)}
    (hcarried : (provisionAct asked steps prompt value : Message φ Date).Carried) :
    fromMap formats ((provisionAct asked steps prompt value : Message φ Date).toMap formats) =
      .ok (provisionAct asked steps prompt value) := by
  let map := (provisionAct asked steps prompt value).toMap formats
  have hact : string map "act" = .ok asked := string_ok (get_toMap (by simp [members]))
  have hsteps : optionalStrings map "steps" = .ok steps :=
    optionalStrings_ok (get_toMap (by simp [members]))
  have hprompt : optionalString map "prompt" = .ok prompt :=
    optionalString_ok (get_toMap (by simp [members]))
  have hvalue : optionalValue map "value" = value.map Answer.value :=
    optionalValue_ok (get_toMap (by simp [members])) hcarried.set
  have hanswer : (value.map Answer.value).map Answer.mk = value := by
    cases value <;> rfl
  rw [fromMap_of_lookup rfl, hact, hsteps, hprompt, hvalue, hanswer]
  rfl

/-- Steps are read back, where their progress is a number JSON can carry. -/
theorem mapM_readStep {steps : List (StepReport φ)}
    (hfinite : ∀ progress ∈ steps.filterMap StepReport.progress, progress.isSome = true) :
    (steps.map fun step => Json.object step.toMap).mapM (StepReport.read formats.ofInt) =
      some steps := by
  apply mapM_map
  intro step hstep
  apply StepReport.read_toMap
  intro progress hprogress
  exact hfinite _ (List.mem_filterMap.mpr ⟨step, hstep, hprogress⟩)

/-- Prompts are read back, where none is kept by the name of a kind that is known. -/
theorem mapM_readPrompt {prompts : List PromptReport}
    (hproper : ∀ kind ∈ prompts.map PromptReport.kind, kind.Proper) :
    (prompts.map fun prompt => Json.object (φ := φ) prompt.toMap).mapM PromptReport.read =
      some prompts := by
  apply mapM_map
  intro prompt hprompt
  have hkind : PromptKind.read prompt.kind.asStr = prompt.kind :=
    PromptKind.read_asStr.mpr (hproper _ (List.mem_map_of_mem hprompt))
  rw [PromptReport.read_toMap, hkind]

/-- Where provisioning stands is read back, where its progress is a number JSON can carry and no
prompt is kept by the name of a kind that is known. -/
theorem fromMap_provisionState {revision : UInt32} {built : Date} {run : RunState}
    {checked provisioned : Bool} {steps : List (StepReport φ)} {prompts : List PromptReport}
    (hdate : ∀ date ∈ (provisionState revision built run checked provisioned steps prompts :
      Message φ Date).dates, formats.readDate (formats.showDate date) = some date)
    (hcarried : (provisionState revision built run checked provisioned steps prompts :
      Message φ Date).Carried)
    (hproper : ∀ kind ∈ prompts.map PromptReport.kind, kind.Proper) :
    fromMap formats ((provisionState revision built run checked provisioned steps prompts :
        Message φ Date).toMap formats) =
      .ok (provisionState revision built run checked provisioned steps prompts) := by
  let map := (provisionState revision built run checked provisioned steps prompts).toMap formats
  have hrevision : fromMember formats map "revision" readU32 = .ok revision :=
    fromMember_ok (get_toMap (by simp [members])) (readU32_toNat revision)
  have hbuilt : fromMember formats map "built"
      (fun value => value.asStr.bind formats.readDate) = .ok built := by
    have hmember : Json.get map "built" = some (.string (formats.showDate built)) :=
      get_toMap (by simp [members])
    exact fromMember_ok hmember (hdate built (by simp [dates]))
  have hrun : fromMember formats map "run" (fun value => value.asStr.bind RunState.read) =
      .ok run := by
    have hmember : Json.get map "run" = some (.string run.asStr) :=
      get_toMap (by simp [members])
    exact fromMember_ok hmember run.read_asStr
  have hchecked : boolean map "checked" = .ok checked :=
    boolean_ok (get_toMap (by simp [members]))
  have hprovisioned : boolean map "provisioned" = .ok provisioned :=
    boolean_ok (get_toMap (by simp [members]))
  have hsteps : fromMember formats map "steps" (fun value => (asArray value).bind fun items =>
      items.mapM (StepReport.read formats.ofInt)) = .ok steps := by
    have hmember : Json.get map "steps" =
        some (.array (steps.map fun step => .object step.toMap)) :=
      get_toMap (by simp [members])
    exact fromMember_ok hmember (mapM_readStep hcarried.finite)
  have hprompts : fromMember formats map "prompts" (fun value => (asArray value).bind
      fun items => items.mapM PromptReport.read) = .ok prompts := by
    have hmember : Json.get map "prompts" =
        some (.array (prompts.map fun prompt => .object prompt.toMap)) :=
      get_toMap (by simp [members])
    exact fromMember_ok hmember (mapM_readPrompt hproper)
  rw [fromMap_of_lookup rfl, hrevision, hbuilt, hrun, hchecked, hprovisioned, hsteps, hprompts]
  rfl

/-- Each message is read back of its object, where it is one JSON carries and no prompt is kept
by the name of a kind that is known. -/
theorem fromMap_toMap
    (hdate : ∀ date ∈ message.dates, formats.readDate (formats.showDate date) = some date)
    (hcarried : message.Carried) (hproper : ∀ kind ∈ message.kinds, kind.Proper) :
    fromMap formats (message.toMap formats) = .ok message := by
  cases message with
  | hello name version =>
      let map := (hello name version).toMap formats
      have hname : string map "name" = .ok name := string_ok (get_toMap (by simp [members]))
      have hversion : string map "version" = .ok version :=
        string_ok (get_toMap (by simp [members]))
      rw [fromMap_of_lookup rfl, hname, hversion]
      rfl
  | subscribe topic =>
      let map := (subscribe topic).toMap formats
      have htopic : string map "topic" = .ok topic := string_ok (get_toMap (by simp [members]))
      rw [fromMap_of_lookup rfl, htopic]
      rfl
  | endOfBatch =>
      rw [fromMap_of_lookup rfl]
  | configure =>
      rw [fromMap_of_lookup rfl]
  | configuration document capabilities =>
      let map := (configuration document capabilities).toMap formats
      have hdocument : object map "document" = .ok document :=
        object_ok (get_toMap (by simp [members]))
      have hcapabilities : optionalObject map "capabilities" = .ok capabilities :=
        optionalObject_ok (get_toMap (by simp [members]))
      rw [fromMap_of_lookup rfl, hdocument, hcapabilities]
      rfl
  | cannotAct asked atPath reason =>
      let map := (cannotAct asked atPath reason).toMap formats
      have hact : string map "act" = .ok asked := string_ok (get_toMap (by simp [members]))
      have hpath : string map "at" = .ok atPath := string_ok (get_toMap (by simp [members]))
      have hreason : string map "reason" = .ok reason := string_ok (get_toMap (by simp [members]))
      rw [fromMap_of_lookup rfl, hact, hpath, hreason]
      rfl
  | cannotConfigure atPath reason =>
      let map := (cannotConfigure atPath reason).toMap formats
      have hpath : string map "at" = .ok atPath := string_ok (get_toMap (by simp [members]))
      have hreason : string map "reason" = .ok reason := string_ok (get_toMap (by simp [members]))
      rw [fromMap_of_lookup rfl, hpath, hreason]
      rfl
  | scan interface =>
      let map := (scan interface).toMap formats
      have hinterface : optionalString map "interface" = .ok interface :=
        optionalString_ok (get_toMap (by simp [members]))
      rw [fromMap_of_lookup rfl, hinterface]
      rfl
  | survey interface =>
      let map := (survey interface).toMap formats
      have hinterface : optionalString map "interface" = .ok interface :=
        optionalString_ok (get_toMap (by simp [members]))
      rw [fromMap_of_lookup rfl, hinterface]
      rfl
  | networks accessPoints =>
      let map := (networks accessPoints).toMap formats
      have hpoints : array map "access-points" = .ok accessPoints :=
        array_ok (get_toMap (by simp [members]))
      rw [fromMap_of_lookup rfl, hpoints]
      rfl
  | spectrum found =>
      let map := (spectrum found).toMap formats
      have hspectrum : object map "spectrum" = .ok found :=
        object_ok (get_toMap (by simp [members]))
      rw [fromMap_of_lookup rfl, hspectrum]
      rfl
  | power =>
      rw [fromMap_of_lookup rfl]
  | acts offered =>
      let map := (acts offered).toMap formats
      have hacts : strings map "acts" = .ok offered := strings_ok (get_toMap (by simp [members]))
      rw [fromMap_of_lookup rfl, hacts]
      rfl
  | act asked =>
      let map := (act asked).toMap formats
      have hact : string map "act" = .ok asked := string_ok (get_toMap (by simp [members]))
      rw [fromMap_of_lookup rfl, hact]
      rfl
  | accepted =>
      rw [fromMap_of_lookup rfl]
  | goingAway asked cause =>
      let map := (goingAway asked cause).toMap formats
      have hact : string map "act" = .ok asked := string_ok (get_toMap (by simp [members]))
      have hcause : string map "cause" = .ok cause := string_ok (get_toMap (by simp [members]))
      rw [fromMap_of_lookup rfl, hact, hcause]
      rfl
  | curve =>
      rw [fromMap_of_lookup rfl]
  | load document =>
      let map := (load document).toMap formats
      have hdocument : member map "document" "a" some = .ok document :=
        member_ok (get_toMap (by simp [members])) rfl
      rw [fromMap_of_lookup rfl, hdocument]
      rfl
  | reset =>
      rw [fromMap_of_lookup rfl]
  | tailscale =>
      rw [fromMap_of_lookup rfl]
  | tailscaleActs offered =>
      let map := (tailscaleActs offered).toMap formats
      have hacts : strings map "acts" = .ok offered := strings_ok (get_toMap (by simp [members]))
      rw [fromMap_of_lookup rfl, hacts]
      rfl
  | tailscaleAccepted =>
      rw [fromMap_of_lookup rfl]
  | tailscaleLoginLink url =>
      let map := (tailscaleLoginLink url).toMap formats
      have hurl : string map "url" = .ok url.exposed := string_ok (get_toMap (by simp [members]))
      rw [fromMap_of_lookup rfl, hurl]
      rfl
  | tailscaleResult result =>
      let map := (tailscaleResult result).toMap formats
      have hresult : object map "result" = .ok result := object_ok (get_toMap (by simp [members]))
      rw [fromMap_of_lookup rfl, hresult]
      rfl
  | tailscaleFailed reason =>
      let map := (tailscaleFailed reason).toMap formats
      have hreason : string map "reason" = .ok reason := string_ok (get_toMap (by simp [members]))
      rw [fromMap_of_lookup rfl, hreason]
      rfl
  | tamanu =>
      rw [fromMap_of_lookup rfl]
  | tamanuActs offered =>
      let map := (tamanuActs offered).toMap formats
      have hacts : strings map "acts" = .ok offered := strings_ok (get_toMap (by simp [members]))
      rw [fromMap_of_lookup rfl, hacts]
      rfl
  | tamanuAct asked =>
      let map := (tamanuAct asked).toMap formats
      have hact : string map "act" = .ok asked := string_ok (get_toMap (by simp [members]))
      rw [fromMap_of_lookup rfl, hact]
      rfl
  | tamanuAccepted =>
      rw [fromMap_of_lookup rfl]
  | tamanuFailed reason =>
      let map := (tamanuFailed reason).toMap formats
      have hreason : string map "reason" = .ok reason := string_ok (get_toMap (by simp [members]))
      rw [fromMap_of_lookup rfl, hreason]
      rfl
  | provision =>
      rw [fromMap_of_lookup rfl]
  | provisionAccepted =>
      rw [fromMap_of_lookup rfl]
  | fact entry =>
      have hentry : Entry.readFrom "fact" ((fact entry).toMap formats) = .ok entry :=
        entry.readFrom_writeInto (by simp) (by simp [typed]) (by simp [typed])
      rw [fromMap_of_lookup rfl, hentry]
      rfl
  | reading entry =>
      have hentry : Entry.readFrom "measurement" ((reading entry).toMap formats) = .ok entry :=
        entry.readFrom_writeInto (by simp) (by simp [typed]) (by simp [typed])
      rw [fromMap_of_lookup rfl, hentry]
      rfl
  | state => exact fromMap_state
  | curves => exact fromMap_curves hcarried
  | tailscaleAct => exact fromMap_tailscaleAct
  | provisionAct => exact fromMap_provisionAct hcarried
  | provisionState => exact fromMap_provisionState hdate hcarried hproper

end Message

end Bliti.Channel.Messages
