import Bliti.Channel.Readings

/-!
# Provisioning - what a run reports

The members a provisioning state carries: the states, each step's report and each
open prompt.  They are read by a derived reader, which takes an object or the fields
in order; what it says of a value it does not take is left to a parameter.
-/

namespace Bliti.Channel.Report

variable {φ : Type}

/-! ## Numbers -/

/-- A double: one a JSON number can carry, or one it cannot. -/
abbrev Double (φ : Type) := Option φ

/-- A double as JSON, null where JSON cannot carry it. -/
def number : Double φ → Json φ
  | some f => .number (.float f)
  | none => .null

/-- The double of a number, given the one nearest a whole number. -/
def asF64 (ofInt : Int → φ) : Json φ → Option (Double φ)
  | .number (.int i) => some (some (ofInt i))
  | .number (.float f) => some (some f)
  | _ => none

/-! ## States -/

/-- The state of the device as a whole. -/
inductive RunState where
  | idle
  | running
  | waiting
  | failed
  | finished
deriving DecidableEq, Repr

/-- What a step says of whether the board holds what it would produce. -/
inductive DoneState where
  | done
  | notDone
  | unknown
deriving DecidableEq, Repr

/-- The state of one step. -/
inductive StepState where
  | unchosen
  | pending
  | running
  | waiting
  | passed
  | failed
deriving DecidableEq, Repr

/-- What a prompt asks for; a kind this build does not know is kept by name. -/
inductive PromptKind where
  | notice
  | confirm
  | text
  | secret
  | other (name : String)
deriving DecidableEq, Repr

/-- The state on the wire. -/
def RunState.asStr : RunState → String
  | .idle => "idle"
  | .running => "running"
  | .waiting => "waiting"
  | .failed => "failed"
  | .finished => "finished"

/-- The state a wire name stands for. -/
def RunState.read (name : String) : Option RunState :=
  [.idle, .running, .waiting, .failed, .finished].find? fun state => state.asStr == name

/-- The done-state on the wire. -/
def DoneState.asStr : DoneState → String
  | .done => "done"
  | .notDone => "not-done"
  | .unknown => "unknown"

/-- The done-state a wire name stands for. -/
def DoneState.read (name : String) : Option DoneState :=
  [.done, .notDone, .unknown].find? fun state => state.asStr == name

/-- The state of a step on the wire. -/
def StepState.asStr : StepState → String
  | .unchosen => "unchosen"
  | .pending => "pending"
  | .running => "running"
  | .waiting => "waiting"
  | .passed => "passed"
  | .failed => "failed"

/-- The state of a step a wire name stands for. -/
def StepState.read (name : String) : Option StepState :=
  [.unchosen, .pending, .running, .waiting, .passed, .failed].find? fun state =>
    state.asStr == name

/-- The kind of a prompt on the wire. -/
def PromptKind.asStr : PromptKind → String
  | .notice => "notice"
  | .confirm => "confirm"
  | .text => "text"
  | .secret => "secret"
  | .other name => name

/-- The kind of a prompt a wire name stands for. -/
def PromptKind.read (name : String) : PromptKind :=
  if name = "notice" then .notice
  else if name = "confirm" then .confirm
  else if name = "text" then .text
  else if name = "secret" then .secret
  else .other name

/-- A state is read back from its name. -/
@[simp]
theorem RunState.read_asStr (state : RunState) : read state.asStr = some state := by
  cases state <;> rfl

/-- A done-state is read back from its name. -/
@[simp]
theorem DoneState.read_asStr (state : DoneState) : read state.asStr = some state := by
  cases state <;> rfl

/-- The state of a step is read back from its name. -/
@[simp]
theorem StepState.read_asStr (state : StepState) : read state.asStr = some state := by
  cases state <;> rfl

/-- A kind is its own where it is one of those known, or is named as none of them. -/
def PromptKind.Proper (kind : PromptKind) : Prop :=
  ∀ name, kind = .other name → name ∉ ["notice", "confirm", "text", "secret"]

/-- A kind is read back from its name exactly where it is its own. -/
theorem PromptKind.read_asStr {kind : PromptKind} : read kind.asStr = kind ↔ kind.Proper := by
  cases kind with
  | other name =>
      simp only [asStr, read, Proper, PromptKind.other.injEq, forall_eq', List.mem_cons,
        List.not_mem_nil, or_false, not_or]
      by_cases hnotice : name = "notice"
      · simp [hnotice]
      · by_cases hconfirm : name = "confirm"
        · simp [hconfirm]
        · by_cases htext : name = "text"
          · simp [htext]
          · by_cases hsecret : name = "secret"
            · simp [hsecret]
            · simp [hnotice, hconfirm, htext, hsecret]
  | _ => simp [asStr, read, Proper]

/-- The kind read of a name is named so. -/
@[simp]
theorem PromptKind.asStr_read (name : String) : (read name).asStr = name := by
  unfold read
  by_cases hnotice : name = "notice"
  · rw [if_pos hnotice, hnotice]
    rfl
  · by_cases hconfirm : name = "confirm"
    · rw [if_neg hnotice, if_pos hconfirm, hconfirm]
      rfl
    · by_cases htext : name = "text"
      · rw [if_neg hnotice, if_neg hconfirm, if_pos htext, htext]
        rfl
      · by_cases hsecret : name = "secret"
        · rw [if_neg hnotice, if_neg hconfirm, if_neg htext, if_pos hsecret, hsecret]
          rfl
        · rw [if_neg hnotice, if_neg hconfirm, if_neg htext, if_neg hsecret]
          rfl

/-! ## Reports -/

/-- One step as it is reported. -/
structure StepReport (φ : Type) where
  id : String
  title : String
  done : DoneState
  why : Option String
  state : StepState
  progress : Option (Double φ)
  reason : Option String
  result : Option (Json.Map φ)

/-- One open prompt as it is reported. -/
structure PromptReport where
  id : String
  step : String
  kind : PromptKind
  text : String
  blocking : Bool
  default : Option String
deriving DecidableEq, Repr

/-- The fields of a derived structure: the members of an object, or in order the items of an
array. -/
def fields (names : List String) : Json φ → Option (Json.Map φ)
  | .object members => some members
  | .array items => if items.length ≤ names.length then some (names.zip items) else none
  | _ => none

/-- A field that is required. -/
def requiredField {α : Type} (map : Json.Map φ) (name : String) (read : Json φ → Option α) :
    Option α :=
  (Json.get map name).bind read

/-- A field that may be left out or null. -/
def optionalField {α : Type} (map : Json.Map φ) (name : String) (read : Json φ → Option α) :
    Option (Option α) :=
  match Json.get map name with
  | none | some .null => some none
  | some value => (read value).map some

/-- The truth value of a boolean. -/
def readBool : Json φ → Option Bool
  | .bool b => some b
  | _ => none

/-- The fields of a step, in order. -/
def StepReport.names : List String :=
  ["id", "title", "done", "why", "state", "progress", "reason", "result"]

/-- A step as it is written. -/
def StepReport.toMap (step : StepReport φ) : Json.Map φ :=
  let map := Json.insert [] "id" (.string step.id)
  let map := Json.insert map "title" (.string step.title)
  let map := Json.insert map "done" (.string step.done.asStr)
  let map := Json.insertSome map "why" (step.why.map Json.string)
  let map := Json.insert map "state" (.string step.state.asStr)
  let map := Json.insertSome map "progress" (step.progress.map number)
  let map := Json.insertSome map "reason" (step.reason.map Json.string)
  Json.insertSome map "result" (step.result.map Json.object)

/-- A step as it is read. -/
def StepReport.read (ofInt : Int → φ) (value : Json φ) : Option (StepReport φ) := do
  let map ← fields names value
  let id ← requiredField map "id" Json.asStr
  let title ← requiredField map "title" Json.asStr
  let doneState ← requiredField map "done" fun value => value.asStr.bind DoneState.read
  let why ← optionalField map "why" Json.asStr
  let state ← requiredField map "state" fun value => value.asStr.bind StepState.read
  let progress ← optionalField map "progress" (asF64 ofInt)
  let reason ← optionalField map "reason" Json.asStr
  let result ← optionalField map "result" Json.asObject
  pure {
    id := id
    title := title
    done := doneState
    why := why
    state := state
    progress := progress
    reason := reason
    result := result }

/-- The fields of a prompt, in order. -/
def PromptReport.names : List String :=
  ["id", "step", "kind", "text", "blocking", "default"]

/-- A prompt as it is written. -/
def PromptReport.toMap (prompt : PromptReport) : Json.Map φ :=
  let map := Json.insert [] "id" (.string prompt.id)
  let map := Json.insert map "step" (.string prompt.step)
  let map := Json.insert map "kind" (.string prompt.kind.asStr)
  let map := Json.insert map "text" (.string prompt.text)
  let map := Json.insert map "blocking" (.bool prompt.blocking)
  Json.insertSome map "default" (prompt.default.map Json.string)

/-- A prompt as it is read. -/
def PromptReport.read (value : Json φ) : Option PromptReport := do
  let map ← fields names value
  let id ← requiredField map "id" Json.asStr
  let step ← requiredField map "step" Json.asStr
  let kind ← requiredField map "kind" fun value => value.asStr.map PromptKind.read
  let text ← requiredField map "text" Json.asStr
  let blocking ← requiredField map "blocking" readBool
  let default ← optionalField map "default" Json.asStr
  pure {
    id := id
    step := step
    kind := kind
    text := text
    blocking := blocking
    default := default }

/-! ## Reports read back -/

theorem optionalField_map {α : Type} {map : Json.Map φ} {name : String}
    {read : Json φ → Option α} (write : α → Json φ) {value : Option α}
    (hget : Json.get map name = value.map write)
    (hback : ∀ a, value = some a → read (write a) = some a ∧ (write a).isNull = false) :
    optionalField map name read = some value := by
  unfold optionalField
  rw [hget]
  rcases value with _ | a
  · rfl
  · obtain ⟨hread, hset⟩ := hback a rfl
    rw [Option.map_some]
    cases hwrite : write a with
    | null =>
        rw [hwrite] at hset
        cases hset
    | _ =>
        rw [hwrite] at hread
        simp [hread]

/-- A text that may be left out is read back. -/
theorem optionalField_string {map : Json.Map φ} {name : String} {value : Option String}
    (hget : Json.get map name = value.map Json.string) :
    optionalField map name Json.asStr = some value :=
  optionalField_map Json.string hget fun _ _ => ⟨rfl, rfl⟩

/-- A step whose progress JSON can carry is read back. -/
theorem StepReport.read_toMap {step : StepReport φ} (ofInt : Int → φ)
    (hfinite : ∀ progress, step.progress = some progress → progress.isSome = true) :
    read ofInt (.object step.toMap) = some step := by
  have hwhy : optionalField step.toMap "why" Json.asStr = some step.why :=
    optionalField_string (by simp [toMap])
  have hreason : optionalField step.toMap "reason" Json.asStr = some step.reason :=
    optionalField_string (by simp [toMap])
  have hprogress : optionalField step.toMap "progress" (asF64 ofInt) = some step.progress := by
    apply optionalField_map number (by simp [toMap])
    intro progress hprogress
    obtain ⟨f, rfl⟩ := Option.isSome_iff_exists.mp (hfinite progress hprogress)
    exact ⟨rfl, rfl⟩
  have hresult : optionalField step.toMap "result" Json.asObject = some step.result :=
    optionalField_map Json.object (by simp [toMap]) fun _ _ => ⟨rfl, rfl⟩
  unfold read
  simp only [fields, Option.bind_eq_bind, Option.bind_some, hwhy, hreason, hprogress, hresult]
  simp [requiredField, toMap, Json.asStr, pure]

/-- A prompt is read back but for its kind, which is read of its name. -/
theorem PromptReport.read_toMap (prompt : PromptReport) :
    read (φ := φ) (.object prompt.toMap) = some { prompt with kind := .read prompt.kind.asStr } := by
  have hdefault : optionalField (φ := φ) prompt.toMap "default" Json.asStr =
      some prompt.default :=
    optionalField_string (by simp [toMap])
  unfold read
  simp only [fields, Option.bind_eq_bind, Option.bind_some, hdefault]
  simp [requiredField, toMap, Json.asStr, readBool, pure]

/-- A prompt as it is read of what it is written as: its kind is read of its name. -/
def PromptReport.asRead (prompt : PromptReport) : PromptReport :=
  { prompt with kind := .read prompt.kind.asStr }

/-- A prompt as it is read is written as the prompt is. -/
@[simp]
theorem PromptReport.toMap_asRead (prompt : PromptReport) :
    prompt.asRead.toMap (φ := φ) = prompt.toMap := by
  simp [toMap, asRead]

/-- A prompt is as it is read exactly where its kind is its own. -/
theorem PromptReport.asRead_eq_self {prompt : PromptReport} :
    prompt.asRead = prompt ↔ prompt.kind.Proper := by
  rw [← PromptKind.read_asStr]
  constructor
  · intro hsame
    exact congrArg kind hsame
  · intro hkind
    unfold asRead
    rw [hkind]

end Bliti.Channel.Report
