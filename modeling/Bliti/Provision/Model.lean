import Bliti.Channel.Messages

/-!
# Provisioning - the state of a run

The state of a run, held in one place and changed only by the engine: which act is
accepted where, what a prompt blocks, and what is reported.  Plain data and no waiting.
-/

namespace Bliti.Provision

open Channel.Messages (Answer Message)
open Channel.Report (Double DoneState PromptKind PromptReport RunState StepReport StepState)

variable {φ Date : Type}

/-! ## Steps and prompts -/

/-- What a step says of whether the board already holds what it would produce. -/
structure Done where
  state : DoneState
  why : Option String
deriving DecidableEq, Repr

/-- One step, as the run reports it. -/
structure Entry (φ : Type) where
  id : String
  title : String
  changesBoard : Bool
  done : Done
  state : StepState
  progress : Option (Double φ)
  reason : Option String
  result : Option (Json.Map φ)

/-- Whether a step accepts the text an operator answered a prompt with, and if not, why. -/
abbrev Check := String → Except String Unit

/-- A prompt a step asks for ahead of its turn, which does not hold the run up. -/
structure Question where
  key : String
  kind : PromptKind
  text : String
  default : Option String
  check : Option Check

/-- A question without a default or a check. -/
def Question.new (key : String) (kind : PromptKind) (text : String) : Question where
  key := key
  kind := kind
  text := text
  default := none
  check := none

/-- A prompt that is open; `waiter` is the channel the waiting step is given the answer by. -/
structure Open where
  id : String
  step : Nat
  key : String
  kind : PromptKind
  text : String
  default : Option String
  check : Option Check
  blocks : Option Nat
  waiter : Option Nat

/-- Whether a prompt holds a step up. -/
def Open.blocking (prompt : Open) : Bool :=
  prompt.blocks.isSome

/-- What a step that needs an answer is given: one the device holds, or the channel it comes
by. -/
inductive Need (φ : Type) where
  | held (answer : Answer φ)
  | wait (channel : Nat)

/-- Which member of an act is at fault, and why. -/
structure Refusal where
  atPath : String
  reason : String
deriving DecidableEq, Repr

/-! ## What is kept under a key -/

/-- What is kept under keys. -/
abbrev Keyed (α : Type) := List (String × α)

namespace Keyed

variable {α : Type}

/-- What is kept under a key. -/
def get (kept : Keyed α) (key : String) : Option α :=
  kept.lookup key

/-- Nothing kept under a key. -/
def remove (kept : Keyed α) (key : String) : Keyed α :=
  kept.filter fun entry => entry.1 ≠ key

/-- Something kept under a key in place of what was. -/
def set (kept : Keyed α) (key : String) (a : α) : Keyed α :=
  (key, a) :: kept.remove key

end Keyed

/-! ## The state of a run -/

/-- The state of a run.  `state` is never `waiting`, which is read from the prompts. -/
structure Model (φ Date : Type) where
  built : Date
  steps : List (Entry φ)
  state : RunState
  prompts : List Open
  answers : Keyed (Answer φ)
  askedBy : Keyed Nat
  generation : Nat
  checked : Bool

deriving instance BEq for StepReport

/-- Everything a provisioning state carries. -/
structure Snapshot (φ Date : Type) where
  revision : UInt32
  built : Date
  run : RunState
  checked : Bool
  provisioned : Bool
  steps : List (StepReport φ)
  prompts : List PromptReport
deriving BEq

/-- A snapshot as the message that carries it. -/
def Snapshot.toMessage (snapshot : Snapshot φ Date) : Message φ Date :=
  .provisionState snapshot.revision snapshot.built snapshot.run snapshot.checked
    snapshot.provisioned snapshot.steps snapshot.prompts

/-- The revision of the steps the device offers. -/
def revision : UInt32 := 1

namespace Model

variable (model : Model φ Date)

/-- A model of some steps, each by its id, its title and whether it changes the board. -/
def new (built : Date) (steps : List (String × String × Bool)) : Model φ Date where
  built := built
  steps := steps.map fun (id, title, changesBoard) =>
    { id := id
      title := title
      changesBoard := changesBoard
      done := { state := .unknown, why := none }
      state := .unchosen
      progress := none
      reason := none
      result := none }
  state := .idle
  prompts := []
  answers := []
  askedBy := []
  generation := 0
  checked := false

/-- Whether the board is provisioned: every step that changes it reports `done`, as determined
since the device started. -/
def provisioned : Bool :=
  model.checked &&
    (model.steps.filter Entry.changesBoard).all fun entry => entry.done.state = .done

/-- The state of the device: `waiting` while a blocking prompt is open. -/
def run : RunState :=
  if model.state = .running ∧ model.prompts.any Open.blocking then .waiting else model.state

/-- Whether no run is under way. -/
def atRest : Bool :=
  model.state = .idle || model.state = .finished

/-- The state of one step, `waiting` where it has a blocking prompt open. -/
def stepState (index : Nat) (entry : Entry φ) : StepState :=
  if entry.state = .running ∧ model.prompts.any (fun prompt => prompt.blocks = some index) then
    .waiting
  else entry.state

/-- The id of the step at a place. -/
def idAt (index : Nat) : String :=
  ((model.steps[index]?).map Entry.id).getD ""

/-- What is reported of a step at a place. -/
def reportStep (entry : Entry φ) (index : Nat) : StepReport φ where
  id := entry.id
  title := entry.title
  done := entry.done.state
  why := entry.done.why
  state := model.stepState index entry
  progress := entry.progress
  reason := entry.reason
  result := entry.result

/-- What is reported of an open prompt. -/
def reportPrompt (prompt : Open) : PromptReport where
  id := prompt.id
  step := model.idAt prompt.step
  kind := prompt.kind
  text := prompt.text
  blocking := prompt.blocking
  default := prompt.default

/-- What is reported of the state of a run. -/
def snapshot : Snapshot φ Date where
  revision := revision
  built := model.built
  run := model.run
  checked := model.checked
  provisioned := model.provisioned
  steps := model.steps.zipIdx.map fun (entry, index) => model.reportStep entry index
  prompts := model.prompts.map model.reportPrompt

/-! ## Reading it -/

/-- The step carried out after the ones that have passed: the first not yet reached. -/
def next : Option Nat :=
  model.steps.findIdx? fun entry => entry.state = .pending

/-- The place of a step. -/
def indexOf (id : String) : Option Nat :=
  model.steps.findIdx? fun entry => entry.id = id

/-- Whether every step chosen up to and including the one named has passed. -/
def passedThrough (id : String) : Bool :=
  match model.indexOf id with
  | none => false
  | some last =>
      (model.steps.take (last + 1)).all fun entry =>
        entry.state = .unchosen || entry.state = .passed

/-- The ids of the steps in a state, in order. -/
def ids (state : StepState) : List String :=
  (model.steps.filter fun entry => entry.state = state).map Entry.id

/-- The ids of every step that is part of the run, in order. -/
def chosen : List String :=
  (model.steps.filter fun entry => entry.state ≠ .unchosen).map Entry.id

/-- What was answered under a key, if anything. -/
def held (key : String) : Option (Answer φ) :=
  model.answers.get key

/-! ## Changing it -/

/-- The entry at a place changed. -/
def setStep (index : Nat) (change : Entry φ → Entry φ) : Model φ Date :=
  { model with steps := model.steps.modify index change }

/-- Hold no run: every step unchosen, every prompt closed, every answer forgotten. -/
def clearRun : Model φ Date :=
  { model with
    state := .idle
    prompts := []
    answers := []
    askedBy := []
    steps := model.steps.map fun entry =>
      { entry with state := .unchosen, progress := none, reason := none, result := none } }

/-- Begin a run of some steps, replacing whatever run is held. -/
def beginRun (chosen : List Nat) : Model φ Date :=
  let cleared := model.clearRun
  let marked := chosen.foldl
    (fun model index => model.setStep index fun entry => { entry with state := .pending }) cleared
  { marked with state := .running, generation := marked.generation + 1 }

/-- Mark the next step as the one being carried out. -/
def beginNext : Option Nat × Model φ Date :=
  match model.next with
  | none => (none, model)
  | some index =>
      (some index, model.setStep index fun entry =>
        { entry with state := .running, progress := none, reason := none, result := none })

/-- A step has passed. -/
def pass (index : Nat) : Model φ Date :=
  model.setStep index fun entry => { entry with state := .passed, progress := none }

/-- Stop the run at a step, which failed for a reason. -/
def fail (index : Nat) (reason : String) : Model φ Date :=
  { model.setStep index fun entry => { entry with state := .failed, reason := some reason } with
    state := .failed }

/-- Forget what was answered under a key. -/
def forget (key : String) : Model φ Date :=
  { model with answers := model.answers.remove key, askedBy := model.askedBy.remove key }

/-- Carry the failed step out again, from its beginning, asking again what it asked. -/
def retry : Model φ Date :=
  match model.steps.findIdx? fun entry => entry.state = .failed with
  | none => model
  | some index =>
      let again := model.setStep index fun entry =>
        { entry with state := .pending, reason := none }
      let asked := (model.askedBy.filter fun entry => entry.2 = index).map Prod.fst
      let forgotten := asked.foldl forget again
      { forgotten with state := .running, generation := forgotten.generation + 1 }

/-- Every step has passed. -/
def finish : Model φ Date :=
  { model with state := .finished, prompts := [], answers := [], askedBy := [] }

/-- A step has ended: the prompts it was waiting on stop holding anything up, and the ones it
asked only to wait on are closed. -/
def release (step : Nat) : Model φ Date :=
  let kept := model.prompts.filter fun prompt => !(prompt.blocks = some step && prompt.step = step)
  { model with
    prompts := kept.map fun prompt =>
      if prompt.blocks = some step then { prompt with blocks := none, waiter := none }
      else prompt }

/-- Close the prompts of an id. -/
def close (id : String) : Model φ Date :=
  { model with prompts := model.prompts.filter fun prompt => prompt.id ≠ id }

/-- Close the prompt open under a key, if any, without an answer. -/
def closeKey (key : String) : Model φ Date :=
  { model with prompts := model.prompts.filter fun prompt => prompt.key ≠ key }

/-- A prompt opened for a question. -/
def opened (step : Nat) (question : Question) (blocks waiter : Option Nat) : Open where
  id := question.key
  step := step
  key := question.key
  kind := question.kind
  text := question.text
  default := question.default
  check := question.check
  blocks := blocks
  waiter := waiter

/-- A step needs the answer it asks for under a key: it is given it where held, and otherwise a
blocking prompt is open for it, turning one the step opened earlier into one it waits on.  The
channel is one of its own. -/
def need (step : Nat) (key : String) (kind : PromptKind) (text : String) (channel : Nat) :
    Need φ × Model φ Date :=
  match model.answers.get key with
  | some answer => (.held answer, model)
  | none =>
      match model.prompts.findIdx? fun prompt => prompt.key = key with
      | some index =>
          (.wait channel,
            { model with
              prompts := model.prompts.modify index fun prompt =>
                { prompt with blocks := some step, waiter := some channel } })
      | none =>
          (.wait channel,
            { model with
              prompts := model.prompts ++
                [opened step (Question.new key kind text) (some step) (some channel)] })

/-- A step asks for something it does not wait on. -/
def askLater (step : Nat) (question : Question) : Model φ Date :=
  if (model.answers.get question.key).isSome ||
      model.prompts.any (fun prompt => prompt.key = question.key) then model
  else { model with prompts := model.prompts ++ [opened step question none none] }

/-- A step asks an operator to do something, and waits until it sees it done. -/
def notice (step : Nat) (key text : String) : Model φ Date :=
  { model with
    prompts := model.prompts ++ [opened step (Question.new key .notice text) (some step) none] }

/-! ## Answering -/

/-- The text an answer carries, where it is one. -/
def asText (answer : Answer φ) : Option String :=
  answer.value.asStr

/-- The truth value an answer carries, where it is one. -/
def asBool (answer : Answer φ) : Option Bool :=
  Channel.Report.readBool answer.value

/-- Whether an answer is of the kind a prompt takes. -/
def fits (kind : PromptKind) (answer : Answer φ) : Bool :=
  match kind with
  | .confirm => (asBool answer).isSome
  | .text | .secret => (asText answer).isSome
  | _ => false

/-- What a prompt of a kind takes, in words. -/
def takes (kind : PromptKind) : String :=
  match kind with
  | .confirm => "this prompt takes true or false"
  | _ => "this prompt takes text"

/-- Answer an open prompt, or say at which member of the act it cannot be.  What is sent to the
step waiting goes by its channel. -/
def answer (id : Option String) (value : Option (Answer φ)) :
    Except Refusal (Option Nat × Answer φ × Model φ Date) :=
  let position := id.bind fun id => model.prompts.findIdx? fun prompt => prompt.id = id
  match position.bind fun index => (model.prompts[index]?).map fun prompt => (index, prompt) with
  | none => .error {
      atPath := "$['prompt']"
      reason := "no prompt that takes an answer is open under that id" }
  | some (index, prompt) =>
      if prompt.kind = .notice then
        .error {
          atPath := "$['prompt']"
          reason := "no prompt that takes an answer is open under that id" }
      else
        match value.filter (fits prompt.kind) with
        | none => .error { atPath := "$['value']", reason := takes prompt.kind }
        | some value =>
            match prompt.check.bind fun check => (asText value).map check with
            | some (.error reason) => .error { atPath := "$['value']", reason := reason }
            | _ =>
                .ok (prompt.waiter, value,
                  { model with
                    prompts := model.prompts.eraseIdx index
                    askedBy := model.askedBy.set prompt.key prompt.step
                    answers := model.answers.set prompt.key value })

end Model

end Bliti.Provision
