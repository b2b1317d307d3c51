import Bliti.Library.Transition
import Bliti.Provision.Model
import Mathlib.Data.List.Sort

/-!
# Provisioning - the engine that carries a run out

One provisioner holds the run for the whole device.  Acts asked for, the task that
carries the run out, what it hands to the pool, the threads that keep the run on the
medium and the determinations of the done-states go on side by side; each stretch
between taking and releasing a lock is one step.
-/

namespace Bliti.Provision

open Channel.Messages (Answer)
open Channel.Report (Double DoneState PromptKind RunState StepState)

variable {φ Date L : Type}

/-! ## Acts -/

/-- An act a client or the console asks for. -/
structure Act (φ : Type) where
  act : String
  steps : Option (List String)
  prompt : Option String
  value : Option (Answer φ)

/-- Why an act is refused: the member at fault, and why. -/
structure CannotAct where
  atPath : String
  reason : String
deriving DecidableEq, Repr

/-- The acts. -/
inductive Kind where
  | start
  | answer
  | retry
  | stop
  | acknowledge
deriving DecidableEq, Repr

/-- The act of a wire name. -/
def Kind.read (name : String) : Option Kind :=
  match name with
  | "start" => some .start
  | "answer" => some .answer
  | "retry" => some .retry
  | "stop" => some .stop
  | "acknowledge" => some .acknowledge
  | _ => none

/-- Whether the device accepts an act in a state. -/
def Kind.acceptedIn (kind : Kind) (state : RunState) : Bool :=
  match kind with
  | .start => state = .idle || state = .finished
  | .answer => state = .running || state = .waiting || state = .failed
  | .retry => state = .failed
  | .stop => state = .waiting || state = .failed
  | .acknowledge => state = .finished

/-- What is left to do of an act once the model is released. -/
inductive Then where
  | nothing
  | drive (generation : Nat)
  | abort (generation : Nat)
deriving DecidableEq, Repr

/-- What an act comes to: the model after it, what it sends to a step waiting, and what is left to
do. -/
structure Decided (φ Date : Type) where
  model : Model φ Date
  sent : Option (Nat × Answer φ)
  next : Then

/-- The places of the steps a start chooses, or the one the device does not have. -/
def placesOf (model : Model φ Date) (chosen : List String) : Except CannotAct (List Nat) :=
  chosen.zipIdx.mapM fun (id, position) =>
    match model.indexOf id with
    | some index => .ok index
    | none => .error {
        atPath := "$['steps'][" ++ toString position ++ "]"
        reason := "this device has no step " ++ Text.debug id }

/-- Places in order, each once. -/
def inOrder (places : List Nat) : List Nat :=
  (places.insertionSort (· ≤ ·)).dedup

/-- Decide an act asked for, the model held. -/
def decide (kept : Bool) (model : Model φ Date) (asked : Act φ) :
    Except CannotAct (Decided φ Date) :=
  match Kind.read asked.act with
  | none => .error {
      atPath := "$['act']"
      reason := Text.debug asked.act ++ " is not an act this device knows" }
  | some kind =>
      if kind.acceptedIn model.run then
        match kind with
        | .start =>
            if kept then
              match asked.steps.getD [] with
              | [] => .error { atPath := "$['steps']", reason := "a run chooses at least one step" }
              | chosen => do
                  let places ← placesOf model chosen
                  let begun := model.beginRun (inOrder places)
                  pure { model := begun, sent := none, next := .drive begun.generation }
            else .error {
              atPath := "$"
              reason := "this board has no platform serial to keep a run under" }
        | .answer =>
            match model.answer asked.prompt asked.value with
            | .ok (waiter, value, answered) =>
                .ok {
                  model := answered
                  sent := waiter.map fun channel => (channel, value)
                  next := .nothing }
            | .error refusal => .error { atPath := refusal.atPath, reason := refusal.reason }
        | .retry =>
            .ok { model := model.retry, sent := none, next := .drive model.retry.generation }
        | .stop | .acknowledge =>
            let cleared := model.clearRun
            let ended := { cleared with generation := cleared.generation + 1 }
            .ok { model := ended, sent := none, next := .abort ended.generation }
      else .error {
        atPath := "$"
        reason := "a " ++ asked.act ++ " is not accepted while the device is " ++ model.run.asStr }

/-! ## Steps -/

/-- What a step does of the run while it is carried out. -/
inductive Ask (φ : Type) where
  | progress (fraction : Double φ)
  | result (result : Json.Map φ)
  | need (key : String) (kind : PromptKind) (text : String)
  | askLater (question : Question)
  | takeText (key : String) (default : Option String)
  | forget (key : String)
  | notice (key text : String)
  | close (id : String)

/-- What a step does, as the engine sees it: of the run, with what it is given, on its own, in the
pool, or ending. -/
inductive Work (φ : Type) where
  | ask (asked : Ask φ)
  | given (answer : Answer φ)
  | took (text : Option String)
  | inPlace
  | offload
  | joined
  | limit
  | ends (outcome : Except String Unit)

/-- One step a device holds: what the engine reads of it, and what it does from where it is. -/
structure Step (φ L : Type) where
  id : String
  title : String
  changesBoard : Bool
  asksAfter : Option String
  undoneBy : List String
  undoing : String
  start : L
  next : L → Work φ → Option L

/-- What a step being carried out waits on. -/
inductive Awaiting (φ : Type) where
  | nothing
  | answer (need : Need φ)
  | text (text : Option String)
  | never
  | pool (work : Nat)

/-- A step being carried out: its place, where it is, what it waits on and the notices it holds. -/
structure Carry (φ L : Type) where
  index : Nat
  body : L
  awaiting : Awaiting φ
  notices : List String

/-- Where a task that carries a run out is. -/
inductive Phase (φ L : Type) where
  | top
  | asking (due : List Nat)
  | recordingStart (index saver : Nat)
  | carrying (carry : Carry φ L)
  | returned (index : Nat) (outcome : Except String Unit)
  | settling (index : Nat) (outcome : Except String Unit)
  | recordingPass (saver : Nat)
  | recordingFail (saver : Nat)
  | finishing
  | forgetting
  | clearing
  | determining
  | ended

/-- A task that carries a run out. -/
structure Drive (φ L : Type) where
  generation : Nat
  phase : Phase φ L

/-- Work a step handed to the pool. -/
structure Pooled where
  task : Nat
  index : Nat
  going : Bool
deriving DecidableEq, Repr

/-! ## What is kept on the medium -/

/-- A step that failed, and why. -/
structure StoredFailure where
  step : String
  reason : String
deriving DecidableEq, Repr

/-- The state of a run, as much of it as survives a reboot. -/
structure Stored where
  chosen : List String
  passed : List String
  failed : Option StoredFailure
deriving DecidableEq, Repr

/-- The state of a run as it is kept. -/
def Model.stored (model : Model φ Date) : Stored where
  chosen := model.chosen
  passed := model.ids .passed
  failed := (model.steps.find? fun entry => entry.state = .failed).map fun entry =>
    { step := entry.id, reason := entry.reason.getD "" }

/-- Hold the run that was kept, where it matches the steps this device has. -/
def adopt (model : Model φ Date) (stored : Stored) : Bool × Model φ Date :=
  match stored.chosen.mapM model.indexOf, stored.passed.mapM model.indexOf with
  | some chosen, some passed =>
      let failed := stored.failed.map fun failed => (model.indexOf failed.step, failed.reason)
      if chosen.isEmpty || passed.any (fun index => !chosen.contains index) ||
          failed.any (fun failed => failed.1.isNone) then (false, model)
      else
        let begun := passed.foldl Model.pass (model.beginRun chosen)
        match failed with
        | some (some index, reason) =>
            if chosen.contains index then (true, begun.fail index reason)
            else (false, begun.clearRun)
        | _ => (true, begun)
  | _, _ => (false, model)

/-- Where a thread that keeps the run on the medium is. -/
inductive SaverPhase where
  | queued
  | holding (stored : Stored)
  | done (failed : Option String)
deriving DecidableEq, Repr

/-- A thread that keeps the run on the medium, for a run. -/
structure Saver where
  generation : Nat
  phase : SaverPhase
deriving DecidableEq, Repr

/-- Who holds the medium while it is written or cleared. -/
inductive Holder where
  | saver (saver : Nat)
  | drive (task : Nat)
  | call (call : Nat)
deriving DecidableEq, Repr

/-! ## The engine -/

/-- What is left of an act accepted. -/
inductive Call where
  | spawning (generation : Nat)
  | storing (task : Nat)
  | aborting (generation : Nat)
  | forgetting (generation : Nat)
  | clearing
  | determining
  | ended
deriving DecidableEq, Repr

/-- Where a determination of the done-states is: what it has found so far, and whether no step's
work could go on since it began. -/
inductive Determination where
  | queued
  | reading (found : List Done) (quiet : Bool)
  | ended
deriving DecidableEq, Repr

/-- The state of a provisioner and of all that goes on in it.  `told` is what the determination
that last gave the done-states found, and whether no step's work could go on during it. -/
structure Engine (φ Date L : Type) where
  model : Model φ Date
  published : Snapshot φ Date
  medium : Option Stored
  disk : Option Holder
  handle : Option Nat
  drives : List (Drive φ L)
  pool : List Pooled
  savers : List Saver
  calls : List Call
  determinations : List Determination
  delivered : List (Nat × Answer φ)
  channels : Nat
  told : Option (List Done × Bool)

/-- A device: the steps it holds in the one order a run carries them out in, when the image on its
medium was built, and whether it has a platform serial to keep a run under. -/
structure Device (φ Date L : Type) where
  steps : List (Step φ L)
  built : Date
  kept : Bool

namespace Engine

variable (s : Engine φ Date L)

/-! ## Work that can go on -/

/-- Whether a step being carried out can go on: it waits on nothing, on what it has, on what has
come, or on work of its own. -/
def canGoOn (carry : Carry φ L) : Bool :=
  match carry.awaiting with
  | .answer (.wait channel) => (s.delivered.lookup channel).isSome
  | .never => false
  | _ => true

/-- The run and the step of a task whose step can go on. -/
def workOf (drive : Drive φ L) : Option (Nat × Nat) :=
  match drive.phase with
  | .carrying carry => if s.canGoOn carry then some (drive.generation, carry.index) else none
  | _ => none

/-- The run and the step of work still going on in the pool. -/
def pooledOf (pooled : Pooled) : Option (Nat × Nat) :=
  if pooled.going then
    (s.drives[pooled.task]?).map fun drive => (drive.generation, pooled.index)
  else none

/-- The runs and steps whose work can still change the board. -/
def works : List (Nat × Nat) :=
  s.drives.filterMap s.workOf ++ s.pool.filterMap s.pooledOf

/-! ## Locks, tasks and what is published -/

/-- Publish the state of the run, where it is not what was published. -/
def publish [BEq φ] [BEq Date] : Engine φ Date L :=
  if s.published == s.model.snapshot then s else { s with published := s.model.snapshot }

/-- Change the model for a run, publishing what it comes to.  Nothing happens where that run has
ended. -/
def mutate [BEq φ] [BEq Date] (generation : Nat) (change : Model φ Date → Model φ Date) :
    Option (Engine φ Date L) :=
  if s.model.generation = generation then some { s with model := change s.model }.publish else none

/-- Change the model for a run, where it has not ended. -/
def tryMutate [BEq φ] [BEq Date] (generation : Nat) (change : Model φ Date → Model φ Date) :
    Engine φ Date L :=
  (s.mutate generation change).getD s

/-- A task that carries a run out, moved on. -/
def setPhase (task : Nat) (phase : Phase φ L) : Engine φ Date L :=
  { s with drives := s.drives.modify task fun drive => { drive with phase := phase } }

/-- What is left of an act, moved on. -/
def setCall (call : Nat) (left : Call) : Engine φ Date L :=
  { s with calls := s.calls.set call left }

/-- A thread that keeps the run, moved on. -/
def setSaver (saver : Nat) (phase : SaverPhase) : Engine φ Date L :=
  { s with savers := s.savers.modify saver fun held => { held with phase := phase } }

/-- A determination, moved on. -/
def setDetermination (index : Nat) (determination : Determination) : Engine φ Date L :=
  { s with determinations := s.determinations.set index determination }

/-- A determination asked for. -/
def determineSoon : Engine φ Date L :=
  { s with determinations := s.determinations ++ [.queued] }

/-- A task spawned to carry a run out. -/
def spawn (generation : Nat) : Engine φ Date L :=
  { s with drives := s.drives ++ [{ generation := generation, phase := .top }] }

/-- A thread spawned to keep the run as it stands. -/
def record (generation : Nat) : Engine φ Date L :=
  { s with savers := s.savers ++ [{ generation := generation, phase := .queued }] }

/-- Work of a step handed to the pool. -/
def handOver (task index : Nat) : Engine φ Date L :=
  { s with pool := s.pool ++ [{ task := task, index := index, going := true }] }

/-- The notices a step holds are closed as it is dropped. -/
def dropNotices [BEq φ] [BEq Date] (generation : Nat) (notices : List String) : Engine φ Date L :=
  notices.foldl (fun s id => s.tryMutate generation fun model => model.close id) s

/-- A task aborted: what it holds is dropped. -/
def abort [BEq φ] [BEq Date] (task : Nat) : Engine φ Date L :=
  let released := if s.disk = some (.drive task) then { s with disk := none } else s
  match s.drives[task]? with
  | some { generation, phase := .carrying carry } =>
      (released.setPhase task .ended).dropNotices generation carry.notices
  | _ => released.setPhase task .ended

/-! ## Acts asked for -/

/-- Decide an act asked for and do the part of it that is done with the model held. -/
def ask [BEq φ] [BEq Date] (device : Device φ Date L) (asked : Act φ) : Engine φ Date L :=
  match decide device.kept s.model asked with
  | .error _ => s
  | .ok decided =>
      let changed := { s with
        model := decided.model
        delivered := s.delivered ++ decided.sent.toList }.publish
      match decided.next with
      | .nothing => changed
      | .drive generation => { changed with calls := changed.calls ++ [.spawning generation] }
      | .abort generation => { changed with calls := changed.calls ++ [.aborting generation] }

/-- Take the medium to discard the run held on it, where a run is the one that has ended. -/
def takeDisk (generation : Nat) (holder : Holder) : Option (Engine φ Date L × Bool) :=
  match s.disk with
  | some _ => none
  | none =>
      if s.model.generation = generation then some ({ s with disk := some holder }, true)
      else some (s, false)

/-- The medium released, the run on it discarded where that succeeds. -/
def clearDisk (cleared : Bool) : Engine φ Date L :=
  { s with disk := none, medium := if cleared then none else s.medium }

/-- The next part of an act accepted. -/
def call [BEq φ] [BEq Date] (device : Device φ Date L) (index : Nat) (cleared : Bool) :
    Option (Engine φ Date L) := do
  match ← s.calls[index]? with
  | .spawning generation =>
      some ((s.spawn generation).setCall index (.storing s.drives.length))
  | .storing task => some ({ s with handle := some task }.setCall index .ended)
  | .aborting generation =>
      let aborted := match s.handle with
        | some task => { s with handle := none }.abort task
        | none => s
      some (aborted.setCall index
        (if device.kept then .forgetting generation else .determining))
  | .forgetting generation => do
      let (taken, current) ← s.takeDisk generation (.call index)
      some (taken.setCall index (if current then .clearing else .determining))
  | .clearing => some ((s.clearDisk cleared).setCall index .determining)
  | .determining => some (s.determineSoon.setCall index .ended)
  | .ended => none

/-! ## Carrying a run out -/

/-- The steps whose turn it is to ask for what they will need later. -/
def due (device : Device φ Date L) (generation : Nat) : List Nat :=
  if s.model.generation = generation then
    (List.range device.steps.length).filter fun index =>
      (s.model.steps[index]?).any (fun entry => entry.state = .pending) &&
        ((device.steps[index]?).bind Step.asksAfter).any s.model.passedThrough
  else []

/-- What is said of a run that could not be kept. -/
def unkept (err : String) : String :=
  "the run could not be kept on the medium: " ++ err

/-- A step begun: what it is carried out from. -/
def carry (device : Device φ Date L) (index : Nat) : Option (Carry φ L) :=
  (device.steps[index]?).map fun step =>
    { index := index, body := step.start, awaiting := .nothing, notices := [] }

/-- The next part of a task that carries a run out, but for what its steps do. -/
def drive [BEq φ] [BEq Date] (device : Device φ Date L) (task : Nat) (cleared : Bool) :
    Option (Engine φ Date L) := do
  let drive ← s.drives[task]?
  let generation := drive.generation
  match drive.phase with
  | .top => some (s.setPhase task (.asking (s.due device generation)))
  | .asking [] =>
      match s.mutate generation fun model => model.beginNext.2 with
      | none => some (s.setPhase task .ended)
      | some begun =>
          match s.model.beginNext.1 with
          | none => some (begun.setPhase task .finishing)
          | some index =>
              if device.kept then
                some ((begun.record generation).setPhase task
                  (.recordingStart index begun.savers.length))
              else (carry device index).map fun carry => begun.setPhase task (.carrying carry)
  | .asking (_ :: _) => none
  | .recordingStart index saver =>
      match ← s.savers[saver]? with
      | { phase := .done none, .. } =>
          (carry device index).map fun carry => s.setPhase task (.carrying carry)
      | { phase := .done (some err), .. } =>
          some (s.setPhase task (.settling index (.error (unkept err))))
      | _ => none
  | .carrying _ => none
  | .returned index outcome =>
      some ((s.tryMutate generation fun model => model.release index).setPhase task
        (.settling index outcome))
  | .settling index (.ok ()) =>
      match s.mutate generation fun model => model.pass index with
      | none => some (s.setPhase task .ended)
      | some passed =>
          if device.kept then
            some ((passed.record generation).setPhase task (.recordingPass passed.savers.length))
          else some (passed.setPhase task .top)
  | .settling index (.error reason) =>
      match s.mutate generation fun model => model.fail index reason with
      | none => some (s.setPhase task .ended)
      | some failed =>
          if device.kept then
            some ((failed.record generation).setPhase task (.recordingFail failed.savers.length))
          else some (failed.setPhase task .ended)
  | .recordingPass saver =>
      match ← s.savers[saver]? with
      | { phase := .done _, .. } => some (s.setPhase task .top)
      | _ => none
  | .recordingFail saver =>
      match ← s.savers[saver]? with
      | { phase := .done _, .. } => some (s.setPhase task .ended)
      | _ => none
  | .finishing =>
      match s.mutate generation Model.finish with
      | none => some (s.setPhase task .ended)
      | some finished =>
          some (finished.setPhase task (if device.kept then .forgetting else .determining))
  | .forgetting => do
      let (taken, current) ← s.takeDisk generation (.drive task)
      some (taken.setPhase task (if current then .clearing else .determining))
  | .clearing => some ((s.clearDisk cleared).setPhase task .determining)
  | .determining => some (s.determineSoon.setPhase task .ended)
  | .ended => none

/-- A pending step asks for something it will need later, ahead of its turn. -/
def askAhead [BEq φ] [BEq Date] (task : Nat) (question : Question) :
    Option (Engine φ Date L) := do
  let drive ← s.drives[task]?
  match drive.phase with
  | .asking (index :: _) =>
      some (s.tryMutate drive.generation fun model => model.askLater index question)
  | _ => none

/-- A pending step has asked for what it will need later. -/
def askedAhead (task : Nat) : Option (Engine φ Date L) := do
  let drive ← s.drives[task]?
  match drive.phase with
  | .asking (_ :: rest) => some (s.setPhase task (.asking rest))
  | _ => none

/-! ## What a step does -/

/-- What a step does of the run. -/
def asks [BEq φ] [BEq Date] (generation : Nat) (carry : Carry φ L) (asked : Ask φ) :
    Engine φ Date L × Carry φ L :=
  match asked with
  | .progress fraction =>
      (s.tryMutate generation fun model =>
        model.setStep carry.index fun entry => { entry with progress := some fraction }, carry)
  | .result result =>
      (s.tryMutate generation fun model =>
        model.setStep carry.index fun entry => { entry with result := some result }, carry)
  | .need key kind text =>
      let needed := s.model.need carry.index key kind text s.channels
      match s.mutate generation fun _ => needed.2 with
      | none => (s, { carry with awaiting := .never })
      | some asking =>
          ({ asking with channels := s.channels + 1 },
            { carry with awaiting := .answer needed.1 })
  | .askLater question =>
      (s.tryMutate generation fun model => model.askLater carry.index question, carry)
  | .takeText key default =>
      match s.mutate generation fun model =>
        if (model.held key).isNone && default.isSome then model.closeKey key else model with
      | none => (s, { carry with awaiting := .text none })
      | some taken =>
          (taken, { carry with
            awaiting := .text (match s.model.held key with
              | some held => Model.asText held
              | none => default) })
  | .forget key => (s.tryMutate generation fun model => model.forget key, carry)
  | .notice key text =>
      match s.mutate generation fun model => model.notice carry.index key text with
      | none => (s, carry)
      | some noticed => (noticed, { carry with notices := carry.notices ++ [key] })
  | .close id =>
      if carry.notices.contains id then
        (s.tryMutate generation fun model => model.close id,
          { carry with notices := carry.notices.erase id })
      else (s, carry)

/-- What a step being carried out does next, as the step says it may. -/
def work [BEq φ] [BEq Date] (device : Device φ Date L) (task : Nat) (done : Work φ) :
    Option (Engine φ Date L) := do
  let drive ← s.drives[task]?
  match drive.phase with
  | .carrying carry =>
      let step ← device.steps[carry.index]?
      let body ← step.next carry.body done
      let goes := { carry with body := body }
      match done, carry.awaiting with
      | .ask asked, .nothing =>
          let (asking, goes) := s.asks drive.generation goes asked
          some (asking.setPhase task (.carrying goes))
      | .inPlace, .nothing => some (s.setPhase task (.carrying goes))
      | .offload, .nothing =>
          some ((s.handOver task carry.index).setPhase task
            (.carrying { goes with awaiting := .pool s.pool.length }))
      | .joined, .pool work => do
          let pooled ← s.pool[work]?
          if pooled.going then none
          else some (s.setPhase task (.carrying { goes with awaiting := .nothing }))
      | .limit, _ => some (s.setPhase task (.carrying { goes with awaiting := .nothing }))
      | .ends outcome, .nothing =>
          some ((s.setPhase task (.returned carry.index outcome)).dropNotices drive.generation
            carry.notices)
      | _, _ => none
  | _ => none

/-- What a step is given of what it waits on, where it has come. -/
def given (awaiting : Awaiting φ) : Option (Work φ) :=
  match awaiting with
  | .answer (.held answer) => some (.given answer)
  | .answer (.wait channel) => (s.delivered.lookup channel).map .given
  | .text text => some (.took text)
  | _ => none

/-- A step is given what it waits on: the answer it needs, or the text it takes. -/
def resume (device : Device φ Date L) (task : Nat) : Option (Engine φ Date L) := do
  let drive ← s.drives[task]?
  match drive.phase with
  | .carrying carry =>
      let step ← device.steps[carry.index]?
      let given ← s.given carry.awaiting
      let body ← step.next carry.body given
      some (s.setPhase task (.carrying { carry with body := body, awaiting := .nothing }))
  | _ => none

/-- Work in the pool comes to its end, whether or not it is still waited on. -/
def finishWork (work : Nat) : Option (Engine φ Date L) := do
  let pooled ← s.pool[work]?
  if pooled.going then
    some { s with pool := s.pool.set work { pooled with going := false } }
  else none

/-! ## Keeping the run -/

/-- The next part of a thread that keeps the run: with the medium taken, unless the run has since
ended, what is kept of it; then, saved or not, the medium released. -/
def save (saver : Nat) (failed : Option String) : Option (Engine φ Date L) := do
  let held ← s.savers[saver]?
  match held.phase with
  | .queued =>
      match s.disk with
      | some _ => none
      | none =>
          if s.model.generation = held.generation then
            some ({ s with disk := some (.saver saver) }.setSaver saver
              (.holding s.model.stored))
          else some (s.setSaver saver (.done none))
  | .holding stored =>
      some ({ s with
        disk := none
        medium := if failed.isNone then some stored else s.medium }.setSaver saver
          (.done failed))
  | .done _ => none

/-! ## Done-states -/

/-- Report a step undone where a step before it that undoes it is to be carried out. -/
def undoneAt (steps : List (Step φ L)) (found : List Done) (index : Nat) : List Done :=
  match steps[index]?, found[index]? with
  | some step, some done =>
      if done.state = .notDone then found
      else
        let undoers := step.undoneBy.filterMap fun id =>
          (steps.take index).findIdx? fun step => step.id = id
        match undoers.find? fun undoer => (found[undoer]?).any fun done => done.state = .notDone with
        | none => found
        | some undoer =>
            let undoing := ((steps[undoer]?).map Step.undoing).getD ""
            let why := match done.state, done.why with
              | .done, some holds => holds ++ "; " ++ undoing ++ " replaces it"
              | .done, none => undoing ++ " replaces it"
              | _, _ => undoing ++ " comes first"
            found.set index { state := .notDone, why := some why }
  | _, _ => found

/-- Report the steps undone that steps before them undo. -/
def undone (steps : List (Step φ L)) (found : List Done) : List Done :=
  (List.range found.length).foldl (undoneAt steps) found

/-- The done-states found, put in a model. -/
def determined (model : Model φ Date) (found : List Done) : Model φ Date :=
  { model with
    steps := (model.steps.zip found).map (fun (entry, done) => { entry with done := done }) ++
      model.steps.drop found.length
    checked := true }

/-- What a determination comes to: where the device is at rest, what was found is published. -/
def settle [BEq φ] [BEq Date] (device : Device φ Date L) (found : List Done) (quiet : Bool) :
    Engine φ Date L :=
  if s.model.atRest then
    let judged := { s with
      model := determined s.model (undone device.steps found), told := some (found, quiet) }
    judged.publish
  else s

/-- Whether a determination is under way. -/
def Reading (determination : Determination) : Bool :=
  match determination with
  | .reading _ _ => true
  | _ => false

/-- The next part of a determination: with no other under way, the device looked at; each step's
done-state read; and where the device is at rest, what was found published. -/
def determine [BEq φ] [BEq Date] (device : Device φ Date L) (index : Nat) (read : Option Done) :
    Option (Engine φ Date L) := do
  match ← s.determinations[index]?, read with
  | .queued, none =>
      if s.determinations.any Reading then none
      else some (s.setDetermination index
        (if s.model.atRest then .reading [] true else .ended))
  | .reading found quiet, some done =>
      if found.length < device.steps.length then
        some (s.setDetermination index (.reading (found ++ [done]) quiet))
      else none
  | .reading found quiet, none =>
      if found.length < device.steps.length then none
      else
        some ((s.settle device found quiet).setDetermination index .ended)
  | _, _ => none

/-! ## Steps of the whole -/

/-- One stretch of what goes on. -/
inductive Move (φ : Type) where
  | ask (asked : Act φ)
  | call (index : Nat) (cleared : Bool)
  | drive (task : Nat) (cleared : Bool)
  | askAhead (task : Nat) (question : Question)
  | askedAhead (task : Nat)
  | work (task : Nat) (done : Work φ)
  | resume (task : Nat)
  | finishWork (work : Nat)
  | save (saver : Nat) (failed : Option String)
  | attach
  | determine (index : Nat) (read : Option Done)

/-- Where one stretch leads. -/
def go [BEq φ] [BEq Date] (device : Device φ Date L) : Move φ → Option (Engine φ Date L)
  | .ask asked => some (s.ask device asked)
  | .call index cleared => s.call device index cleared
  | .drive task cleared => s.drive device task cleared
  | .askAhead task question => s.askAhead task question
  | .askedAhead task => s.askedAhead task
  | .work task done => s.work device task done
  | .resume task => s.resume device task
  | .finishWork work => s.finishWork work
  | .save saver failed => s.save saver failed
  | .attach => some s.determineSoon
  | .determine index read => s.determine device index read

/-- Note of each determination under way whether some step's work can go on. -/
def observe : Engine φ Date L :=
  let quietNow := s.works.isEmpty
  { s with
    determinations := s.determinations.map fun determination =>
      match determination with
      | .reading found quiet => .reading found (quiet && quietNow)
      | other => other }

/-- One stretch of what goes on, noted. -/
def take [BEq φ] [BEq Date] (device : Device φ Date L) (s : Engine φ Date L) (move : Move φ) :
    Option (Engine φ Date L) :=
  (s.go device move).map observe

/-! ## The start -/

/-- The model of a device that holds no run. -/
def initial (device : Device φ Date L) : Model φ Date :=
  Model.new device.built (device.steps.map fun step => (step.id, step.title, step.changesBoard))

/-- A provisioner as it starts, given what is on the medium, what was read of it, and whether a run
that matches no steps is cleared. -/
def start [BEq φ] [BEq Date] (device : Device φ Date L) (medium loaded : Option Stored)
    (cleared : Bool) : Engine φ Date L :=
  let base : Engine φ Date L := {
    model := initial device
    published := (initial device).snapshot
    medium := medium
    disk := none
    handle := none
    drives := []
    pool := []
    savers := []
    calls := []
    determinations := []
    delivered := []
    channels := 0
    told := none }
  match loaded with
  | none => base.determineSoon
  | some stored =>
      let (adopted, model) := adopt base.model stored
      let taken := { base with model := model }
      let held := taken.publish
      if adopted then
        if model.run = .failed then held
        else { held.spawn model.generation with handle := some 0 }
      else { held with medium := if cleared then none else medium }.determineSoon

end Engine

/-- The runs of a provisioner from its start on, whatever the medium holds of them. -/
def system [BEq φ] [BEq Date] (device : Device φ Date L) :
    Transition.System (Engine φ Date L) (Engine.Move φ) where
  init s := ∃ medium loaded cleared, (loaded = none ∨ (device.kept = true ∧ loaded = medium)) ∧
    s = Engine.start device medium loaded cleared
  step s move s' := Engine.take device s move = some s'

end Bliti.Provision
