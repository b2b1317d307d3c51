import Bliti.Network.Session.Task
import Bliti.Network.Stack.Driver.Run

/-!
# The configuration session - the configurator beside the driver

The configurator's task and the driver's, and the two channels between them: the
commands the configurator sends, taken in order, and the candidates' states the
driver publishes, of which the configurator reads the latest.
-/

namespace Bliti.Network.Session

open Channel.Config Select Stack

variable {φ : Type}

/-- A verification under way: what it verifies and against what, where it is
answered, and whether the driver has been asked.  One dropped before it is first
polled asks nothing. -/
structure Verification (φ : Type) where
  document : Document φ
  replacing : Document φ
  reply : Nat
  asked : Bool

/-- A snapshot published, with the document whose candidates' states it was
joined with, where the driver had published any. -/
structure Published (φ : Type) where
  snapshot : Snapshot φ
  computedFor : Option (Document φ)

/-- The configurator and the driver.  Nothing is published until the configurator
has started. -/
structure Configurator (φ : Type) where
  state : State φ
  verification : Option (Verification φ)
  published : Option (Published φ)
  driver : Driver φ
  commands : List (Command φ)
  replies : Nat

/-- A step of one of the two.  What the backend's own check answers of a proposal
may be anything, and so may whether recording it succeeds. -/
inductive Configurator.Step (φ : Type) where
  | start
  | propose (raw : Json.Map φ) (checked : Except Invalid Unit) (recorded : Except String Unit)
  | ask
  | settled
  | observed
  | commanded
  | driver (turn : Driver.Turn φ)

namespace Configurator

/-- What the configurator asks the stack of the proposals it saves. -/
def backend (w : Configurator φ) (checked : Except Invalid Unit) : Backend φ where
  capabilities := w.driver.shared.capabilities w.driver.radios
  check _ := checked

/-- The answer the driver has given a command, where it has given one. -/
def answer (w : Configurator φ) (reply : Nat) : Option (Except Failure Unit) :=
  (w.driver.answered.find? fun answer => answer.1 == reply).map Prod.snd

variable [BEq φ]

/-- Publish a snapshot of a state. -/
def publishing (w : Configurator φ) (state : State φ) : Configurator φ :=
  let next := snapshot (w.backend (.ok ())) state w.driver.states
  let fresh : Published φ :=
    { snapshot := next
      computedFor := w.driver.states.map fun _ => w.driver.document }
  { w with
    state := state
    published :=
      match w.published with
      | some published => if published.snapshot == next then some published else some fresh
      | none => some fresh }

/-- Save a proposal, publish and verify it, or publish what is held. -/
def propose [ToString φ] (w : Configurator φ) (raw : Json.Map φ)
    (checked : Except Invalid Unit) (recorded : Except String Unit) : Configurator φ :=
  match w.state.save (w.backend checked) raw recorded with
  | .ok (state, document, replacing) =>
      { w.publishing state with
        verification := some {
          document := document
          replacing := replacing
          reply := w.replies
          asked := false }
        replies := w.replies + 1 }
  | .error _ => w.publishing w.state

/-- The configurator starts: it verifies again a configuration whose verification
was interrupted, and has otherwise had it restored. -/
def start (w : Configurator φ) : Option (Configurator φ) :=
  match w.published, w.state.outcome with
  | some _, _ => none
  | none, .verifying =>
      some { w.publishing w.state with
        verification := some {
          document := w.state.document
          replacing := w.state.replacedDocument
          reply := w.replies
          asked := false }
        replies := w.replies + 1 }
  | none, _ =>
      match w.answer 0 with
      | some (.ok ()) => some (w.publishing w.state)
      | some (.error failure) => some (w.publishing (w.state.cannotRun failure))
      | none => none

/-- The driver takes the first command it was sent. -/
def commanded (w : Configurator φ) : Option (Configurator φ) :=
  match w.commands with
  | command :: rest =>
      some { w with driver := w.driver.turn (.command command), commands := rest }
  | [] => none

/-- The driver takes in an observation, or that work ended. -/
def drive (w : Configurator φ) (turn : Driver.Turn φ) : Option (Configurator φ) :=
  match turn with
  | .command _ => none
  | other => (w.driver.takeTurn other).map fun driver => { w with driver := driver }

/-- Take a step, where it can be taken. -/
def take [ToString φ] (w : Configurator φ) : Step φ → Option (Configurator φ)
  | .start => w.start
  | .propose raw checked recorded =>
      if w.published.isSome then some (w.propose raw checked recorded) else none
  | .ask =>
      match w.verification with
      | some v =>
          if v.asked then none
          else
            some { w with
              verification := some { v with asked := true }
              commands := w.commands ++ [.apply v.document v.replacing v.reply] }
      | none => none
  | .settled =>
      match w.verification with
      | some v =>
          if v.asked then
            (w.answer v.reply).map fun verdict =>
              { w.publishing (w.state.settle verdict) with verification := none }
          else none
      | none => none
  | .observed => if w.published.isSome then some (w.publishing w.state) else none
  | .commanded => w.commanded
  | .driver turn => w.drive turn

/-- The configurator and the driver before either does anything: a configuration
that was settled is to be restored. -/
def Initial (shared : Shared φ) (w : Configurator φ) : Prop :=
  ∃ (recorded : Except String (Option (Stored φ))) (fallback : Json.Map φ),
    State.load recorded fallback = .ok w.state ∧
    (driving shared).init w.driver ∧
    w.verification = none ∧ w.published = none ∧
    w.commands = (if w.state.outcome = .verifying then [] else [.restore w.state.document 0]) ∧
    w.replies = 1

end Configurator

/-- The configurator beside the driver, in any order. -/
def configuring [BEq φ] [ToString φ] (shared : Shared φ) :
    Transition.System (Configurator φ) (Configurator.Step φ) :=
  .ofTake (Configurator.Initial shared) Configurator.take

end Bliti.Network.Session
