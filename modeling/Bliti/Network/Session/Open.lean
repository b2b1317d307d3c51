import Bliti.Library.Transition
import Bliti.Network.Session.Task

/-!
# The configuration session - what a session sends

A session's side of the exchange: it sends the configuration held when that
changes, and the state after it and whenever anything it carries changes, each
from the latest the task has published.  Sessions run here beside the
configurator whose publications they read, coalesced in any way.
-/

namespace Bliti.Network.Session

open Channel.Config

variable {φ : Type}

/-! ## Messages -/

/-- What a state message carries of the configuration held. -/
structure Reported (φ : Type) where
  busy : Bool
  outcome : Outcome
  failure : Option Failure
  attachments : List (Json φ)
deriving BEq, ReflBEq

/-- What a session sends its client. -/
inductive Sent (φ : Type) where
  | configuration (document : Json.Map φ) (capabilities : Option (Json.Map φ))
  | state (reported : Reported φ) (capabilities : Option (Json.Map φ))
  | cannotConfigure (invalid : Invalid)
  | cannotAct (act : String) (invalid : Invalid)
  | networks (accessPoints : List (Json φ))
  | spectrum (spectrum : Json.Map φ)

/-! ## A session -/

/-- What a session remembers of what it sent. -/
structure Open (φ : Type) where
  told : Option (Json.Map φ)
  revision : Option Nat
  reported : Option (Reported φ)

namespace Open

/-- A session that has sent nothing. -/
def new : Open φ where
  told := none
  revision := none
  reported := none

/-- The capabilities of a snapshot, where the client was not told of them. -/
def untold [BEq φ] (o : Open φ) (snapshot : Snapshot φ) : Option (Json.Map φ) :=
  if o.told == some snapshot.capabilities then none else some snapshot.capabilities

/-- Whether a session sends the configuration of a snapshot. -/
def configures (o : Open φ) (snapshot : Snapshot φ) (resend : Bool) : Bool :=
  resend || o.revision != some snapshot.held.revision

/-- What a state message would carry of a snapshot. -/
def report (snapshot : Snapshot φ) (busy : Bool) (attachments : List (Json φ)) :
    Reported φ where
  busy := busy
  outcome := snapshot.held.outcome
  failure := snapshot.held.failure
  attachments := attachments

/-- Send what the client has not been told of a snapshot: the configuration
where it changed, or at a resend, then the state after it and where anything it
carries changed. -/
def sync [BEq φ] (o : Open φ) (snapshot : Snapshot φ) (busy resend : Bool) :
    Open φ × List (Sent φ) :=
  let capabilities := o.untold snapshot
  let told := if capabilities.isSome then some snapshot.capabilities else o.told
  let configured := o.configures snapshot resend
  let configuration :=
    if configured then [.configuration snapshot.held.document capabilities] else []
  let revision := if configured then some snapshot.held.revision else o.revision
  -- The configuration takes the capabilities where it is sent.
  let left := if configured then none else capabilities
  match snapshot.attachments with
  | none => ({ told := told, revision := revision, reported := o.reported }, configuration)
  | some attachments =>
      let reported := report snapshot busy attachments
      if configured || left.isSome || o.reported != some reported then
        ({ told := told, revision := revision, reported := some reported },
          configuration ++ [.state reported left])
      else ({ told := told, revision := revision, reported := o.reported }, configuration)

end Open

/-! ## The configurator and a session -/

/-- The configurator and what it last published, with one session, what it sent
and the snapshot it last synced with. -/
structure Serving (φ : Type) where
  state : State φ
  published : Snapshot φ
  session : Option (Open φ)
  sent : List (Sent φ)
  synced : Option (Snapshot φ × Bool)

/-- The steps of the configurator and of one session.  What a backend offers and
observes may be anything at each, and so may whether the session is busy. -/
inductive Step (φ : Type) where
  | propose (backend : Backend φ) (states : Option (List (Json φ))) (raw : Json.Map φ)
      (recorded : Except String Unit)
  | settled (backend : Backend φ) (states : Option (List (Json φ)))
      (verdict : Except Failure Unit)
  | observed (backend : Backend φ) (states : Option (List (Json φ)))
  | opened (busy : Bool)
  | changed (busy : Bool)
  | configure (busy : Bool)
  | refused (invalid : Invalid) (busy : Bool)
  | answered (message : Sent φ)

namespace Serving

variable [BEq φ]

/-- The configurator publishes a snapshot of a state. -/
def publishing (w : Serving φ) (backend : Backend φ) (state : State φ)
    (states : Option (List (Json φ))) : Serving φ :=
  { w with
    state := state
    published := publish w.published (snapshot backend state states) }

/-- A session syncs with what is published, after sending other messages. -/
def syncing (w : Serving φ) (o : Open φ) (before : List (Sent φ)) (busy resend : Bool) :
    Serving φ :=
  let (o', messages) := o.sync w.published busy resend
  { w with
    session := some o'
    sent := w.sent ++ before ++ messages
    synced := some (w.published, busy) }

/-- Take a step, where it can be taken. -/
def take [ToString φ] (w : Serving φ) : Step φ → Option (Serving φ)
  | .propose backend states raw recorded =>
      match w.state.save backend raw recorded with
      | .ok (state, _, _) => some (w.publishing backend state states)
      | .error _ => some (w.publishing backend w.state states)
  | .settled backend states verdict =>
      some (w.publishing backend (w.state.settle verdict) states)
  | .observed backend states => some (w.publishing backend w.state states)
  | .opened busy =>
      match w.session with
      | none => some (w.syncing .new [] busy true)
      | some _ => none
  | .changed busy => w.session.map fun o => w.syncing o [] busy false
  | .configure busy => w.session.map fun o => w.syncing { o with told := none } [] busy true
  | .refused invalid busy =>
      w.session.map fun o => w.syncing o [.cannotConfigure invalid] busy true
  | .answered message =>
      match message with
      | .cannotAct _ _ | .networks _ | .spectrum _ =>
          w.session.map fun _ => { w with sent := w.sent ++ [message] }
      | _ => none

end Serving

/-- The configurator from any start, and no session yet. -/
def Serving.start (w : Serving φ) : Prop :=
  ∃ (recorded : Except String (Option (Stored φ))) (fallback : Json.Map φ)
    (state : State φ) (backend : Backend φ) (states : Option (List (Json φ))),
    State.load recorded fallback = .ok state ∧
      (w.state = state ∨ ∃ failure, w.state = state.cannotRun failure) ∧
      w.published = snapshot backend w.state states ∧ w.session = none ∧ w.sent = [] ∧
      w.synced = none

/-- A session beside the configurator. -/
def serving (φ : Type) [BEq φ] [ToString φ] : Transition.System (Serving φ) (Step φ) :=
  .ofTake Serving.start Serving.take

end Bliti.Network.Session
