import Bliti.Network.Stack.Driver.State

/-!
# The network stack - following the selector

The driver's side of a selection: it begins a check on each attempt the selector
makes, notes the candidates that fail, and publishes the states that change.
-/

namespace Bliti.Network.Stack

open Std (ExtTreeMap ExtTreeSet)
open Channel.Config Select Probe

variable {φ : Type}

/-- Whether two candidates put the same thing on their interface. -/
def sameLink [BEq φ] (a b : Attachment φ) : Bool :=
  a.kind == b.kind && a.nameservers == b.nameservers

/-- Whether a check is on an interface under an attempt other than the one the
interface is linked to. -/
def Check.superseded (interface : String) (link : Option Link) (check : Check) : Bool :=
  check.interface == interface && !link.any fun link => link.attempt == check.attempt

namespace Driver

variable [BEq φ]

/-- Start verifying an attempt, once the render bringing it up is applied.  The
source indexes the candidates here: a link past them would be a panic. -/
def begin (d : Driver φ) (interface : String) (link : Link) : Driver φ :=
  let atStage :=
    match d.selector.decision.states[link.candidate]? with
    | some (.verifying stage) => stage
    | _ => .addressing
  match d.document.attachments[link.candidate]? with
  | none => d
  | some attachment =>
      let placed :=
        if isWireless attachment then d.placed.insert link.candidate interface else d.placed
      let stale :=
        match d.last[interface]? with
        | some (some previous) =>
            if sameLink previous attachment then ∅ else d.links.held interface
        | some none => d.links.held interface
        | none => ∅
      let check := Check.new d.shared.reading link.attempt link.candidate attachment interface
        atStage stale
      { d with
        placed := placed
        last := d.last.insert interface (some attachment)
        checks := d.checks.insert link.attempt.id check }

/-- What the driver does about one change of the selector. -/
def followOne (d : Driver φ) : Change → Driver φ
  | .link interface link =>
      let d := { d with
        wanted := d.wanted + 1
        checks := d.checks.filter fun _ check => !check.superseded interface link }
      match link with
      | some link => if d.checks.contains link.attempt.id then d else d.begin interface link
      -- A radio left with nothing to carry is disconnected, which says nothing back.
      | none => d
  | .hotspot _ => { d with wanted := d.wanted + 1 }
  -- Route metrics follow the ordering, so the default route needs nothing applied.
  | .defaultRoute _ => d
  | .state candidate state =>
      match state with
      | .defaultRoute | .up => { d with backoff := d.backoff.erase candidate }
      | .unavailable fault =>
          if fault.reached != .carrier then { d with failed := d.failed.insert candidate } else d
      | _ => d

/-- Whether a change is of a candidate's state. -/
def isState : Change → Bool
  | .state _ _ => true
  | _ => false

/-- Follow what the selector changed. -/
def follow (d : Driver φ) (changes : List Change) : Driver φ :=
  let d := changes.foldl followOne d
  if changes.any isState then d.publish else d

/-- Take in an event and follow what the selector changed. -/
def feed (d : Driver φ) (event : Event) : Driver φ :=
  let (selector, changes) := d.selector.handle event
  { d with selector := selector }.follow changes

/-- The check on an attempt moved to the candidate its link is at, where the
selector still links it. -/
def carriedOver (links : List Link) (check : Check) : Option Check :=
  (links.find? fun link => link.attempt == check.attempt).map fun link =>
    { check with candidate := link.candidate }

/-- Whether a document brings up what an interface last brought up. -/
def keeps (document : Document φ) (previous : Attachment φ) : Bool :=
  document.attachments.any fun attachment => attachment.enabled && sameLink attachment previous

/-- Select among a document's candidates, keeping what has been observed. -/
def configure (d : Driver φ) (document : Document φ) : Except Invalid (Driver φ) := do
  let (selector, changes) ← d.selector.configure document
  -- A candidate turned off or removed lets go of its interface, so one turned
  -- on or added again is brought up anew.
  let last := d.last.map fun _ previous => previous.filter (keeps document)
  -- Candidates carried over keep their attempts but may have moved.
  let checks := d.checks.filterMap fun _ check =>
    carriedOver selector.decision.links.values check
  let d := { d with
    selector := selector
    document := document
    last := last
    configured := true
    generation := d.generation + 1
    backoff := ∅
    failed := ∅
    placed := ∅
    -- Rendered whether or not anything changed.
    wanted := d.wanted + 1
    checks := checks }
  pure (d.follow changes).publish

end Driver

end Bliti.Network.Stack
