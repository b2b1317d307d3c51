import Bliti.Network.Probe.Radio
import Bliti.Network.Select.Settle
import Bliti.Network.Stack.Verify

/-!
# The network stack - the driver's state

What the task driving the running system remembers: the selector, what has been
rendered and applied, the command waiting on its answer, the attempts being
verified, and what it has started and has yet to hear back from.
-/

namespace Bliti.Network.Stack

open Std (ExtTreeMap ExtTreeSet)
open Channel.Config Select Probe

variable {φ : Type}

/-! ## What the driver runs on -/

/-- A backend an apply has pick its files up. -/
inductive Backend where
  | regdom
  | hostapd
  | iwd
  | networkd
  | resolved
deriving DecidableEq, Repr

/-- What of an apply's changes the driver asks after. -/
structure Changes where
  regdom : Bool
  iwdConfig : Bool
deriving DecidableEq, Repr

/-- Why an apply failed, with the backend where it was one that did. -/
structure ApplyError where
  backend : Option Backend
  text : String
deriving DecidableEq, Repr

/-- Why a state could not be rendered. -/
inductive RenderError where
  | invalid (invalid : Invalid)
  | selection (reason : String)
deriving DecidableEq, Repr

/-- The hostapd configuration of a state rendered, where it has one. -/
abbrev Rendered := Option String

/-- What the driver shares with the rest of the stack: the hardware, how a state
renders on it, what capabilities its radios give it, and how addresses are
read. -/
structure Shared (φ : Type) where
  hardware : Hardware
  render : Document φ → Render.Selection → Except RenderError Rendered
  capabilities : List RadioInfo → Json.Map φ
  reading : Reading

/-! ## Commands, work and what is heard back -/

/-- What the backend asks of the task, with where it is to be answered. -/
inductive Command (φ : Type) where
  | apply (document replacing : Document φ) (reply : Nat)
  | restore (document : Document φ) (reply : Nat)

/-- What asked for a scan. -/
inductive Scanner where
  | pending
  | sweep (token : Nat)
  | refused (attempt : Attempt)
deriving DecidableEq, Repr

/-- What the task has started and has yet to hear back from. -/
inductive Work where
  | applying (taken : Nat) (attempts : List Attempt)
  | reprobing
  | scanning (interface : String) (scanner : Scanner)
  | sweeping (radio : String) (token wait : Nat)
  | associating (attempt : Attempt) (station : String) (target : Target)
  | operating (interface : String)
  | rejoining (attempt : Attempt) (station : String) (target : Target)
  | deadline (attempt : Attempt) (timer wait : Nat)
  | probing (attempt : Attempt) (source gateway : IpAddr)
  | retry (candidate generation wait : Nat)
deriving DecidableEq

/-- What the task hears back from what it started. -/
inductive Internal where
  | applied (result : Except ApplyError Changes) (taken : Nat) (attempts : List Attempt)
  | reprobed (result : Except String (List RadioInfo))
  | scanned (interface : String) (result : Except String (ExtTreeMap String Int))
      (scanner : Scanner)
  | sweep (radio : String) (token : Nat)
  | associated (attempt : Attempt) (result : Except String Joined)
  | operating (interface : String) (frequency : Option Nat)
  | rejoined (attempt : Attempt) (result : Except String Joined)
  | deadline (attempt : Attempt) (timer : Nat)
  | probed (attempt : Attempt) (result : Except String Unit)
  | retry (candidate generation : Nat)

/-- Whether a piece of work may end so. -/
def Work.ends : Work → Internal → Bool
  | .applying taken attempts, .applied _ taken' attempts' =>
      taken == taken' && attempts == attempts'
  | .reprobing, .reprobed _ => true
  | .scanning interface scanner, .scanned interface' _ scanner' =>
      interface == interface' && scanner == scanner'
  | .sweeping radio token _, .sweep radio' token' => radio == radio' && token == token'
  | .associating attempt _ _, .associated attempt' _ => attempt == attempt'
  | .operating interface, .operating interface' _ => interface == interface'
  | .rejoining attempt _ _, .rejoined attempt' _ => attempt == attempt'
  | .deadline attempt timer _, .deadline attempt' timer' =>
      attempt == attempt' && timer == timer'
  | .probing attempt _ _, .probed attempt' _ => attempt == attempt'
  | .retry candidate generation _, .retry candidate' generation' =>
      candidate == candidate' && generation == generation'
  | _, _ => false

/-- A command waiting on its answer: what it adds or changes, where it is a
proposal to be verified. -/
inductive Pending where
  | apply (reply : Nat) (changed : List Nat)
  | restore (reply : Nat)
deriving DecidableEq, Repr

/-- Where a command waiting is to be answered. -/
def Pending.reply : Pending → Nat
  | .apply reply _ => reply
  | .restore reply => reply

/-- One radio's sweep. -/
structure Sweep where
  token : Nat
  tries : Nat
deriving DecidableEq, Repr

/-! ## The driver -/

/-- The task driving the running system.  `idle` is whether it holds the
applier's system, which an apply that runs takes; `work` is what it has started,
and `answered` the answers it has given. -/
structure Driver (φ : Type) where
  shared : Shared φ
  radios : List RadioInfo
  joined : ExtTreeMap String Joined
  selector : Selector φ
  document : Document φ
  configured : Bool
  idle : Bool
  states : Option (List (Json φ))
  generation : Nat
  wanted : Nat
  taken : Nat
  done : Nat
  reprobing : Bool
  reprobeAgain : Bool
  scanning : ExtTreeMap String Nat
  hotspotScanning : Option String
  hostapd : Option String
  bounce : Option String
  pending : Option (Pending × Nat)
  links : Links
  heard : ExtTreeMap String (ExtTreeMap String Int)
  stations : ExtTreeMap String Station
  checks : ExtTreeMap Nat Check
  last : ExtTreeMap String (Option (Attachment φ))
  backoff : ExtTreeMap Nat Nat
  failed : ExtTreeSet Nat
  placed : ExtTreeMap Nat String
  sweeps : ExtTreeMap String Sweep
  swept : Nat
  work : List Work
  answered : List (Nat × Except Failure Unit)

/-- How long a wireless candidate may take to associate, in seconds. -/
def ASSOCIATE : Nat := 90

/-- How long a dynamic candidate may take to hold an address. -/
def LEASE : Nat := 45

/-- How long a static candidate may take to hold its configured address. -/
def CONFIGURE : Nat := 10

/-- How long a dynamic candidate holding an address may take to be offered a
default route. -/
def ROUTE : Nat := 10

/-- The first wait before a failed candidate is tried again. -/
def RETRY : Nat := 30

/-- The longest wait before a failed candidate is tried again. -/
def RETRY_MAX : Nat := 15 * 60

/-- How long to wait before the next of a series of tries, some having been made
already. -/
def backoffAfter (tries : Nat) : Nat :=
  min (RETRY * (1 <<< min tries 16)) RETRY_MAX

/-- An entry of a state message for a candidate's state. -/
def entry : State → Json φ
  | .defaultRoute => .object [("is", .string "default-route")]
  | .up => .object [("is", .string "up")]
  | .verifying _ => .object [("is", .string "verifying")]
  | .standby => .object [("is", .string "standby")]
  | .off => .object [("is", .string "off")]
  | .unavailable fault =>
      .object [("is", .string "unavailable"), ("reached", .string fault.reached.asStr),
        ("reason", .string fault.reason)]

/-- Whether an interface carries an established candidate. -/
def carriesEstablished (decision : Decision) (interface : String) : Bool :=
  decision.links[interface]?.any fun link =>
    match decision.states[link.candidate]? with
    | some .up | some .defaultRoute => true
    | _ => false

namespace Driver

/-- The driver as it starts, on a selector of a document of nothing. -/
def new (shared : Shared φ) (radios : List RadioInfo) (selector : Selector φ) : Driver φ where
  shared := shared
  radios := radios
  joined := ∅
  selector := selector
  document := { attachments := [], hotspot := none, regulatoryDomain := none }
  configured := false
  idle := true
  states := none
  generation := 0
  wanted := 0
  taken := 0
  done := 0
  reprobing := false
  reprobeAgain := false
  scanning := ∅
  hotspotScanning := none
  hostapd := none
  bounce := none
  pending := none
  links := .empty
  heard := ∅
  stations := ∅
  checks := ∅
  last := ∅
  backoff := ∅
  failed := ∅
  placed := ∅
  sweeps := ∅
  swept := 0
  work := []
  answered := []

/-- Start a piece of work. -/
def start (d : Driver φ) (work : Work) : Driver φ :=
  { d with work := d.work ++ [work] }

/-- Publish the states of the candidates of the document running. -/
def publish (d : Driver φ) : Driver φ :=
  { d with states := some (d.selector.decision.states.map entry) }

end Driver

end Bliti.Network.Stack
