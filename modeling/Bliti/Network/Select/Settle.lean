import Bliti.Library.Transition
import Bliti.Network.Select.Check
import Bliti.Network.Select.Place

/-!
# Selection - taking in observations and documents

The operations of a selector: each takes in an observation or another document
and selects again.
-/

namespace Bliti.Network.Select

open Std (ExtTreeMap ExtTreeSet)
open Channel.Config

variable {φ : Type}

/-! ## Selecting again -/

/-- What differs between two decisions, in the order links, hotspot, default
route, states. -/
def diff (old new : Decision) : List Change :=
  let interfaces : ExtTreeSet String := .ofList (old.links.keys ++ new.links.keys)
  let links := interfaces.toList.filterMap fun interface =>
    if old.links[interface]? != new.links[interface]? then
      some (.link interface new.links[interface]?)
    else none
  let hotspot := if old.hotspot != new.hotspot then [.hotspot new.hotspot] else []
  let defaultRoute :=
    if old.defaultRoute != new.defaultRoute then [.defaultRoute new.defaultRoute] else []
  let states := new.states.zipIdx.filterMap fun (state, candidate) =>
    if old.states[candidate]? != some state then some (.state candidate state) else none
  links ++ hotspot ++ defaultRoute ++ states

/-- The state of a candidate an interface holds. -/
def heldState (defaultRoute : Option Nat) (held : Held) : State :=
  match held.atStage with
  | some stage => .verifying stage
  | none => if some held.link.candidate = defaultRoute then .defaultRoute else .up

namespace Selector

/-- What one interface holds for the candidate placed on it: what it held for
that candidate before, else a new attempt at its first stage. -/
def holdOne (s : Selector φ) (acc : ExtTreeMap String Held × Nat) :
    String × Nat → ExtTreeMap String Held × Nat
  | (interface, candidate) =>
      match s.held[interface]?.filter fun old => old.link.candidate == candidate with
      | some kept => (acc.1.insert interface kept, acc.2)
      | none =>
          let fresh : Held :=
            { link := { candidate := candidate, attempt := ⟨acc.2 + 1⟩ }
              atStage := Stage.carrier.next (isWirelessAt s.document candidate) }
          (acc.1.insert interface fresh, acc.2 + 1)

/-- What the interfaces hold for the candidates placed on them, and the last
attempt handed out. -/
def hold (s : Selector φ) (links : ExtTreeMap String Nat) :
    ExtTreeMap String Held × Nat :=
  links.toList.foldl s.holdOne (∅, s.nextAttempt)

/-- The channels of the clients carried over. -/
def keptChannels (s : Selector φ) (held : ExtTreeMap String Held) :
    ExtTreeMap String Render.Channel :=
  s.channels.filter fun radio _ =>
    s.held[radio]?.any fun old => held[radio]? == some old

/-- The states of all candidates, those held over those idle. -/
def allStates (idle : ExtTreeMap Nat State) (defaultRoute : Option Nat)
    (held : List Held) : ExtTreeMap Nat State :=
  held.foldl (fun states h => states.insert h.link.candidate (heldState defaultRoute h))
    idle

/-- The least candidate established on some interface. -/
def leastEstablished (held : ExtTreeMap String Held) : Option Nat :=
  ((held.values.filter fun h => h.atStage.isNone).map fun h => h.link.candidate).min?

/-- Select again, and report what differs from the decision before. -/
def settle (s : Selector φ) : Selector φ × List Change :=
  let placed := s.place
  let (held, nextAttempt) := s.hold placed.links
  let channels := s.keptChannels held
  let s := { s with held := held, nextAttempt := nextAttempt, channels := channels }
  let defaultRoute := leastEstablished held
  let decision : Decision :=
    { links := held.map fun _ h => h.link
      hotspot := s.placeHotspot
      defaultRoute := defaultRoute
      states := (allStates placed.idle defaultRoute held.values).values }
  ({ s with decision := decision }, diff s.decision decision)

/-! ## Documents -/

/-- Select among a document's candidates with nothing yet observed. -/
def new (hardware : Hardware) (document : Document φ) :
    Except Invalid (Selector φ) := do
  check document hardware
  let s : Selector φ :=
    { hardware := hardware
      document := document
      carrier := ∅
      heard := ∅
      channels := ∅
      failures := ∅
      held := ∅
      nextAttempt := 0
      decision := .empty }
  pure s.settle.1

/-- Match the candidates of the document replaced to those equal to them, each
of the new ones taken at most once. -/
def moved [BEq φ] (new : List (Attachment φ)) :
    List (Attachment φ) → List Bool → List (Option Nat)
  | [], _ => []
  | old :: rest, taken =>
      match (List.range new.length).find? fun i =>
        !(taken[i]?.getD false) && new[i]?.any (· == old) with
      | some i => some i :: moved new rest (taken.set i true)
      | none => none :: moved new rest taken

/-- Select among another document's candidates, keeping what has been observed.
A candidate carried over unchanged keeps its attempt and its failure. -/
def configure [BEq φ] (s : Selector φ) (document : Document φ) :
    Except Invalid (Selector φ × List Change) := do
  check document s.hardware
  if document == s.document then
    pure (s, [])
  else
    let matching := moved document.attachments s.document.attachments
      (List.replicate document.attachments.length false)
    let movedTo (old : Nat) : Option Nat := matching[old]?.join
    let held := s.held.filterMap fun _ h =>
      (movedTo h.link.candidate).map fun new =>
        { h with link := { h.link with candidate := new } }
    let failures : ExtTreeMap Nat Fault :=
      .ofList (s.failures.toList.filterMap fun (old, fault) =>
        (movedTo old).map fun new => (new, fault))
    let s := { s with
      held := held
      failures := failures
      document := document
      decision := { s.decision with states := [] } }
    pure s.settle

/-! ## Observations -/

/-- The ranks of the candidates of a document that meet a condition. -/
def ranksWhere (s : Selector φ) (p : AttachmentKind φ → Bool) : List Nat :=
  (s.document.attachments.zipIdx.filter fun (attachment, _) => p attachment.kind).map
    Prod.snd

/-- Make candidates available anew. -/
def availableAnew (s : Selector φ) (ranks : List Nat) : Selector φ :=
  { s with failures := ranks.foldl (fun failures rank => failures.erase rank) s.failures }

/-- A wired interface gained or lost carrier. -/
def carrierEvent (s : Selector φ) (interface : String) (up : Bool) : Selector φ :=
  if !s.hardware.wired.contains interface then s
  else if !up then { s with carrier := s.carrier.erase interface }
  else if interface ∈ s.carrier then s
  else
    -- Carrier returning makes every candidate on the interface available anew.
    let onIt := s.ranksWhere fun
      | .wiredDynamic own => own == interface
      | .wiredStatic own _ _ => own == interface
      | .wireless _ => false
    { s with carrier := s.carrier.insert interface }.availableAnew onIt

/-- A radio hears a network, or hears it at a new signal. -/
def inRange (s : Selector φ) (interface ssid : String) (signal : Int) : Selector φ :=
  if (s.hardware.radio interface).isNone then s
  else
    let key : Hearing := toLex (interface, ssid)
    let s' := { s with heard := s.heard.insert key signal }
    if key ∈ s.heard then s'
    else
      -- A network coming into range makes every candidate for it that the radio
      -- could carry available anew.
      let anew := s.ranksWhere fun
        | .wireless w => w.ssid == ssid && w.interface.all fun pin => pin == interface
        | _ => false
      s'.availableAnew anew

/-- The first interface, in order, holding an attempt. -/
def holding (s : Selector φ) (attempt : Attempt) : Option (String × Held) :=
  s.held.toList.find? fun entry => entry.2.link.attempt == attempt

/-- An attempt passed the stage it was at. -/
def passed (s : Selector φ) (attempt : Attempt) (stage : Stage) : Selector φ :=
  match s.holding attempt with
  | some (interface, held) =>
      if held.atStage = some stage then
        let next := stage.next (isWirelessAt s.document held.link.candidate)
        { s with held := s.held.insert interface { held with atStage := next } }
      else s
  | none => s

/-- An attempt failed at a stage. -/
def failedEvent (s : Selector φ) (attempt : Attempt) (fault : Fault) : Selector φ :=
  match s.holding attempt with
  | some (_, held) => { s with failures := s.failures.insert held.link.candidate fault }
  | none => s

/-- The channel a radio's wireless client is on. -/
def stationChannel (s : Selector φ) (interface : String)
    (channel : Option Render.Channel) : Selector φ :=
  if (s.hardware.radio interface).isNone then s
  else
    match channel with
    | some channel => { s with channels := s.channels.insert interface channel }
    | none => { s with channels := s.channels.erase interface }

/-- Take in an observation, before selecting again. -/
def observe (s : Selector φ) : Event → Selector φ
  | .carrier interface up => s.carrierEvent interface up
  | .inRange interface ssid signal => s.inRange interface ssid signal
  | .outOfRange interface ssid =>
      { s with heard := s.heard.erase (toLex (interface, ssid)) }
  | .passed attempt stage => s.passed attempt stage
  | .failed attempt stage member reason => s.failedEvent attempt ⟨stage, member, reason⟩
  | .stationChannel interface channel => s.stationChannel interface channel
  | .retry candidate => { s with failures := s.failures.erase candidate }

/-- Take in an observation and select again. -/
def handle (s : Selector φ) (event : Event) : Selector φ × List Change :=
  (s.observe event).settle

/-- The renderer's selection. -/
def selection (s : Selector φ) : Render.Selection where
  links := s.decision.links.map fun _ link => link.candidate
  hotspot :=
    (s.decision.hotspot.filter fun placement =>
      match placement.channel with
      | .follows _ none => false
      | _ => true).map fun placement => placement.radio
  channels := .ofList (s.hardware.radios.filterMap fun radio =>
    (s.associated radio.station).map fun channel => (radio.station, channel))

end Selector

/-! ## A selector fed events and documents -/

/-- What a selector is fed. -/
inductive Input (φ : Type) where
  | handle (event : Event)
  | configure (document : Document φ)

/-- Feed a selector one input. -/
def Selector.feed [BEq φ] (s : Selector φ) :
    Input φ → Except Invalid (Selector φ × List Change)
  | .handle event => .ok (s.handle event)
  | .configure document => s.configure document

/-- A selector on some hardware, from any document it accepts, fed any events
and any documents it accepts. -/
def selecting (φ : Type) [BEq φ] (hardware : Hardware) :
    Transition.System (Selector φ) (Input φ) where
  init s := ∃ document, Selector.new hardware document = .ok s
  step s input s' := ∃ changes, s.feed input = .ok (s', changes)

end Bliti.Network.Select
