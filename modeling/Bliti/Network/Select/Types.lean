import Bliti.Channel.Config
import Bliti.Library.OrderedMap
import Bliti.Network.Render.Selection
import Mathlib.Data.Prod.Lex
import Mathlib.Data.String.Basic

/-!
# Selection - hardware, events, decisions and the selector's state

The data of candidate selection: what it runs on, what is observed, what it
decides and what a selector remembers between two observations.
-/

namespace Bliti.Network.Select

open Std (ExtTreeMap ExtTreeSet LawfulEqOrd)
open Channel.Config

variable {φ : Type}

/-! ## Hardware -/

/-- How a radio runs an access point beside a wireless client. -/
inductive Alongside where
  | independent
  | sharedChannel
  | oneAtATime
deriving DecidableEq, Repr

/-- One wireless radio. -/
structure Radio where
  station : String
  accessPoint : Option Alongside
deriving DecidableEq, Repr

/-- The interfaces a candidate may be brought up on. -/
structure Hardware where
  wired : List String
  radios : List Radio
deriving DecidableEq, Repr

namespace Hardware

/-- The radio whose client runs on an interface. -/
def radio (hardware : Hardware) (station : String) : Option Radio :=
  hardware.radios.find? fun radio => radio.station == station

/-- The radios a wireless candidate may go on: the one it names, else every
one. -/
def radiosFor (hardware : Hardware) (interface : Option String) : List Radio :=
  hardware.radios.filter fun radio => interface.all fun name => radio.station == name

/-- The radios the hotspot may run on. -/
def hotspotRadios (hardware : Hardware) (hotspot : Hotspot) : List Radio :=
  (hardware.radiosFor hotspot.interface).filter fun radio => radio.accessPoint.isSome

/-- Whether a hotspot chooses its own band, channel or width. -/
def chooses (hotspot : Hotspot) : Bool :=
  hotspot.band.isSome || hotspot.channel.isSome || hotspot.channelWidth.isSome

/-- Whether a candidate is a wireless one turned on that may go on a radio. -/
def mayTake (radio : Radio) (attachment : Attachment φ) : Bool :=
  match attachment.kind with
  | .wireless wireless =>
      attachment.enabled && wireless.interface.all fun name => name == radio.station
  | _ => false

/-- The radios the hotspot may run on beside the document's wireless
candidates. -/
def hotspotHosts (hardware : Hardware) (document : Document φ) (hotspot : Hotspot) :
    List Radio :=
  (hardware.hotspotRadios hotspot).filter fun radio =>
    !chooses hotspot || radio.accessPoint != some .sharedChannel ||
      !document.attachments.any (mayTake radio)

end Hardware

/-! ## Stages and attempts -/

/-- A verification stage, in the order a candidate passes them. -/
inductive Stage where
  | carrier
  | association
  | addressing
  | gateway
deriving DecidableEq, Repr

namespace Stage

/-- The position of a stage in the order. -/
def rank : Stage → Nat
  | .carrier => 0
  | .association => 1
  | .addressing => 2
  | .gateway => 3

/-- No two stages share a position. -/
theorem rank_injective : Function.Injective rank := by
  intro a b h
  cases a <;> cases b <;> first | rfl | cases h

instance : LinearOrder Stage := LinearOrder.lift' rank rank_injective

/-- The stage as `reached` carries it on the wire. -/
def asStr : Stage → String
  | .carrier => "carrier"
  | .association => "association"
  | .addressing => "addressing"
  | .gateway => "gateway"

/-- The stage after this one for a candidate. -/
def next (stage : Stage) (wireless : Bool) : Option Stage :=
  match stage, wireless with
  | .carrier, true => some .association
  | .carrier, false => some .addressing
  | .association, _ => some .addressing
  | .addressing, _ => some .gateway
  | .gateway, _ => none

/-- A candidate's verification that stopped at a stage. -/
def failed (stage : Stage) (atPath reason : String) : Failure where
  atPath := atPath
  reason := reason
  reached := some stage.asStr

end Stage

/-- One candidate brought up on one interface, which verification reports back
against. -/
structure Attempt where
  id : Nat
deriving DecidableEq, Repr

/-- What a candidate failed with: the stage, the member at fault and why. -/
structure Fault where
  reached : Stage
  member : List Segment
  reason : String
deriving DecidableEq, Repr

/-! ## Events -/

/-- Something observed on the running system. -/
inductive Event where
  | carrier (interface : String) (up : Bool)
  | inRange (interface ssid : String) (signal : Int)
  | outOfRange (interface ssid : String)
  | passed (attempt : Attempt) (stage : Stage)
  | failed (attempt : Attempt) (stage : Stage) (member : List Segment) (reason : String)
  | stationChannel (interface : String) (channel : Option Render.Channel)
  | retry (candidate : Nat)
deriving DecidableEq, Repr

/-! ## Decisions -/

/-- The candidate an interface brings up, and the attempt at it. -/
structure Link where
  candidate : Nat
  attempt : Attempt
deriving DecidableEq, Repr

/-- Where a candidate stands. -/
inductive State where
  | defaultRoute
  | up
  | verifying (atStage : Stage)
  | standby
  | off
  | unavailable (fault : Fault)
deriving DecidableEq, Repr

/-- The channel the hotspot operates on. -/
inductive HotspotChannel where
  | own
  | follows (candidate : Nat) (channel : Option Render.Channel)
deriving DecidableEq, Repr

/-- The radio the hotspot runs on. -/
structure Placement where
  radio : String
  channel : HotspotChannel
deriving DecidableEq, Repr

/-- What should be up. -/
structure Decision where
  links : ExtTreeMap String Link
  hotspot : Option Placement
  defaultRoute : Option Nat
  states : List State
deriving DecidableEq

/-- The decision before anything was decided: `Decision::default`. -/
def Decision.empty : Decision where
  links := ∅
  hotspot := none
  defaultRoute := none
  states := []

/-- A part of the decision that differs from the last one. -/
inductive Change where
  | link (interface : String) (link : Option Link)
  | hotspot (placement : Option Placement)
  | defaultRoute (candidate : Option Nat)
  | state (candidate : Nat) (state : State)
deriving DecidableEq, Repr

/-! ## The selector -/

/-- An attempt held on an interface, with the stage it waits to pass, or `none`
once established. -/
structure Held where
  link : Link
  atStage : Option Stage
deriving DecidableEq, Repr

/-- A radio and a network it hears. -/
abbrev Hearing := String ×ₗ String

instance : LawfulEqOrd Hearing where
  eq_of_compare := compare_eq_iff_eq.mp

/-- Selects among a document's candidates on some hardware. -/
structure Selector (φ : Type) where
  hardware : Hardware
  document : Document φ
  carrier : ExtTreeSet String
  heard : ExtTreeMap Hearing Int
  channels : ExtTreeMap String Render.Channel
  failures : ExtTreeMap Nat Fault
  held : ExtTreeMap String Held
  nextAttempt : Nat
  decision : Decision

/-- Whether a candidate is a wireless one. -/
def isWireless (attachment : Attachment φ) : Bool :=
  match attachment.kind with
  | .wireless _ => true
  | _ => false

/-- Whether the candidate at a rank is a wireless one.  The source indexes the
candidates here, so a rank past their end would be a panic; `Settled.inRange`
shows that no selector looks past it. -/
def isWirelessAt (document : Document φ) (rank : Nat) : Bool :=
  document.attachments[rank]?.any isWireless

end Bliti.Network.Select
