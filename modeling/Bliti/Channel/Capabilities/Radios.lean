import Bliti.Channel.Capabilities

/-!
# Capabilities - the rules that turn on the radios

The rules relating one part of a document to another, which the mirror has no
way to express, and the whole check of a document against capabilities.
-/

namespace Bliti.Channel.Capabilities

open Config

variable {φ : Type} [BEq φ] [ToString φ]

/-! ## Radios and candidates -/

/-- How a radio runs an access point one at a time with a client. -/
def oneAtATime : String := "one-at-a-time"

/-- How a radio runs an access point on its client's channel. -/
def sharedChannel : String := "shared-channel"

/-- The hotspot's members choosing its channel. -/
def channelMembers : List String := ["band", "channel", "channel-width"]

/-- The document's hotspot, where it is not turned off. -/
def enabledHotspot (document : Json.Map φ) : Option (Json.Map φ) :=
  ((Json.get document "hotspot").bind Json.asObject).filter fun hotspot =>
    !(Json.get hotspot "enabled").any (· == .bool false)

/-- The interface an object names, where it names one. -/
def named (object : Json.Map φ) : Option String :=
  (Json.get object "interface").bind Json.asStr

/-- A wireless candidate, as far as the radios it may use go. -/
structure Candidate where
  label : String
  interface : Option String

/-- The document's wireless candidates a radio could carry: those not turned
off. -/
def wireless (document : Json.Map φ) : List Candidate :=
  match Json.get document "attachments" with
  | some (.array items) =>
      (items.filterMap Json.asObject).filterMap fun attachment =>
        if (Json.get attachment "kind").bind Json.asStr = some "wireless" &&
            !(Json.get attachment "enabled").any (· == .bool false) then
          some {
            label := ((Json.get attachment "label").bind Json.asStr).getD ""
            interface := named attachment }
        else none
  | _ => []

/-- The device's radios, as the capabilities describe them. -/
structure Radios where
  all : List (String × Option String)
  hotspotKeys : Option (List String)

namespace Radios

/-- The radios of some capabilities. -/
def of (capabilities : Json.Map φ) : Radios where
  all := (((Json.get capabilities "radios").bind Json.asObject).getD []).map fun (name, radio) =>
    (name, radio.asObject.bind fun radio => (Json.get radio "alongside").bind Json.asStr)
  hotspotKeys := do
    let document ← (Json.get capabilities "document").bind Json.asObject
    let hotspot ← (Json.get document "hotspot").bind Json.asObject
    let keyed ← (Json.get hotspot "interface").bind Json.asObject
    pure (keyed.map Prod.fst)

/-- How a radio runs an access point beside a client. -/
def alongside (radios : Radios) (radio : String) : Option String :=
  (radios.all.find? fun entry => entry.1 == radio).bind Prod.snd

/-- The radios a wireless candidate may use. -/
def forCandidate (radios : Radios) (interface : Option String) : List String :=
  (radios.all.map Prod.fst).filter fun name => interface.all fun named => named == name

/-- The radios the hotspot may run on. -/
def hotspot (radios : Radios) (hotspot : Json.Map φ) : List String :=
  match named hotspot with
  | some name => [name]
  | none =>
      match radios.hotspotKeys with
      | some keys => keys
      | none => (radios.all.filter fun entry => entry.2.isSome).map Prod.fst

end Radios

/-! ## The rules -/

/-- Refuse a document whose enabled hotspot and an enabled wireless candidate
could be carried only by one radio running one at a time. -/
def placement (document capabilities : Json.Map φ) : Except Invalid Unit :=
  match enabledHotspot document with
  | none => .ok ()
  | some hotspot =>
      let radios := Radios.of capabilities
      match radios.hotspot hotspot with
      | [] => .ok ()
      | first :: others =>
          if radios.all.isEmpty then .ok ()
          else
            (wireless document).forM fun candidate =>
              let apart := (radios.forCandidate candidate.interface).any fun station =>
                (first :: others).any fun ap =>
                  ap != station || radios.alongside ap != some oneAtATime
              if apart then .ok ()
              else
                let segments : List Segment :=
                  if (named hotspot).isSome then [.name "hotspot", .name "interface"]
                  else [.name "hotspot"]
                .error (invalid segments ("the hotspot and " ++ Text.debug candidate.label ++
                  " could only run on " ++ first ++ ", which cannot run both at once"))

/-- The radios the hotspot may run on, split by whether it chooses its own
channel there. -/
structure ChannelChoice where
  own : List String
  follows : List String

/-- Where a document's hotspot may choose its own channel, and where it would
follow a client's. -/
def channelChoice (document capabilities : Json.Map φ) : ChannelChoice :=
  let hotspot := ((Json.get document "hotspot").bind Json.asObject).getD []
  let radios := Radios.of capabilities
  let shared (radio : String) : Bool :=
    radios.alongside radio == some sharedChannel &&
      (wireless document).any fun candidate => candidate.interface.all fun named => named == radio
  { own := (radios.hotspot hotspot).filter fun radio => !shared radio
    follows := (radios.hotspot hotspot).filter shared }

/-- Refuse a document whose enabled hotspot chooses its channel where every radio
it could run on is a shared-channel one a wireless candidate could be carried
by. -/
def ownChannel (document capabilities : Json.Map φ) : Except Invalid Unit :=
  match enabledHotspot document with
  | none => .ok ()
  | some hotspot =>
      match channelMembers.find? fun member =>
        (Json.get hotspot member).any fun value => !value.isNull with
      | none => .ok ()
      | some member =>
          let choice := channelChoice document capabilities
          let fault (reason : String) : Except Invalid Unit :=
            .error (invalid [.name "hotspot", .name member] reason)
          match choice.follows with
          | [] => .ok ()
          | first :: _ =>
              if choice.own.isEmpty then
                fault ("the hotspot runs on the channel of the wireless client " ++ first ++
                  " carries")
              else if (named hotspot).isSome then .ok ()
              else if (Radios.of capabilities).hotspotKeys.isNone then .ok ()
              else
                let mirror := ((Json.get capabilities "document").bind Json.asObject).getD []
                -- Unpinned, the hotspot must be able to run with its settings on
                -- a radio choosing its own.
                let admitted := choice.own.any fun radio =>
                  match check [("hotspot",
                    .object (Json.insert hotspot "interface" (.string radio)))] mirror with
                  | .ok () => true
                  | .error _ => false
                if admitted then .ok ()
                else fault ("the hotspot chooses its own channel only on " ++
                  ", ".intercalate choice.own ++ ", which does not offer this")

/-! ## The whole check -/

/-- The rule a document broke. -/
inductive Rule where
  | mirror
  | oneAtATime
  | sharedChannel
deriving DecidableEq, Repr

/-- A document a device's capabilities do not admit. -/
structure Refused where
  rule : Rule
  invalid : Invalid
deriving DecidableEq, Repr

/-- A rule's answer, with the rule. -/
def refusedBy (rule : Rule) : Except Invalid Unit → Except Refused Unit
  | .ok () => .ok ()
  | .error invalid => .error { rule := rule, invalid := invalid }

/-- Check a document against a device's whole capabilities. -/
def admits (document capabilities : Json.Map φ) : Except Refused Unit := do
  let mirror := ((Json.get capabilities "document").bind Json.asObject).getD []
  refusedBy .mirror (check document mirror)
  refusedBy .oneAtATime (placement document capabilities)
  refusedBy .sharedChannel (ownChannel document capabilities)

end Bliti.Channel.Capabilities
