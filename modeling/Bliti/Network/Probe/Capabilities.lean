import Bliti.Json
import Bliti.Network.Probe.Hardware
import Bliti.Network.Render.Hostapd

/-!
# Probing - the capabilities of the radios

The capabilities object, built from the probed radios, the wired interfaces and
what the stack above them offers.  Everything that differs by radio is keyed under
`interface`, a hotspot's channels under `band` and every kind under `kind`.
-/

namespace Bliti.Network.Probe

open Channel.Config
open Select (Alongside)

variable {φ : Type}

/-- How an access point runs beside a client, as capabilities say it. -/
def alongsideStr : Alongside → String
  | .independent => "independent"
  | .sharedChannel => "shared-channel"
  | .oneAtATime => "one-at-a-time"

/-- What the stack above the radios offers, whatever radio it runs on. -/
structure Backend where
  eap : List String
  hotspot : Band → Option (List Nat)

/-- iwd as the wireless client, and hostapd as rendered for the hotspot. -/
def Backend.stack : Backend where
  eap := ["peap", "ttls", "tls", "pwd"]
  hotspot
    | .twoPointFour => some [20, 40]
    | .five => some [20, 40, 80]
    | .six => none

/-- A list of texts. -/
def texts (items : List String) : Json φ :=
  .array (items.map Json.string)

/-- A list of numbers. -/
def numbers (items : List Nat) : Json φ :=
  .array (items.map fun (n : Nat) => .number (.int n))

/-! ## The hotspot -/

/-- The bands, in order. -/
def allBands : List Band :=
  [.twoPointFour, .five, .six]

/-- The channels of a band a hotspot may be put on: those an access point can start on and
that render. -/
def offeredChannels (band : Band) (info : BandInfo) : List Channel :=
  (info.channels.filter Channel.canStartAp).filter fun channel =>
    Render.hotspotChannel band.asStr channel.number

/-- The widths of a band a hotspot may be run at: those the stack carries and some channel
it may be put on permits. -/
def offeredWidths (band : Band) (info : BandInfo) (carried : List Nat) : List Nat :=
  (info.widths.filter fun width => carried.contains width).filter fun width =>
    (offeredChannels band info).any fun channel => width ≤ channel.maxWidth

/-- What a hotspot on a band of a radio may carry, where it may be put on any of its
channels. -/
def hotspotBand (radio : RadioInfo) (backend : Backend) (band : Band) :
    Option (String × Json φ) := do
  let info ← radio.band band
  let carried ← backend.hotspot band
  if (offeredChannels band info).isEmpty then none
  else
    some (band.asStr, .object [
      ("channel", numbers ((offeredChannels band info).map Channel.number)),
      ("channel-width", numbers (offeredWidths band info carried))])

/-- What a hotspot on a radio may carry, where the radio can run one. -/
def hotspot (radio : RadioInfo) (backend : Backend) : Option (Json.Map φ) := do
  let alongside ← radio.alongside
  let bands := Json.collect (allBands.filterMap (hotspotBand radio backend))
  if !bands.isEmpty then some [("band", .object bands)]
  else if alongside = .sharedChannel then some []
  else none

/-- A band the hotspot is rendered on. -/
def bandOf : Render.Band → Band
  | .twoPointFour => .twoPointFour
  | .five => .five

/-- Whether an access point can start on every one of some channels of a band. -/
def startable (radio : RadioInfo) (band : Render.Band) (span : List Nat) : Bool :=
  let channels := ((radio.band (bandOf band)).map BandInfo.channels).getD []
  span.all fun number => channels.any fun c => c.number == number && c.canStartAp

/-- Refuse a hotspot whose chosen channel cannot carry its chosen width on any radio it
could run on. -/
def hotspotFits (radios : List RadioInfo) (hotspot : Hotspot) : Except Invalid Unit :=
  match hotspot.channel, hotspot.channelWidth with
  | some channel, some width =>
      let refused (reason : String) : Except Invalid Unit :=
        .error {
          atPath := path [.name "hotspot", .name "channel-width"]
          reason := reason }
      let band := hotspot.band.getD (if channel ≤ 14 then "2ghz" else "5ghz")
      match Render.hotspotSpan band channel width with
      | none => refused ("channel " ++ toString channel ++ " cannot be widened to " ++
          toString width ++ " MHz")
      | some (band, span) =>
          let able := (radios.filter fun radio => radio.alongside.isSome).filter fun radio =>
            hotspot.interface.all fun interface => interface == radio.station
          if able.any fun radio => startable radio band span then .ok ()
          else refused ("at " ++ toString width ++ " MHz, channel " ++ toString channel ++
            " spans channels " ++ ", ".intercalate (span.map toString) ++
            " and an access point cannot start on all of them")
  | _, _ => .ok ()

/-! ## The document -/

/-- The security kinds a candidate on a radio may carry. -/
def security (radio : RadioInfo) (backend : Backend) : Json.Map φ :=
  Json.collect (
    [("psk", .object [])] ++
    (if radio.sae then [("sae", .object []), ("psk-sae", .object [])] else []) ++
    if backend.eap.isEmpty then [] else [("enterprise", .object [("eap", texts backend.eap)])])

/-- The kinds of candidate, with what each may carry. -/
def kinds (radios : List RadioInfo) (wired : List String) (backend : Backend) : Json.Map φ :=
  let interfaces := Json.collect (radios.map fun radio =>
    (radio.station, .object [
      ("hidden", .bool true),
      ("security", .object [("kind", .object (security radio backend))])]))
  let onWire : Json φ := .object [("interface", texts wired), ("nameservers", .bool true)]
  Json.collect (
    (if radios.isEmpty then []
      else [("wireless", .object [("interface", .object interfaces), ("nameservers", .bool true)])])
      ++ if wired.isEmpty then [] else [("wired-dynamic", onWire), ("wired-static", onWire)])

/-- What a hotspot may carry on each radio that can run one. -/
def hotspots (radios : List RadioInfo) (backend : Backend) : List (String × Json φ) :=
  radios.filterMap fun radio =>
    (hotspot radio backend).map fun offered => (radio.station, .object offered)

/-- What the hotspot of a document may carry. -/
def hotspotConstraints (radios : List RadioInfo) (backend : Backend) : Json.Map φ :=
  [("dhcp-range", .bool true),
    ("interface", .object (Json.collect (hotspots radios backend))),
    ("isolate-clients", .bool true),
    ("share-upstream", .bool true)]

/-- What a document may carry. -/
def document (radios : List RadioInfo) (wired : List String) (backend : Backend) :
    Json.Map φ :=
  [("attachments", .object [("kind", .object (kinds radios wired backend))])] ++
    (if (hotspots (φ := φ) radios backend).isEmpty then []
      else [("hotspot", .object (hotspotConstraints radios backend))]) ++
    if radios.isEmpty then [] else [("regulatory-domain", .bool true)]

/-! ## The capabilities -/

/-- What a radio is. -/
def describe (radio : RadioInfo) : Json.Map φ :=
  Json.collect (
    [("model", .string radio.model),
      ("bands", texts ((allBands.filter fun band => (radio.band band).isSome).map Band.asStr))] ++
    match radio.alongside with
    | none => []
    | some alongside => [("alongside", .string (alongsideStr alongside))])

/-- An act the radios that offer it may be asked for. -/
def act (radios : List RadioInfo) (name : String) (offers : RadioInfo → Bool) :
    List (String × Json φ) :=
  let interfaces := (radios.filter offers).map fun radio => (radio.station, .object [])
  if interfaces.isEmpty then []
  else [(name, .object [("interface", .object (Json.collect interfaces))])]

/-- What may be asked of the radios. -/
def acts (radios : List RadioInfo) : Json.Map φ :=
  act radios "scan" RadioInfo.scan ++ act radios "survey" RadioInfo.survey

/-- What a device offers. -/
def capabilities (radios : List RadioInfo) (wired : List String) (backend : Backend) :
    Json.Map φ :=
  Json.collect (
    [("document", .object (document radios wired backend))] ++
    (if radios.isEmpty then []
      else [("radios", .object (Json.collect (radios.map fun radio =>
        (radio.station, .object (describe radio)))))]) ++
    [("acts", .object (acts radios))])

end Bliti.Network.Probe
