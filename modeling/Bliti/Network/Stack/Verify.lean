import Bliti.Network.Observe

/-!
# The network stack - verifying one attempt

What verifying one attempt looks for at each stage, from what is observed of its
link.  Time and the asking are the driver's; here stand the addresses and
default routes of each link, and what of them is an attempt's.
-/

namespace Bliti.Network.Stack

open Std (ExtTreeMap ExtTreeSet)
open Channel.Config Select

variable {φ : Type}

/-! ## Links -/

/-- Each link's addresses, each with whether it has a lifetime, and its default
gateways. -/
structure Links where
  addresses : ExtTreeMap String (ExtTreeMap IpAddr Bool)
  gateways : ExtTreeMap String (ExtTreeSet IpAddr)

namespace Links

/-- Nothing observed. -/
def empty : Links where
  addresses := ∅
  gateways := ∅

/-- The addresses of a link. -/
def addressesOf (links : Links) (interface : String) : ExtTreeMap IpAddr Bool :=
  links.addresses[interface]?.getD ∅

/-- The default gateways of a link. -/
def gatewaysOf (links : Links) (interface : String) : ExtTreeSet IpAddr :=
  links.gateways[interface]?.getD ∅

/-- Take in an address or route observation, with the interface it concerns.
Anything else is not taken. -/
def observe (links : Links) : Observation → Links × Option String
  | .address interface address dynamic present =>
      let held := links.addressesOf interface
      let held := if present then held.insert address dynamic else held.erase address
      ({ links with addresses := links.addresses.insert interface held }, some interface)
  | .route interface gateway present =>
      let held := links.gatewaysOf interface
      let held := if present then held.insert gateway else held.erase gateway
      ({ links with gateways := links.gateways.insert interface held }, some interface)
  | _ => (links, none)

/-- Everything a link holds, addresses and gateways both. -/
def held (links : Links) (interface : String) : ExtTreeSet IpAddr :=
  .ofList ((links.addressesOf interface).keys ++ (links.gatewaysOf interface).toList)

end Links

/-! ## Checks -/

/-- How the text of addresses is read, a configured one with its network's
length. -/
structure Reading where
  network : String → Option IpAddr
  address : String → Option IpAddr

/-- How a candidate is addressed. -/
inductive Addressing where
  | dynamic
  | static (addresses : List IpAddr) (gateway : Option IpAddr)
deriving DecidableEq

/-- How a candidate is addressed. -/
def Addressing.of (reading : Reading) (attachment : Attachment φ) : Addressing :=
  match attachment.kind with
  | .wiredStatic _ addresses gateway =>
      .static (addresses.filterMap reading.network) (reading.address gateway)
  | .wireless _ | .wiredDynamic _ => .dynamic

/-- The network a wireless candidate joins, and whether it has to be joined by
SAE. -/
structure Joining where
  target : Target
  sae : Bool
deriving DecidableEq, Repr

/-- What a candidate joins, where it is a wireless one. -/
def Joining.of (attachment : Attachment φ) : Option Joining :=
  match attachment.kind with
  | .wireless wireless =>
      some {
        target := {
          ssid := wireless.ssid
          kind :=
            match wireless.security with
            | .enterprise _ => .enterprise
            | _ => .psk
          hidden := wireless.hidden == some true }
        sae :=
          match wireless.security with
          | .sae _ => true
          | _ => false }
  | _ => none

/-- One attempt being verified, or established and watched for stopping. -/
structure Check where
  attempt : Attempt
  candidate : Nat
  interface : String
  joining : Option Joining
  addressing : Addressing
  atStage : Option Stage
  armed : Bool
  awaitingScan : Bool
  stale : ExtTreeSet IpAddr
  probing : Bool
  timer : Nat

namespace Check

/-- A check on an attempt at a candidate on an interface, waiting at a stage. -/
def new (reading : Reading) (attempt : Attempt) (candidate : Nat) (attachment : Attachment φ)
    (interface : String) (atStage : Stage) (stale : ExtTreeSet IpAddr) : Check where
  attempt := attempt
  candidate := candidate
  interface := interface
  joining := Joining.of attachment
  addressing := Addressing.of reading attachment
  atStage := some atStage
  armed := false
  awaitingScan := false
  stale := stale
  probing := false
  timer := 0

/-- Take in that the link announced an address or a gateway again. -/
def announced (check : Check) : Observation → Check
  | .address _ address _ true => { check with stale := check.stale.erase address }
  | .route _ gateway true => { check with stale := check.stale.erase gateway }
  | _ => check

/-- The addresses the link holds that pass this candidate's addressing stage. -/
def held (check : Check) (links : Links) : List IpAddr :=
  ((links.addressesOf check.interface).toList.filter fun (address, dynamic) =>
    match check.addressing with
    | .dynamic => dynamic && !check.stale.contains address
    | .static addresses _ => addresses.contains address).map Prod.fst

/-- The address to ask a gateway from, and the gateway. -/
def askedFrom (held : List IpAddr) (gateway : IpAddr) : Option (IpAddr × IpAddr) :=
  (held.find? fun address => isIpv6 address == isIpv6 gateway).map fun source =>
    (source, gateway)

/-- The gateway to ask and the address to ask it from: a configured gateway, or
else a default route's, preferring the older family. -/
def gateway (check : Check) (links : Links) : Option (IpAddr × IpAddr) :=
  let held := check.held links
  match check.addressing with
  | .static _ gateway => gateway.bind (askedFrom held)
  | .dynamic =>
      let fresh := (links.gatewaysOf check.interface).toList.filter fun gateway =>
        !check.stale.contains gateway
      let ordered := (fresh.filter fun gateway => !isIpv6 gateway) ++ fresh.filter isIpv6
      ordered.findSome? (askedFrom held)

end Check

end Bliti.Network.Stack
