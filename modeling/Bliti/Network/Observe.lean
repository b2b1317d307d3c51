import Bliti.Network.Select.Types

/-!
# Observing - what the running system says

Observations of links, radios and stations, as the kernel and the wireless
client announce them.
-/

namespace Bliti.Network

open Std (ExtTreeMap)

/-- An address: whether it is of the newer family, and its bits.  They are
ordered as the language orders them, the older family first. -/
abbrev IpAddr := Bool ×ₗ Nat

/-- Whether an address is of the newer family. -/
def isIpv6 (address : IpAddr) : Bool :=
  (ofLex address).1

/-- A network a wireless client is joined to. -/
structure Joined where
  ssid : String
  frequency : Option Nat
  security : Option String
deriving DecidableEq, Repr

/-- Whether a client joined by SAE. -/
def Joined.bySae (joined : Joined) : Bool :=
  joined.security.any fun security => "WPA3-Personal".toList.isPrefixOf security.toList

/-- Where a wireless client stands. -/
inductive Station where
  | disconnected
  | busy
  | connected (joined : Joined)
deriving DecidableEq, Repr

/-- What a network's type is called. -/
inductive NetworkType where
  | psk
  | enterprise
deriving DecidableEq, Repr

/-- A network to join. -/
structure Target where
  ssid : String
  kind : NetworkType
  hidden : Bool
deriving DecidableEq, Repr

/-- Something the running system said. -/
inductive Observation where
  | carrier (interface : String) (up : Bool)
  | address (interface : String) (address : IpAddr) (dynamic present : Bool)
  | route (interface : String) (gateway : IpAddr) (present : Bool)
  | heard (interface : String) (networks : ExtTreeMap String Int) (scanned : Bool)
  | station (interface : String) (station : Station)
  | regulatory

end Bliti.Network
