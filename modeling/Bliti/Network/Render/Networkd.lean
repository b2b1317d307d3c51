import Bliti.Library.Fallible
import Bliti.Network.Address
import Bliti.Network.Render.Regdom

/-!
# Rendering - addressing

systemd-networkd's files: addressing, routes and resolvers for each candidate,
and the hotspot's address and the addresses it hands out.
-/

namespace Bliti.Network.Render

open Channel.Config

variable {φ : Type}

/-! ## Networks -/

/-- An address with its network's length. -/
structure IpNet where
  addr : IpAddr
  prefixLen : Nat
deriving DecidableEq

/-- An address with its network's length, as it is written. -/
def IpNet.display (net : IpNet) : String :=
  net.addr.display ++ "/" ++ toString net.prefixLen

/-- An address of the older family with its network's length. -/
structure Ipv4Net where
  addr : Nat
  prefixLen : Nat
  addr_lt : addr < 4294967296
  prefixLen_le : prefixLen ≤ 32
deriving DecidableEq

namespace Ipv4Net

/-- The address of the network itself. -/
def network (net : Ipv4Net) : Nat :=
  net.addr / 2 ^ (32 - net.prefixLen) * 2 ^ (32 - net.prefixLen)

/-- A network's own address is no higher than the ones on it. -/
theorem network_le (net : Ipv4Net) : net.network ≤ net.addr :=
  Nat.div_mul_le_self _ _

/-- The network by its own address. -/
def trunc (net : Ipv4Net) : Ipv4Net where
  addr := net.network
  prefixLen := net.prefixLen
  addr_lt := Nat.lt_of_le_of_lt net.network_le net.addr_lt
  prefixLen_le := net.prefixLen_le

/-- The address after a network's own, on that network. -/
def first (net : Ipv4Net) : Ipv4Net where
  addr := min (net.network + 1) 4294967295
  prefixLen := net.prefixLen
  addr_lt := by omega
  prefixLen_le := net.prefixLen_le

/-- The network as it is written. -/
def display (net : Ipv4Net) : String :=
  Address.displayIpv4 net.addr ++ "/" ++ toString net.prefixLen

end Ipv4Net

/-- How the text of a network is read, which is done outside the program. -/
structure Subnets where
  ipNet : String → Option IpNet
  ipv4Net : String → Option Ipv4Net

namespace Networkd

/-! ## Candidates -/

/-- The metric of the highest-ranked candidate's routes. -/
def METRIC_BASE : Nat := 100

/-- How long a wireless link rides out losing carrier. -/
def ROAMING_GRACE : String := "3s"

/-- The route metric of the candidate at a rank. -/
def metric (rank : Nat) : Nat :=
  min (METRIC_BASE + min rank 4294967295) 4294967295

/-- Where the file of a link is. -/
def path (paths : Paths) (interface : String) : Path :=
  paths.networkd.join (PREFIX ++ interface ++ ".network")

/-- A wired interface is one the device has. -/
def wired (interface : String) (rank : Nat) (hardware : Hardware) : Except Invalid Unit :=
  if hardware.wired.contains interface then .ok ()
  else .error (invalidIn rank [.name "interface"]
    ("this device has no wired interface " ++ Text.debug interface))

/-- Texts read in order, or the fault of the first that cannot be. -/
def readAll {α : Type} (read : String → Option α) (fault : Nat → String → Invalid)
    (texts : List String) : Except Invalid (List α) :=
  texts.zipIdx.mapM fun (text, i) =>
    match read text with
    | some value => .ok value
    | none => .error (fault i text)

/-- The resolvers of a candidate. -/
def nameservers (attachment : Attachment φ) (rank : Nat) : Except Invalid (List IpAddr) :=
  readAll IpAddr.fromStr (fun i server =>
    invalidIn rank [.name "nameservers", .index i] (Text.debug server ++ " is not an address"))
    attachment.nameservers

/-- The delegate that carries a dynamic link's own resolvers. -/
def delegate (origin interface : String) (nameservers : List IpAddr) (paths : Paths) : File where
  path := paths.resolved.join (PREFIX ++ interface ++ ".dns-delegate")
  contents := header origin ++ "\n[Delegate]\n" ++
    String.join (nameservers.map fun server =>
      "DNS=" ++ server.display ++ "%" ++ interface ++ "\n") ++
    "Domains=~.\nDefaultRoute=yes\n"
  mode := PUBLIC

/-- A link addressed by DHCP and by router advertisement. -/
def dynamic (origin interface : String) (rank : Nat) (nameservers : List IpAddr)
    (wireless : Bool) : String :=
  header origin ++ "\n[Match]\nName=" ++ interface ++
    "\n\n[Network]\nDHCP=ipv4\nIPv6AcceptRA=yes\n" ++
    (if wireless then "IgnoreCarrierLoss=" ++ ROAMING_GRACE ++ "\n" else "") ++
    "DNSDefaultRoute=" ++ (if nameservers.isEmpty then "yes" else "no") ++ "\n" ++
    "\n[DHCPv4]\nUseDNS=yes\nUseDomains=route\nRouteMetric=" ++ toString (metric rank) ++
    "\n\n[DHCPv6]\nUseDNS=yes\nUseDomains=route\n" ++
    "\n[IPv6AcceptRA]\nUseDNS=yes\nUseDomains=route\nRouteMetric=" ++ toString (metric rank) ++
    "\n"

/-- A link with addresses and a gateway of its own. -/
def fixed (origin interface : String) (rank : Nat) (nameservers : List IpAddr)
    (addresses : List IpNet) (gateway : IpAddr) : String :=
  header origin ++ "\n[Match]\nName=" ++ interface ++
    "\n\n[Network]\nDHCP=no\nIPv6AcceptRA=no\n" ++
    String.join (addresses.map fun address => "Address=" ++ address.display ++ "\n") ++
    String.join (nameservers.map fun server => "DNS=" ++ server.display ++ "\n") ++
    "\n[Route]\nGateway=" ++ gateway.display ++ "\nMetric=" ++ toString (metric rank) ++ "\n"

/-- The files of a dynamic link: its own, and the delegate of the resolvers it names. -/
def dynamicFiles (rank : Nat) (interface : String) (nameservers : List IpAddr)
    (wireless : Bool) (paths : Paths) : List File :=
  let origin := candidatePath rank
  { path := path paths interface
    contents := dynamic origin interface rank nameservers wireless
    mode := PUBLIC } ::
  if nameservers.isEmpty then [] else [delegate origin interface nameservers paths]

/-- The files a candidate brings up on its interface, a wireless one on the radio of a
station. -/
def candidate (subnets : Subnets) (attachment : Attachment φ) (rank : Nat)
    (station : Option String) (hardware : Hardware) : Except Invalid (List File) := do
  let nameservers ← nameservers attachment rank
  match attachment.kind with
  | .wireless _ =>
      match station with
      | none => .error (invalidIn rank [] "this device has no wireless client")
      | some station => pure (dynamicFiles rank station nameservers true hardware.paths)
  | .wiredDynamic interface =>
      wired interface rank hardware
      pure (dynamicFiles rank interface nameservers false hardware.paths)
  | .wiredStatic interface addresses gateway =>
      wired interface rank hardware
      let addresses ← readAll subnets.ipNet (fun i address =>
        invalidIn rank [.name "addresses", .index i]
          (Text.debug address ++ " is not an address with its prefix length")) addresses
      match IpAddr.fromStr gateway with
      | none =>
          .error (invalidIn rank [.name "gateway"] (Text.debug gateway ++ " is not an address"))
      | some gateway =>
          pure [{
            path := path hardware.paths interface
            contents := fixed (candidatePath rank) interface rank nameservers addresses gateway
            mode := PUBLIC }]

/-- A wireless candidate that renders on one radio renders on any. -/
theorem candidate_of_checked {subnets : Subnets} {attachment : Attachment φ}
    {wireless : Wireless φ} (hkind : attachment.kind = .wireless wireless) {rank : Nat}
    {station : Option String} {hardware : Hardware} {files : List File}
    (hchecked : candidate subnets attachment rank station hardware = .ok files)
    (other : String) :
    ∃ files, candidate subnets attachment rank (some other) hardware = .ok files := by
  unfold candidate at hchecked ⊢
  obtain ⟨servers, hservers, -⟩ := Fallible.bind_ok.mp hchecked
  rw [hservers, hkind]
  exact ⟨_, rfl⟩

/-- A wired interface whose candidates are none of them up: its carrier is seen, and it is
configured with nothing. -/
def idle (interface : String) (paths : Paths) : File where
  path := path paths interface
  contents := header (Channel.Config.path [.name "attachments"]) ++
    "\n[Match]\nName=" ++ interface ++ "\n\n[Link]\nRequiredForOnline=no\n" ++
    "\n[Network]\nDHCP=no\nIPv6AcceptRA=no\nLinkLocalAddressing=no\n"
  mode := PUBLIC

/-! ## The hotspot -/

/-- The range a hotspot hands out where the document sets none. -/
def DEFAULT_DHCP_RANGE : String := "10.41.0.0/24"

/-- The addresses a hotspot hands out, beside the device's own. -/
structure Pool where
  server : Ipv4Net
  offset : UInt32
  size : UInt32
deriving DecidableEq

/-- The addresses of a range.  The count wraps, as the device's build has it. -/
def dhcpRange (subnets : Subnets) (range : String) : Except String Pool :=
  match subnets.ipv4Net range with
  | none => .error (Text.debug range ++ " is not an IPv4 subnet such as " ++
      Text.debug DEFAULT_DHCP_RANGE)
  | some subnet =>
      if subnet.addr ≠ subnet.network then
        .error (Text.debug range ++ " is not a subnet address; the subnet is " ++
          subnet.trunc.display)
      else if 30 < subnet.prefixLen then
        .error (Text.debug range ++ " leaves no address to hand out beside the device's own")
      else
        let hosts := ((1 : UInt32) <<< UInt32.ofNat (32 - subnet.prefixLen)) - 2
        .ok { server := subnet.first, offset := 2, size := hosts - 1 }

/-- The hotspot's interface: the device's address, the addresses it hands out, and whether
it shares the device's own network. -/
def hotspot (subnets : Subnets) (hotspot : Hotspot) (interface : String) (paths : Paths) :
    Except Invalid File :=
  match dhcpRange subnets (hotspot.dhcpRange.getD DEFAULT_DHCP_RANGE) with
  | .error reason => .error (invalid [.name "hotspot", .name "dhcp-range"] reason)
  | .ok pool =>
      let share := hotspot.shareUpstream.getD true
      let yesNo := if share then "yes" else "no"
      .ok {
        path := path paths interface
        contents := header "the hotspot" ++ "\n[Match]\nName=" ++ interface ++
          "\n\n[Network]\nAddress=" ++ pool.server.display ++
          "\nDHCPServer=yes\nIPMasquerade=" ++ (if share then "ipv4" else "no") ++
          "\nIPv4Forwarding=" ++ yesNo ++ "\nIPv6AcceptRA=no\n" ++
          "\n[DHCPServer]\nPoolOffset=" ++ toString pool.offset.toNat ++
          "\nPoolSize=" ++ toString pool.size.toNat ++
          "\nEmitRouter=" ++ yesNo ++ "\nEmitDNS=" ++ yesNo ++ "\n"
        mode := PUBLIC }

/-- A hotspot that is addressed on one interface is on any. -/
theorem hotspot_of_checked {subnets : Subnets} {spot : Hotspot} {interface : String}
    {paths : Paths} {file : File} (hchecked : hotspot subnets spot interface paths = .ok file)
    (other : String) : ∃ file, hotspot subnets spot other paths = .ok file := by
  unfold hotspot at hchecked ⊢
  split at hchecked
  · cases hchecked
  · exact ⟨_, rfl⟩

end Networkd

end Bliti.Network.Render
