import Bliti.Library.Checked
import Bliti.Network.Render.Networkd

/-!
# Rendering - the addresses a hotspot hands out

The device takes the first host of the hotspot's subnet and leases the rest.  The subnet of every
address is the one whose hosts do not count.

Main results:

- Theorem `leasesRest_iff`: a range leases the rest exactly where it does not name every address.
-/

namespace Bliti.Network.Render

namespace Ipv4Net

/-- The last address of a network. -/
def broadcast (net : Ipv4Net) : Nat :=
  net.network + (2 ^ (32 - net.prefixLen) - 1)

/-- An address a host of a network may take: neither the network's own nor its broadcast. -/
def Host (net : Ipv4Net) (addr : Nat) : Prop :=
  net.network < addr ∧ addr < net.broadcast

end Ipv4Net

namespace Networkd

/-! ## A build that checks its arithmetic -/

/-- How many addresses a subnet leases, where no step of counting them overflows. -/
def checkedSize (subnet : Ipv4Net) : Option UInt32 := do
  let addresses ← Checked.shl 1 (32 - subnet.prefixLen)
  let hosts ← Checked.sub addresses 2
  Checked.sub hosts 1

/-- The addresses of a range, in a build that panics where a step of its arithmetic overflows. -/
def checkedRange (subnets : Subnets) (range : String) : Option (Except String Pool) :=
  match subnets.ipv4Net range with
  | none => some (.error (Text.debug range ++ " is not an IPv4 subnet such as " ++
      Text.debug DEFAULT_DHCP_RANGE))
  | some subnet =>
      if subnet.addr ≠ subnet.network then
        some (.error (Text.debug range ++ " is not a subnet address; the subnet is " ++
          subnet.trunc.display))
      else if 30 < subnet.prefixLen then
        some (.error (Text.debug range ++ " leaves no address to hand out beside the device's own"))
      else
        (checkedSize subnet).map fun size => .ok { server := subnet.first, offset := 2, size := size }

/-! ## What is leased -/

/-- An address is leased: one of so many from the offset on. -/
def Pool.Leased (pool : Pool) (subnet : Ipv4Net) (addr : Nat) : Prop :=
  ∃ k < pool.size.toNat, addr = subnet.network + pool.offset.toNat + k

/-- A range is accepted or refused, never a panic; and where it is accepted, the server takes the
first host of its subnet and leases the others, and no others. -/
structure LeasesRest (subnets : Subnets) (range : String) : Prop where
  returns : ∃ result, checkedRange subnets range = some result
  first : ∀ subnet pool, subnets.ipv4Net range = some subnet →
    checkedRange subnets range = some (.ok pool) → subnet.Host pool.server.addr ∧
      (∀ addr, subnet.Host addr → pool.server.addr ≤ addr) ∧
      pool.server.prefixLen = subnet.prefixLen
  rest : ∀ subnet pool, subnets.ipv4Net range = some subnet →
    checkedRange subnets range = some (.ok pool) →
      ∀ addr, pool.Leased subnet addr ↔ subnet.Host addr ∧ addr ≠ pool.server.addr

variable {subnets : Subnets} {range : String} {subnet : Ipv4Net}

/-- A subnet of at most thirty bits, and of some, counts its leases: its addresses but three. -/
theorem checkedSize_eq (hsome : subnet.prefixLen ≠ 0) (hfew : subnet.prefixLen ≤ 30) :
    ∃ size, checkedSize subnet = some size ∧ size.toNat = 2 ^ (32 - subnet.prefixLen) - 3 := by
  have hbits : 32 - subnet.prefixLen < 32 := by omega
  have hfour : 2 ^ 2 ≤ 2 ^ (32 - subnet.prefixLen) := Nat.pow_le_pow_right (by decide) (by omega)
  set addresses := (1 : UInt32) <<< UInt32.ofNat (32 - subnet.prefixLen) with haddresses
  have hcount : addresses.toNat = 2 ^ (32 - subnet.prefixLen) := Checked.toNat_one_shl hbits
  have htwo : (2 : UInt32).toNat = 2 := rfl
  have hone : (1 : UInt32).toNat = 1 := rfl
  obtain ⟨hless, hhosts⟩ : Checked.sub addresses 2 = some (addresses - 2) ∧ _ :=
    Checked.sub_of_le (by omega)
  obtain ⟨hlast, hsize⟩ : Checked.sub (addresses - 2) 1 = some (addresses - 2 - 1) ∧ _ :=
    Checked.sub_of_le (by omega)
  refine ⟨addresses - 2 - 1, ?_, by omega⟩
  rw [checkedSize, Checked.shl, if_pos hbits, ← haddresses]
  simp only [Option.bind_eq_bind, Option.bind_some, hless, hlast]

theorem checkedSize_zero (hnone : subnet.prefixLen = 0) : checkedSize subnet = none := by
  rw [checkedSize, hnone]
  rfl

/-- A count that is checked is the one every build has. -/
theorem checkedSize_some {size : UInt32} (hsize : checkedSize subnet = some size) :
    size = ((1 : UInt32) <<< UInt32.ofNat (32 - subnet.prefixLen)) - 2 - 1 := by
  unfold checkedSize at hsize
  obtain ⟨addresses, hshift, hrest⟩ := Option.bind_eq_some_iff.mp hsize
  obtain ⟨hosts, hless, hlast⟩ := Option.bind_eq_some_iff.mp hrest
  rw [Checked.sub_eq_some hlast, Checked.sub_eq_some hless, Checked.shl_eq_some hshift]

/-- What a checked build computes, every build does. -/
theorem dhcpRange_of_checked {result : Except String Pool}
    (hchecked : checkedRange subnets range = some result) : dhcpRange subnets range = result := by
  unfold checkedRange at hchecked
  unfold dhcpRange
  cases hread : subnets.ipv4Net range with
  | none =>
      rw [hread] at hchecked
      exact Option.some.inj hchecked
  | some subnet =>
      rw [hread] at hchecked
      dsimp only at hchecked ⊢
      split_ifs at hchecked ⊢
      · exact Option.some.inj hchecked
      · exact Option.some.inj hchecked
      · obtain ⟨size, hsize, rfl⟩ := Option.map_eq_some_iff.mp hchecked
        rw [checkedSize_some hsize]

/-- A range is accepted in a checked build where it is its subnet's own address, of at most thirty
bits, and its leases are counted. -/
theorem checkedRange_ok {pool : Pool} (hread : subnets.ipv4Net range = some subnet)
    (hchecked : checkedRange subnets range = some (.ok pool)) :
    subnet.prefixLen ≤ 30 ∧ ∃ size, checkedSize subnet = some size ∧
      pool = { server := subnet.first, offset := 2, size := size } := by
  unfold checkedRange at hchecked
  rw [hread] at hchecked
  dsimp only at hchecked
  split_ifs at hchecked with hown hfew
  · cases hchecked
  · cases hchecked
  · obtain ⟨size, hsize, hpool⟩ := Option.map_eq_some_iff.mp hchecked
    exact ⟨Nat.le_of_not_lt hfew, size, hsize, (Except.ok.inj hpool).symm⟩

/-- A subnet ends within the addresses there are. -/
theorem network_add_le (subnet : Ipv4Net) :
    subnet.network + 2 ^ (32 - subnet.prefixLen) ≤ 4294967296 := by
  have hsplit : 2 ^ subnet.prefixLen * 2 ^ (32 - subnet.prefixLen) = 4294967296 := by
    rw [← Nat.pow_add, Nat.add_sub_cancel' subnet.prefixLen_le]
  have hless : subnet.addr / 2 ^ (32 - subnet.prefixLen) < 2 ^ subnet.prefixLen := by
    apply Nat.div_lt_of_lt_mul
    rw [Nat.mul_comm, hsplit]
    exact subnet.addr_lt
  calc subnet.network + 2 ^ (32 - subnet.prefixLen)
      = (subnet.addr / 2 ^ (32 - subnet.prefixLen) + 1) * 2 ^ (32 - subnet.prefixLen) := by
        rw [Nat.add_mul, one_mul, Ipv4Net.network]
    _ ≤ 2 ^ subnet.prefixLen * 2 ^ (32 - subnet.prefixLen) := Nat.mul_le_mul_right _ hless
    _ = 4294967296 := hsplit

/-- The subnet of every address starts at the first. -/
theorem network_zero (hnone : subnet.prefixLen = 0) : subnet.network = 0 := by
  have hless : subnet.addr < 2 ^ (32 - subnet.prefixLen) := by
    rw [hnone]
    exact subnet.addr_lt
  rw [Ipv4Net.network, Nat.div_eq_of_lt hless, Nat.zero_mul]

/-- The server of a subnet of at most thirty bits is the address after the subnet's own. -/
theorem first_addr (hfew : subnet.prefixLen ≤ 30) : subnet.first.addr = subnet.network + 1 := by
  have hfour : 2 ^ 2 ≤ 2 ^ (32 - subnet.prefixLen) := Nat.pow_le_pow_right (by decide) (by omega)
  have hend := network_add_le subnet
  unfold Ipv4Net.first
  dsimp only
  omega

/-- A range leases the rest of its subnet exactly where it does not name the subnet of every
address. -/
theorem leasesRest_iff (subnets : Subnets) (range : String) :
    LeasesRest subnets range ↔
      ∀ subnet, subnets.ipv4Net range = some subnet → ¬(subnet.addr = 0 ∧ subnet.prefixLen = 0) := by
  constructor
  · rintro ⟨⟨result, hreturns⟩, -, -⟩ subnet hread ⟨haddr, hnone⟩
    have hnetwork : subnet.addr = subnet.network :=
      haddr.trans (Nat.le_zero.mp (haddr ▸ subnet.network_le)).symm
    unfold checkedRange at hreturns
    rw [hread] at hreturns
    dsimp only at hreturns
    rw [if_neg (not_not.mpr hnetwork), if_neg (by omega), checkedSize_zero hnone] at hreturns
    cases hreturns
  · intro hnot
    have hleases : ∀ subnet pool, subnets.ipv4Net range = some subnet →
        checkedRange subnets range = some (.ok pool) →
          pool.server = subnet.first ∧ pool.offset = 2 ∧ subnet.prefixLen ≤ 30 ∧
            pool.size.toNat = 2 ^ (32 - subnet.prefixLen) - 3 := by
      intro subnet pool hread hchecked
      obtain ⟨hfew, size, hsize, rfl⟩ := checkedRange_ok hread hchecked
      have hsome : subnet.prefixLen ≠ 0 := by
        intro hnone
        rw [checkedSize_zero hnone] at hsize
        cases hsize
      obtain ⟨size', hsize', hcount⟩ := checkedSize_eq hsome hfew
      rw [hsize, Option.some.injEq] at hsize'
      exact ⟨rfl, rfl, hfew, hsize' ▸ hcount⟩
    refine ⟨?_, ?_, ?_⟩
    · unfold checkedRange
      split
      · exact ⟨_, rfl⟩
      · rename_i subnet hread
        split_ifs with hown hfew
        · exact ⟨_, rfl⟩
        · exact ⟨_, rfl⟩
        · have hsome : subnet.prefixLen ≠ 0 := by
            intro hnone
            apply hnot subnet hread
            exact ⟨(not_not.mp hown).trans (network_zero hnone), hnone⟩
          obtain ⟨size, hsize, -⟩ := checkedSize_eq hsome (Nat.le_of_not_lt hfew)
          rw [hsize]
          exact ⟨_, rfl⟩
    · intro subnet pool hread hchecked
      obtain ⟨hserver, -, hfew, -⟩ := hleases subnet pool hread hchecked
      have hfour : 2 ^ 2 ≤ 2 ^ (32 - subnet.prefixLen) :=
        Nat.pow_le_pow_right (by decide) (by omega)
      rw [hserver, first_addr hfew]
      refine ⟨⟨Nat.lt_succ_self _, ?_⟩, fun addr hhost => hhost.1, rfl⟩
      unfold Ipv4Net.broadcast
      omega
    · intro subnet pool hread hchecked addr
      obtain ⟨hserver, hoffset, hfew, hcount⟩ := hleases subnet pool hread hchecked
      have hfour : 2 ^ 2 ≤ 2 ^ (32 - subnet.prefixLen) :=
        Nat.pow_le_pow_right (by decide) (by omega)
      rw [Pool.Leased, hserver, first_addr hfew, hoffset, hcount]
      change (∃ k < _, addr = subnet.network + 2 + k) ↔ _
      unfold Ipv4Net.Host Ipv4Net.broadcast
      constructor
      · rintro ⟨k, hk, rfl⟩
        omega
      · rintro ⟨⟨hlow, hhigh⟩, hother⟩
        exact ⟨addr - subnet.network - 2, by omega, by omega⟩

/-! ## Every address -/

/-- The subnet of every address. -/
def everywhere : Ipv4Net where
  addr := 0
  prefixLen := 0
  addr_lt := by decide
  prefixLen_le := by decide

/-- A reading of the subnet of every address, and of nothing else. -/
def onlyEverywhere : Subnets where
  ipNet := fun _ => none
  ipv4Net := fun range => if range = "0.0.0.0/0" then some everywhere else none

/-- The subnet of every address panics in a build that checks its arithmetic, and leases its own
broadcast address in one that does not. -/
theorem not_leasesRest_everywhere :
    ¬LeasesRest onlyEverywhere "0.0.0.0/0" ∧ checkedRange onlyEverywhere "0.0.0.0/0" = none ∧
      ∃ pool, dhcpRange onlyEverywhere "0.0.0.0/0" = .ok pool ∧
        pool.Leased everywhere everywhere.broadcast := by
  have hnone : checkedRange onlyEverywhere "0.0.0.0/0" = none := rfl
  refine ⟨?_, hnone, { server := everywhere.first, offset := 2, size := 4294967294 }, rfl,
    4294967293, by decide, by decide⟩
  rintro ⟨⟨result, hreturns⟩, -, -⟩
  rw [hnone] at hreturns
  cases hreturns

end Networkd

end Bliti.Network.Render
