import Bliti.Network.Select.Hosting

/-!
# Selection - the ordering over whole runs

Why a candidate stands by: each interface it could go on carries a candidate
above it, or the hotspot.  A hotspot that is on but has no host keeps a
one-at-a-time radio from every candidate all the same, and runs on none.

Main results:

- Theorem `selecting_ordered`: every reachable selector is ordered, where its hotspot
  has a host.
-/

namespace Bliti.Network.Select

open Std (ExtTreeMap ExtTreeSet)
open Channel.Config

variable {φ : Type}

namespace Selector

/-- A candidate that could be tried: turned on, available and with no failure. -/
structure Ready (s : Selector φ) (rank : Nat) (attachment : Attachment φ) : Prop where
  at_rank : s.document.attachments[rank]? = some attachment
  enabled : attachment.enabled = true
  available : s.Available attachment
  unfailed : s.failures[rank]? = none

/-- An interface is that of a one-at-a-time radio the hotspot is on. -/
def KeptForHotspot (s : Selector φ) (interface : String) : Prop :=
  ∃ radio ∈ s.hardware.radios, radio.station = interface ∧
    radio.accessPoint = some .oneAtATime ∧
    ∃ placement, s.decision.hotspot = some placement ∧ placement.radio = interface

/-- A candidate that could be tried and is not linked stands by, every interface it could
go on carrying one above it or being kept for the hotspot; and no candidate linked is on an
interface one above it that is not could have used. -/
structure Ordered (s : Selector φ) : Prop where
  standby : ∀ rank attachment, s.Ready rank attachment → ¬ s.decision.Links rank →
    s.decision.states[rank]? = some .standby ∧
      ∀ interface : String, s.MayUse attachment interface →
        (∃ link, s.decision.links[interface]? = some link ∧ link.candidate < rank) ∨
          s.KeptForHotspot interface
  highest : ∀ (interface : String) (link : Link),
    s.decision.links[interface]? = some link → ∀ rank attachment,
      s.Ready rank attachment → ¬ s.decision.Links rank → rank < link.candidate →
        ¬ s.MayUse attachment interface

/-- A candidate that could be tried and is not linked stands by. -/
theorem Ready.standby {s : Selector φ} (hsettled : Settled s) {rank : Nat}
    {attachment : Attachment φ} (hready : s.Ready rank attachment)
    (hunlinked : ¬ s.decision.Links rank) : s.decision.states[rank]? = some .standby := by
  have hlt : rank < s.decision.states.length := by
    rw [hsettled.length_states]
    exact (List.getElem?_eq_some_iff.mp hready.at_rank).1
  have hstate := List.getElem?_eq_getElem hlt
  obtain ⟨other, hat, hidle⟩ := hsettled.idleAs rank _ hstate
    (fun hlinked => hunlinked ((hsettled.state_iff rank _ hstate).mp hlinked))
  obtain rfl := Option.some.inj (hready.at_rank.symm.trans hat)
  rw [hstate]
  generalize s.decision.states[rank] = state at hidle
  cases hidle with
  | off hoff => simp [hready.enabled] at hoff
  | outOfReach reason _ hout => exact absurd hready.available hout
  | failed fault _ _ hfailed => simp [hready.unfailed] at hfailed
  | standby => rfl

/-- The hotspot of the document, where it is on, has a host, or no enabled wireless
candidate may use a one-at-a-time radio. -/
def HasHost (s : Selector φ) : Prop :=
  ∀ hotspot, s.document.enabledHotspot = some hotspot →
    s.hardware.hotspotHosts s.document hotspot ≠ [] ∨
      ∀ radio ∈ s.hardware.radios, radio.accessPoint = some .oneAtATime →
        ∀ attachment ∈ s.document.attachments, Hardware.mayTake radio attachment = false

/-- An enabled candidate that may use a radio may take it. -/
theorem mayTake_of_mayUse {s : Selector φ} (hnamed : s.hardware.Named)
    (hwired : ∀ i ∈ s.carrier, i ∈ s.hardware.wired) {attachment : Attachment φ}
    (hon : attachment.enabled = true) {radio : Radio} (hradio : radio ∈ s.hardware.radios)
    (huse : s.MayUse attachment radio.station) : Hardware.mayTake radio attachment = true := by
  unfold Hardware.mayTake
  unfold MayUse at huse
  rcases hkind : attachment.kind with w | own | ⟨own, addresses, gateway⟩
  · rw [hkind] at huse
    obtain ⟨-, hpin, -⟩ := huse
    rcases hwants : w.interface with _ | pin
    · simp [hon, hwants]
    · simp [hon, hwants, hpin pin hwants]
  · rw [hkind] at huse
    exact absurd (huse.1 ▸ hwired own huse.2) (hnamed.apart radio hradio)
  · rw [hkind] at huse
    exact absurd (huse.1 ▸ hwired own huse.2) (hnamed.apart radio hradio)

/-- A radio the pass kept for the hotspot is the one the hotspot is on, where it has any
host. -/
theorem Current.kept {hardware : Hardware} {s : Selector φ} (hcurrent : s.Current hardware)
    {links : ExtTreeMap String Nat}
    (hlinks : ∀ interface : String, s.decision.links[interface]?.map (·.candidate) =
      links[interface]?)
    (hprefers : s.PreferredUpTo s.document.attachments.length links)
    (hnamed : hardware.Named) (hhosts : s.HasHost) {attachment : Attachment φ}
    (hat : attachment ∈ s.document.attachments) (hon : attachment.enabled = true)
    {interface : String} (huse : s.MayUse attachment interface)
    (hkept : s.Kept links interface) : s.KeptForHotspot interface := by
  obtain ⟨radio, hradio, rfl, hspares⟩ := hkept
  obtain ⟨hkind, hotspot, hhotspot, hothers⟩ := s.sparesHotspot_eq_false.mp hspares
  refine ⟨radio, hradio, rfl, hkind, ?_⟩
  have hfree : ∀ host ∈ s.hardware.hotspotHosts s.document hotspot,
      s.tier host = none ↔ Taken host links := by
    intro host hhost
    rw [hcurrent.tier_none (Hardware.accessPoint_of_mem_hosts hhost), Taken,
      ExtTreeMap.mem_iff_isSome_getElem?, ← hlinks, Option.isSome_map,
      Option.isSome_iff_exists]
  have hnonempty : s.hardware.hotspotHosts s.document hotspot ≠ [] := by
    apply (hhosts hotspot hhotspot).resolve_right
    intro hnone
    have hmay := mayTake_of_mayUse (hcurrent.hardware ▸ hnamed) hcurrent.carrier hon hradio huse
    rw [hnone radio hradio hkind attachment hat] at hmay
    cases hmay
  obtain ⟨host, hhost, hleft⟩ := hprefers.hosted hotspot hhotspot hnonempty
  obtain ⟨placement, hplacement⟩ := hcurrent.placed_of_free hhotspot hhost
    (fun hnone => hleft ((hfree host hhost).mp hnone))
  refine ⟨placement, hplacement, ?_⟩
  obtain ⟨hotspot', hhotspot', on, hon, htier, rfl⟩ := hcurrent.placed hplacement
  obtain rfl := Option.some.inj (hhotspot.symm.trans hhotspot')
  by_contra hother
  exact htier ((hfree on hon).mpr (hothers on hon hother))

end Selector

/-- Every selector any events and documents lead to is ordered, where the hotspot of its
document has a host. -/
theorem selecting_ordered [BEq φ] {hardware : Hardware} (hnamed : hardware.Named)
    {s : Selector φ} (hreach : (selecting φ hardware).Reachable s)
    (hhosts : s.HasHost) : s.Ordered := by
  have hcurrent := selecting_current hreach
  have hsettled := selecting_settled hardware s hreach
  obtain ⟨links, hlinks, hprefers⟩ := hcurrent.prefers hnamed
  have hplaces : ∀ rank attachment, s.Ready rank attachment → ¬ s.decision.Links rank →
      ∀ interface : String, s.MayUse attachment interface →
        (∃ link, s.decision.links[interface]? = some link ∧ link.candidate < rank) ∨
          s.decision.links[interface]? = none ∧ s.KeptForHotspot interface := by
    intro rank attachment hready hunlinked interface huse
    have hlt := (List.getElem?_eq_some_iff.mp hready.at_rank).1
    have hnot : ∀ other : String, links[other]? ≠ some rank := by
      intro other hlink
      rw [← hlinks] at hlink
      obtain ⟨link, hlink, hrank⟩ := Option.map_eq_some_iff.mp hlink
      exact hunlinked ⟨other, link, hlink, hrank⟩
    rcases hprefers.higher rank attachment hlt hready.at_rank hready.enabled hready.unfailed
      hnot interface huse with ⟨above, habove, hlower⟩ | ⟨hfree, hkept⟩
    · rw [← hlinks] at habove
      obtain ⟨link, hlink, rfl⟩ := Option.map_eq_some_iff.mp habove
      exact .inl ⟨link, hlink, hlower⟩
    · refine .inr ⟨?_, hcurrent.kept hlinks hprefers hnamed hhosts
        (List.mem_of_getElem? hready.at_rank) hready.enabled huse hkept⟩
      have hnone : links[interface]? = none := by simpa using hfree
      rw [← hlinks] at hnone
      exact Option.map_eq_none_iff.mp hnone
  constructor
  · intro rank attachment hready hunlinked
    refine ⟨hready.standby hsettled hunlinked, ?_⟩
    intro interface huse
    exact (hplaces rank attachment hready hunlinked interface huse).imp_right And.right
  · intro interface link hlink rank attachment hready hunlinked hbelow huse
    rcases hplaces rank attachment hready hunlinked interface huse with
      ⟨above, habove, hlower⟩ | ⟨hnone, -⟩
    · rw [hlink] at habove
      cases habove
      exact absurd hlower (Nat.lt_asymm hbelow)
    · rw [hlink] at hnone
      cases hnone

/-- A device with a hotspot beside the candidate on the one-at-a-time radio is ordered. -/
theorem selecting_ordered_twoRadios :
    ∃ s : Selector Nat, (selecting Nat twoRadios).Reachable s ∧ s.Ordered ∧
      s.decision.states = [.verifying .association] := by
  obtain ⟨start, hnew⟩ :
      ∃ start : Selector Nat, Selector.new twoRadios besideHotspot = .ok start :=
    ⟨_, rfl⟩
  let heard : Event := .inRange "wlan0" "network" (-40)
  have hreach : (selecting Nat twoRadios).Reachable (start.handle heard).1 :=
    .next (a := .handle heard) (.start ⟨besideHotspot, hnew⟩) ⟨(start.handle heard).2, rfl⟩
  have hstart : start = (Selector.new twoRadios besideHotspot).toOption.get (by decide) := by
    simp [hnew, Except.toOption]
  refine ⟨_, hreach, selecting_ordered twoRadios_named hreach ?_, ?_⟩
  · rw [hstart]
    intro hotspot hhotspot
    cases hhotspot
    exact .inl (List.cons_ne_nil _ _)
  · rw [hstart]
    decide

/-! ### A hotspot with no host -/

/-- A hotspot pinned to the shared-channel radio that chooses its channel: the candidate
may go on that radio, so the hotspot has no host. -/
def pinnedHotspot : Hotspot :=
  { plainHotspot with interface := some "wlan1", channel := some 6 }

/-- A document of the candidate and that hotspot. -/
def unhostedHotspot : Document φ :=
  { besideHotspot with hotspot := some pinnedHotspot }

/-- A selector among them that has heard nothing. -/
def unhosted : Selector Nat :=
  (Selector.new twoRadios unhostedHotspot).toOption.get (by decide)

/-- The network heard by the one-at-a-time radio. -/
def heardByFirst : Event :=
  .inRange "wlan0" "network" (-40)

/-- The candidate, heard by the one-at-a-time radio only, stands by though the radio
carries no candidate and the hotspot is on none. -/
theorem selecting_not_ordered :
    (selecting Nat twoRadios).Reachable (unhosted.handle heardByFirst).1 ∧
      ¬ (unhosted.handle heardByFirst).1.Ordered := by
  constructor
  · have hnew : Selector.new twoRadios unhostedHotspot = .ok unhosted := rfl
    exact .next (a := .handle heardByFirst) (.start ⟨unhostedHotspot, hnew⟩) ⟨_, rfl⟩
  · intro hordered
    have huse : (unhosted.handle heardByFirst).1.MayUse anyRadio "wlan0" := by
      refine ⟨⟨⟨"wlan0", some .oneAtATime⟩, List.mem_cons_self, rfl⟩, nofun, .inl ?_⟩
      decide
    have hready : (unhosted.handle heardByFirst).1.Ready 0 anyRadio :=
      ⟨rfl, rfl, ⟨"wlan0", huse⟩, by decide⟩
    have hlinks : (unhosted.handle heardByFirst).1.decision.links.isEmpty = true := by
      decide
    have hnone : ∀ interface : String,
        (unhosted.handle heardByFirst).1.decision.links[interface]? = none := by
      intro interface
      rw [ExtTreeMap.isEmpty_iff.mp hlinks]
      exact ExtTreeMap.getElem?_empty
    have hunlinked : ¬ (unhosted.handle heardByFirst).1.decision.Links 0 := by
      rintro ⟨interface, link, hlink, -⟩
      rw [hnone] at hlink
      cases hlink
    have hnowhere : (unhosted.handle heardByFirst).1.decision.hotspot = none := by
      decide
    rcases (hordered.standby 0 anyRadio hready hunlinked).2 "wlan0" huse with
      ⟨link, hlink, -⟩ | ⟨radio, -, -, -, placement, hplacement, -⟩
    · rw [hnone] at hlink
      cases hlink
    · rw [hnowhere] at hplacement
      cases hplacement

end Bliti.Network.Select
