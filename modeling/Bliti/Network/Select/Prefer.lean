import Bliti.Network.Select.Changes
import Mathlib.Data.List.Nodup

/-!
# Selection - what the pass prefers

The pass follows the ordering, and keeps a radio for the hotspot.  A candidate
left standing by had every interface it could go on taken by one above it, or
kept for the hotspot; and where the hotspot has a host at all, the pass leaves it
one.
-/

namespace Bliti.Network.Select

open Std (ExtTreeMap ExtTreeSet)
open Channel.Config

variable {φ : Type}

/-- Each interface has a name of its own: no two radios share one, and a wired interface
is no radio.  The kernel names each interface once, and those found to be wired leave out
the wireless ones. -/
structure Hardware.Named (hardware : Hardware) : Prop where
  stations : (hardware.radios.map Radio.station).Nodup
  apart : ∀ radio ∈ hardware.radios, radio.station ∉ hardware.wired

/-- Two radios of one name are one. -/
theorem Hardware.Named.eq_of_station {hardware : Hardware} (hnamed : hardware.Named)
    {one other : Radio} (hone : one ∈ hardware.radios) (hother : other ∈ hardware.radios)
    (hstation : one.station = other.station) : one = other :=
  List.inj_on_of_nodup_map hnamed.stations hone hother hstation

/-- A host of the hotspot is one of the radios. -/
theorem Hardware.mem_radios_of_mem_hosts {hardware : Hardware} {document : Document φ}
    {hotspot : Hotspot} {host : Radio} (hhost : host ∈ hardware.hotspotHosts document hotspot) :
    host ∈ hardware.radios := by
  have hradio := List.mem_of_mem_filter hhost
  exact List.mem_of_mem_filter (List.mem_of_mem_filter hradio)

/-- A host of the hotspot can run an access point. -/
theorem Hardware.accessPoint_of_mem_hosts {hardware : Hardware} {document : Document φ}
    {hotspot : Hotspot} {host : Radio} (hhost : host ∈ hardware.hotspotHosts document hotspot) :
    host.accessPoint.isSome = true := by
  have hradio := List.mem_of_mem_filter hhost
  exact (List.mem_filter.mp hradio).2

namespace Selector

/-! ## Sparing the hotspot -/

/-- A radio is taken: it runs an access point and a client one at a time, and carries a
candidate. -/
def Taken (radio : Radio) (links : ExtTreeMap String Nat) : Prop :=
  radio.accessPoint = some .oneAtATime ∧ radio.station ∈ links

/-- A wireless candidate is kept off a radio exactly where the radio is a one-at-a-time
one, the hotspot is on, and every other host of it is taken. -/
theorem sparesHotspot_eq_false (s : Selector φ) {radio : Radio}
    {links : ExtTreeMap String Nat} :
    s.sparesHotspot radio links = false ↔
      radio.accessPoint = some .oneAtATime ∧ ∃ hotspot,
        s.document.enabledHotspot = some hotspot ∧
          ∀ other ∈ s.hardware.hotspotHosts s.document hotspot,
            other.station ≠ radio.station → Taken other links := by
  unfold sparesHotspot
  rcases hhotspot : s.document.enabledHotspot with _ | hotspot
  · simp
  · by_cases hkind : radio.accessPoint = some .oneAtATime
    · simp [hkind, Taken]
    · simp [hkind]

/-- A radio kept for the hotspot stays kept as more is taken. -/
theorem sparesHotspot_mono (s : Selector φ) {radio : Radio}
    {links more : ExtTreeMap String Nat} (hmore : ∀ i : String, i ∈ links → i ∈ more)
    (hkept : s.sparesHotspot radio links = false) : s.sparesHotspot radio more = false := by
  rw [sparesHotspot_eq_false] at hkept ⊢
  obtain ⟨hkind, hotspot, hhotspot, hothers⟩ := hkept
  refine ⟨hkind, hotspot, hhotspot, ?_⟩
  intro other hother hstation
  obtain ⟨hsame, htaken⟩ := hothers other hother hstation
  exact ⟨hsame, hmore _ htaken⟩

/-- An interface is a radio kept for the hotspot. -/
def Kept (s : Selector φ) (links : ExtTreeMap String Nat) (interface : String) : Prop :=
  ∃ radio ∈ s.hardware.radios, radio.station = interface ∧
    s.sparesHotspot radio links = false

/-! ## One candidate -/

/-- What a placing function prefers for a candidate. -/
def Prefers (s : Selector φ) (attachment : Attachment φ) (links : ExtTreeMap String Nat) :
    Except State String → Prop
  | .ok interface => interface ∈ s.carrier ∨ ∃ radio ∈ s.hardware.radios,
      radio.station = interface ∧ s.sparesHotspot radio links = true
  | .error state => state = .standby → ∀ interface, s.MayUse attachment interface →
      interface ∈ links ∨ s.Kept links interface

/-- A wired candidate goes on its interface, or finds it taken. -/
theorem wired_prefers (s : Selector φ) {rank : Nat} {attachment : Attachment φ}
    {own : String} {links : ExtTreeMap String Nat}
    (hmay : ∀ interface, s.MayUse attachment interface → interface = own) :
    s.Prefers attachment links (s.wired rank own links) := by
  unfold wired
  by_cases hcarrier : own ∈ s.carrier
  · rcases hfault : s.failures[rank]? with _ | fault
    · by_cases htaken : own ∈ links
      · simp only [hcarrier, not_true, if_false, failed, hfault, htaken, if_true, bind,
          Except.bind, pure, Except.pure]
        intro _ interface huse
        rw [hmay interface huse]
        exact .inl htaken
      · simp only [hcarrier, not_true, if_false, failed, hfault, htaken, bind, Except.bind,
          pure, Except.pure]
        exact .inl hcarrier
    · simp only [hcarrier, not_true, if_false, failed, hfault, bind, Except.bind]
      intro hstate
      cases hstate
  · simp only [hcarrier, not_false_eq_true, if_true, bind, Except.bind]
    intro hstate
    cases hstate

/-- Where no radio is picked, none is free. -/
theorem pickRadio_standby {current : Option String} {free : List (Radio × Option Int)}
    {state : State} (hpick : pickRadio current free = .error state) : free = [] := by
  cases free with
  | nil => rfl
  | cons first rest =>
      unfold pickRadio loudest at hpick
      grind

/-- A wireless candidate goes on a radio that spares the hotspot, or finds each it could
go on taken or kept. -/
theorem wireless_prefers (s : Selector φ) {rank : Nat} {attachment : Attachment φ}
    {w : Wireless φ} {links : ExtTreeMap String Nat}
    (hkind : attachment.kind = .wireless w) :
    s.Prefers attachment links (s.wireless rank w links) := by
  have hmay := s.mem_hearing_iff hkind
  have hradios : ∀ entry ∈ s.hearing w, entry.1 ∈ s.hardware.radios := by
    intro entry hentry
    obtain ⟨radio, hradio, hheard⟩ := List.mem_filterMap.mp hentry
    have hsame : entry.1 = radio := by
      split at hheard
      · rw [← Option.some.inj hheard]
      · split at hheard
        · rw [← Option.some.inj hheard]
        · cases hheard
    rw [hsame]
    exact List.mem_of_mem_filter hradio
  unfold wireless
  rcases hheard : s.hearing w with _ | ⟨first, rest⟩
  · simp only [List.isEmpty_nil, if_true, bind, Except.bind]
    intro hstate
    cases hstate
  · rcases hfault : s.failures[rank]? with _ | fault
    · simp only [failed, hfault, bind, Except.bind, List.isEmpty_cons, Bool.false_eq_true,
        if_false]
      rw [← hheard]
      rcases hpick : pickRadio (s.currentInterface rank) _ with state | interface
      · intro _ interface huse
        obtain ⟨entry, hentry, rfl⟩ := (hmay interface).mpr huse
        have hnone := List.filter_eq_nil_iff.mp (pickRadio_standby hpick) entry hentry
        by_cases htaken : entry.1.station ∈ links
        · exact .inl htaken
        · refine .inr ⟨entry.1, hradios entry hentry, rfl, ?_⟩
          simpa [htaken] using hnone
      · obtain ⟨entry, hentry, rfl⟩ := pickRadio_ok hpick
        obtain ⟨hin, hfree⟩ := List.mem_filter.mp hentry
        refine .inr ⟨entry.1, hradios entry hin, rfl, ?_⟩
        exact (Bool.and_eq_true_iff.mp hfree).2
    · simp only [failed, hfault, bind, Except.bind, List.isEmpty_cons, Bool.false_eq_true,
        if_false]
      intro hstate
      cases hstate

/-- What one enabled candidate prefers. -/
theorem goesOn_prefers (s : Selector φ) (rank : Nat) {attachment : Attachment φ}
    {links : ExtTreeMap String Nat} :
    s.Prefers attachment links (s.goesOn rank attachment links) := by
  unfold goesOn
  rcases hkind : attachment.kind with w | own | ⟨own, addresses, gateway⟩
  · exact s.wireless_prefers hkind
  · exact s.wired_prefers fun interface huse => by
      simp only [MayUse, hkind] at huse
      exact huse.1
  · exact s.wired_prefers fun interface huse => by
      simp only [MayUse, hkind] at huse
      exact huse.1

/-! ## The pass -/

/-- What the pass has preferred once the ranks below `n` are taken: a candidate that could
go somewhere and goes nowhere finds each place taken by one above it or kept for the
hotspot, and a host is left to the hotspot that has any. -/
structure PreferredUpTo (s : Selector φ) (n : Nat) (links : ExtTreeMap String Nat) :
    Prop where
  higher : ∀ rank attachment, rank < n →
    s.document.attachments[rank]? = some attachment → attachment.enabled = true →
    s.failures[rank]? = none → (∀ interface : String, links[interface]? ≠ some rank) →
    ∀ interface : String, s.MayUse attachment interface →
      (∃ above, links[interface]? = some above ∧ above < rank) ∨
        interface ∉ links ∧ s.Kept links interface
  hosted : ∀ hotspot, s.document.enabledHotspot = some hotspot →
    s.hardware.hotspotHosts s.document hotspot ≠ [] →
    ∃ host ∈ s.hardware.hotspotHosts s.document hotspot, ¬ Taken host links

/-- Before the pass every host is left. -/
theorem PreferredUpTo.start (s : Selector φ) : s.PreferredUpTo 0 ∅ where
  higher := by
    intro rank attachment hlt
    exact absurd hlt (Nat.not_lt_zero rank)
  hosted := by
    intro hotspot _ hhosts
    obtain ⟨host, hhost⟩ := List.exists_mem_of_ne_nil _ hhosts
    refine ⟨host, hhost, ?_⟩
    intro htaken
    exact absurd htaken.2 (by simp)

section Pass

variable {s : Selector φ} {n : Nat} {links : ExtTreeMap String Nat}
  {attachment : Attachment φ}

/-- A candidate that goes on an interface keeps what was preferred. -/
theorem PreferredUpTo.link {interface : String} (hpreferred : s.PreferredUpTo n links)
    (hnamed : s.hardware.Named) (hwired : ∀ i ∈ s.carrier, i ∈ s.hardware.wired)
    (hfree : interface ∉ links)
    (hprefers : interface ∈ s.carrier ∨ ∃ radio ∈ s.hardware.radios,
      radio.station = interface ∧ s.sparesHotspot radio links = true) :
    s.PreferredUpTo (n + 1) (links.insert interface n) := by
  have hmore : ∀ i : String, i ∈ links → i ∈ links.insert interface n := by
    intro i hi
    exact OrderedMap.mem_insert_iff.mpr (.inr hi)
  constructor
  · intro rank other hlt hat hon hfault hunlinked i huse
    have hne : rank ≠ n := by
      rintro rfl
      exact hunlinked interface (by simp)
    have hbefore : ∀ j : String, links[j]? ≠ some rank := by
      intro j hlink
      by_cases hsame : j = interface
      · rw [hsame] at hlink
        exact hfree (ExtTreeMap.mem_iff_isSome_getElem?.mpr (by simp [hlink]))
      · apply hunlinked j
        rw [OrderedMap.getElem?_insert_of_ne (Ne.symm hsame), hlink]
    rcases hpreferred.higher rank other (by omega) hat hon hfault hbefore i huse with
      ⟨above, habove, hlower⟩ | ⟨hnot, radio, hradio, rfl, hkept⟩
    · left
      refine ⟨above, ?_, hlower⟩
      have hother : i ≠ interface := by
        rintro rfl
        exact hfree (ExtTreeMap.mem_iff_isSome_getElem?.mpr (by simp [habove]))
      rw [OrderedMap.getElem?_insert_of_ne (Ne.symm hother), habove]
    · -- a radio kept for the hotspot is not what the candidate went on
      right
      refine ⟨?_, radio, hradio, rfl, s.sparesHotspot_mono hmore hkept⟩
      rw [OrderedMap.mem_insert_iff]
      rintro (hsame | hin)
      · rcases hprefers with hcarrier | ⟨taken, htaken, hstation, hspares⟩
        · rw [hsame] at hcarrier
          exact hnamed.apart radio hradio (hwired _ hcarrier)
        · rw [hsame] at hstation
          rw [hnamed.eq_of_station htaken hradio hstation, hkept] at hspares
          cases hspares
      · exact hnot hin
  · intro hotspot hhotspot hhosts
    obtain ⟨host, hhost, hleft⟩ := hpreferred.hosted hotspot hhotspot hhosts
    have hradio := Hardware.mem_radios_of_mem_hosts hhost
    have hstays : ∀ other : Radio, other.station ≠ interface → ¬ Taken other links →
        ¬ Taken other (links.insert interface n) := by
      rintro other hother huntaken ⟨hkind, hin⟩
      rcases OrderedMap.mem_insert_iff.mp hin with hsame | hin
      · exact hother hsame.symm
      · exact huntaken ⟨hkind, hin⟩
    rcases hprefers with hcarrier | ⟨radio, hin, rfl, hspares⟩
    · refine ⟨host, hhost, hstays host ?_ hleft⟩
      rintro rfl
      exact hnamed.apart host hradio (hwired _ hcarrier)
    · by_cases hkind : radio.accessPoint = some .oneAtATime
      · -- the radio taken leaves another host
        by_contra hnone
        rw [← Bool.not_eq_false, sparesHotspot_eq_false] at hspares
        apply hspares
        refine ⟨hkind, hotspot, hhotspot, ?_⟩
        intro other hother hstation
        by_contra huntaken
        exact hnone ⟨other, hother, hstays other hstation huntaken⟩
      · refine ⟨host, hhost, ?_⟩
        rintro ⟨hhostkind, hlinked⟩
        rcases OrderedMap.mem_insert_iff.mp hlinked with hsame | hlinked
        · rw [hnamed.eq_of_station hin hradio hsame] at hkind
          exact hkind hhostkind
        · exact hleft ⟨hhostkind, hlinked⟩

/-- A candidate that goes nowhere keeps what was preferred. -/
theorem PreferredUpTo.leave (hpreferred : s.PreferredUpTo n links)
    (hbelow : ∀ (interface : String) (rank : Nat), links[interface]? = some rank → rank < n)
    (hat : s.document.attachments[n]? = some attachment)
    (hnowhere : attachment.enabled = true → s.failures[n]? = none → ∀ interface : String,
      s.MayUse attachment interface → interface ∈ links ∨ s.Kept links interface) :
    s.PreferredUpTo (n + 1) links where
  higher := by
    intro rank other hlt hat' hon hfault hunlinked interface huse
    by_cases hlast : rank = n
    · subst hlast
      obtain rfl := Option.some.inj (hat.symm.trans hat')
      by_cases hin : interface ∈ links
      · left
        obtain ⟨above, habove⟩ :=
          Option.isSome_iff_exists.mp (ExtTreeMap.mem_iff_isSome_getElem?.mp hin)
        exact ⟨above, habove, hbelow interface above habove⟩
      · exact .inr ⟨hin, (hnowhere hon hfault interface huse).resolve_left hin⟩
    · exact hpreferred.higher rank other (by omega) hat' hon hfault hunlinked interface huse
  hosted := hpreferred.hosted

/-- One turn of the pass keeps what was preferred. -/
theorem PreferredUpTo.placeOne {placed : Placed} (hplaced : s.PlacedUpTo n placed)
    (hpreferred : s.PreferredUpTo n placed.links) (hnamed : s.hardware.Named)
    (hwired : ∀ i ∈ s.carrier, i ∈ s.hardware.wired)
    (hat : s.document.attachments[n]? = some attachment) :
    s.PreferredUpTo (n + 1) (s.placeOne placed (attachment, n)).links := by
  unfold Selector.placeOne
  by_cases hon : attachment.enabled = true
  · have hspec : s.GoesOnSpec n attachment placed.links _ := s.goesOn_spec hon
    have hprefers : s.Prefers attachment placed.links _ := s.goesOn_prefers n
    rcases hgoes : s.goesOn n attachment placed.links with state | interface
    · rw [hgoes] at hspec hprefers
      simp only [hon, hgoes, Bool.not_true, Bool.false_eq_true, if_false]
      apply hpreferred.leave hplaced.below hat
      intro _ hfault interface huse
      apply hprefers _ interface huse
      cases hspec with
      | off hoff => simp [hon] at hoff
      | outOfReach reason _ hout => exact absurd ⟨interface, huse⟩ hout
      | failed fault _ _ hfailed => simp [hfault] at hfailed
      | standby => rfl
    · rw [hgoes] at hspec hprefers
      simp only [hon, hgoes, Bool.not_true, Bool.false_eq_true, if_false]
      exact hpreferred.link hnamed hwired hspec.2.2 hprefers
  · simp only [hon, Bool.not_false, if_true]
    exact hpreferred.leave hplaced.below hat fun hon' => absurd hon' hon

/-- What the whole pass prefers. -/
theorem place_prefers (hnamed : s.hardware.Named)
    (hwired : ∀ i ∈ s.carrier, i ∈ s.hardware.wired) :
    s.PreferredUpTo s.document.attachments.length s.place.links := by
  have hloop := Loops.foldl_invariant_of_zipIdx s.placeOne s.document.attachments
    (fun n placed => s.PlacedUpTo n placed ∧ s.PreferredUpTo n placed.links)
    { links := ∅, idle := ∅ } ⟨PlacedUpTo.start s, PreferredUpTo.start s⟩
    (fun _ _ _ hat hboth => ⟨hboth.1.placeOne hat,
      PreferredUpTo.placeOne hboth.1 hboth.2 hnamed hwired hat⟩)
  exact hloop.2

end Pass

end Selector

end Bliti.Network.Select
