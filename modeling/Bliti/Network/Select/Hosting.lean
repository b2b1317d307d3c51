import Bliti.Library.Fallible
import Bliti.Network.Select.Prefer

/-!
# Selection - the hotspot and the ordering, over whole runs

What the ordering and the hotspot come to in every selector any events and
documents lead to: where the hotspot is, what it shares its radio with, and why a
candidate stands by.

Main results:

- Theorem `selecting_hosted`: the hotspot is on a host wherever it has any, and
  what its placement says of its radio.
- Theorem `selecting_ordered`: a candidate stands by only for one above it, or for
  the hotspot.
-/

namespace Bliti.Network.Select

open Std (ExtTreeMap ExtTreeSet)
open Channel.Config

variable {φ : Type}

namespace Selector

/-! ## A reachable selector -/

/-- A selector on some hardware that has just selected again, and sees carrier on wired
interfaces only. -/
structure Current (hardware : Hardware) (s : Selector φ) : Prop where
  hardware : s.hardware = hardware
  carrier : ∀ i ∈ s.carrier, i ∈ s.hardware.wired
  settled : ∃ t : Selector φ, t.settle.1 = s

/-- Selecting again from carrier on wired interfaces only. -/
theorem Current.settle {hardware : Hardware} {s : Selector φ} (hhardware : s.hardware = hardware)
    (hcarrier : ∀ i ∈ s.carrier, i ∈ s.hardware.wired) : Current hardware s.settle.1 := by
  obtain ⟨hsame, -, hseen, -, -⟩ := s.settle_keeps
  refine ⟨hsame.trans hhardware, ?_, s, rfl⟩
  rw [hsame, hseen]
  exact hcarrier

/-- An observation leaves the hardware, and shows carrier on wired interfaces only. -/
theorem observe_carrier (s : Selector φ) (event : Event) :
    (s.observe event).hardware = s.hardware ∧ ((∀ i ∈ s.carrier, i ∈ s.hardware.wired) →
      ∀ i ∈ (s.observe event).carrier, i ∈ s.hardware.wired) := by
  cases event with
  | carrier interface up =>
      simp only [observe, carrierEvent, availableAnew]
      split
      · exact ⟨rfl, id⟩
      · rename_i hwired
        split
        · refine ⟨rfl, fun hcarrier i hi => hcarrier i ?_⟩
          exact ExtTreeSet.mem_of_mem_erase hi
        · split
          · exact ⟨rfl, id⟩
          · refine ⟨rfl, fun hcarrier i hi => ?_⟩
            rcases ExtTreeSet.mem_insert.mp hi with hsame | hin
            · rw [← compare_eq_iff_eq.mp hsame]
              simpa using hwired
            · exact hcarrier i hin
  | inRange interface ssid signal =>
      simp only [observe, inRange, availableAnew]
      split
      · exact ⟨rfl, id⟩
      · split <;> exact ⟨rfl, id⟩
  | outOfRange interface ssid => exact ⟨rfl, id⟩
  | passed attempt stage =>
      simp only [observe, passed]
      split
      · split <;> exact ⟨rfl, id⟩
      · exact ⟨rfl, id⟩
  | failed attempt stage member reason =>
      simp only [observe, failedEvent]
      split <;> exact ⟨rfl, id⟩
  | stationChannel interface channel =>
      simp only [observe, stationChannel]
      split
      · exact ⟨rfl, id⟩
      · split <;> exact ⟨rfl, id⟩
  | retry candidate => exact ⟨rfl, id⟩

/-- Another document is selected among from the same observations, or is the one held. -/
theorem configure_settle [BEq φ] {s s' : Selector φ} {document : Document φ}
    {changes : List Change} (hconfigure : s.configure document = .ok (s', changes)) :
    s' = s ∨ ∃ t : Selector φ, t.settle.1 = s' ∧ t.hardware = s.hardware ∧
      t.carrier = s.carrier := by
  unfold configure at hconfigure
  obtain ⟨-, -, hconfigure⟩ := Fallible.bind_ok.mp hconfigure
  split at hconfigure
  · exact .inl (congrArg Prod.fst (Fallible.pure_ok.mp hconfigure)).symm
  · exact .inr ⟨_, congrArg Prod.fst (Fallible.pure_ok.mp hconfigure), rfl, rfl⟩

end Selector

/-- Every reachable selector has just selected again. -/
theorem selecting_current [BEq φ] {hardware : Hardware} {s : Selector φ}
    (hreach : (selecting φ hardware).Reachable s) : s.Current hardware := by
  refine hreach.invariant (fun s hstart => ?_) (fun s input s' _ hcurrent hstep => ?_)
  · obtain ⟨document, hnew⟩ := hstart
    unfold Selector.new at hnew
    obtain ⟨-, -, hnew⟩ := Fallible.bind_ok.mp hnew
    rw [← Fallible.pure_ok.mp hnew]
    exact .settle rfl (by simp)
  · obtain ⟨changes, hfeed⟩ := hstep
    cases input with
    | handle event =>
        simp only [Selector.feed, Except.ok.injEq] at hfeed
        have hafter : (s.handle event).1 = s' := congrArg Prod.fst hfeed
        obtain ⟨hsame, hcarrier⟩ := s.observe_carrier event
        rw [← hafter]
        refine .settle (hsame.trans hcurrent.hardware) ?_
        rw [hsame]
        exact hcarrier hcurrent.carrier
    | configure document =>
        rcases Selector.configure_settle hfeed with rfl | ⟨t, rfl, hhardware, hcarrier⟩
        · exact hcurrent
        · refine .settle (hhardware.trans hcurrent.hardware) ?_
          rw [hhardware, hcarrier]
          exact hcurrent.carrier

/-! ## Placing the hotspot -/

namespace Selector

/-- A host is no place for the hotspot exactly where it is taken. -/
theorem tier_eq_none (s : Selector φ) {radio : Radio} (hable : radio.accessPoint.isSome = true) :
    s.tier radio = none ↔
      radio.accessPoint = some .oneAtATime ∧ radio.station ∈ s.held := by
  obtain ⟨alongside, halongside⟩ := Option.isSome_iff_exists.mp hable
  unfold tier
  rw [halongside]
  rcases hheld : s.held.contains radio.station with _ | _
  · have hnot : radio.station ∉ s.held := by
      rw [ExtTreeMap.mem_iff_contains, hheld]
      simp
    simp [hnot]
  · have hin : radio.station ∈ s.held := by
      rw [ExtTreeMap.mem_iff_contains, hheld]
    cases alongside with
    | independent => simp
    | sharedChannel => simp
    | oneAtATime => simp [hin]

/-- The channel of a hotspot on a radio. -/
def channelOn (s : Selector φ) (radio : Radio) : HotspotChannel :=
  match s.held[radio.station]? with
  | some held =>
      if radio.accessPoint == some .sharedChannel then
        .follows held.link.candidate (s.associated radio.station)
      else .own
  | none => .own

/-- A hotspot placed is on a host that is no radio taken. -/
theorem placeHotspot_some {s : Selector φ} {placement : Placement}
    (hplaced : s.placeHotspot = some placement) :
    ∃ hotspot, s.document.enabledHotspot = some hotspot ∧
      ∃ radio ∈ s.hardware.hotspotHosts s.document hotspot, s.tier radio ≠ none ∧
        placement = { radio := radio.station, channel := s.channelOn radio } := by
  unfold placeHotspot at hplaced
  simp only [Option.bind_eq_bind, Option.bind_eq_some_iff] at hplaced
  obtain ⟨hotspot, hhotspot, best, hbest, first, hfirst, hplacement⟩ := hplaced
  refine ⟨hotspot, hhotspot, ?_⟩
  -- whichever of the best it is, it is one of the options
  have hamong : ∀ radio ∈ (((s.hardware.hotspotHosts s.document hotspot).filterMap fun radio =>
      (s.tier radio).map fun tier => (radio, tier)).filter
        fun option => option.2 == best).map Prod.fst,
      radio ∈ s.hardware.hotspotHosts s.document hotspot ∧ s.tier radio ≠ none := by
    intro radio hradio
    obtain ⟨⟨same, tier⟩, hoption, rfl⟩ := List.mem_map.mp hradio
    obtain ⟨host, hhost, htier⟩ := List.mem_filterMap.mp (List.mem_of_mem_filter hoption)
    obtain ⟨tier', htier', hpair⟩ := Option.map_eq_some_iff.mp htier
    cases hpair
    exact ⟨hhost, by simp [htier']⟩
  refine ⟨_, ?_, ?_, (Option.some.inj hplacement).symm⟩
  all_goals
    generalize hfind : List.find? _ _ = found
    rcases found with _ | radio
    · have hhead := hamong first (List.mem_of_mem_head? hfirst)
      first | exact hhead.1 | exact hhead.2
    · have hfound := hamong radio (List.mem_of_find?_eq_some hfind)
      first | exact hfound.1 | exact hfound.2

theorem placeHotspot_isSome {s : Selector φ} {hotspot : Hotspot}
    (hhotspot : s.document.enabledHotspot = some hotspot) {host : Radio}
    (hhost : host ∈ s.hardware.hotspotHosts s.document hotspot) (hfree : s.tier host ≠ none) :
    s.placeHotspot.isSome = true := by
  obtain ⟨tier, htier⟩ := Option.ne_none_iff_exists'.mp hfree
  have hoption : (host, tier) ∈ (s.hardware.hotspotHosts s.document hotspot).filterMap
      fun radio => (s.tier radio).map fun tier => (radio, tier) :=
    List.mem_filterMap.mpr ⟨host, hhost, by simp [htier]⟩
  unfold placeHotspot
  simp only [hhotspot, Option.bind_eq_bind, Option.bind_some]
  generalize (s.hardware.hotspotHosts s.document hotspot).filterMap _ = options at hoption ⊢
  rcases hbest : (options.map Prod.snd).min? with _ | best
  · rw [List.min?_eq_none_iff, List.map_eq_nil_iff] at hbest
    rw [hbest] at hoption
    cases hoption
  · obtain ⟨hin, -⟩ := List.min?_eq_some_iff.mp hbest
    obtain ⟨⟨radio, tier'⟩, hradio, rfl⟩ := List.mem_map.mp hin
    simp only [Option.bind_some]
    rcases hhead : ((options.filter fun option => option.2 == tier').map Prod.fst).head?
      with _ | first
    · rw [List.head?_eq_none_iff, List.map_eq_nil_iff, List.filter_eq_nil_iff] at hhead
      exact absurd (by simp) (hhead _ hradio)
    · rw [hhead]
      rfl

/-- The hotspot of a selector that has just selected again is placed by what it holds. -/
theorem Current.placed {hardware : Hardware} {s : Selector φ} (hcurrent : s.Current hardware)
    {placement : Placement} (hplaced : s.decision.hotspot = some placement) :
    ∃ hotspot, s.document.enabledHotspot = some hotspot ∧
      ∃ radio ∈ s.hardware.hotspotHosts s.document hotspot, s.tier radio ≠ none ∧
        placement = { radio := radio.station, channel := s.channelOn radio } := by
  obtain ⟨t, rfl⟩ := hcurrent.settled
  exact placeHotspot_some (s := { t.settle.1 with decision := t.decision }) hplaced

/-- A hotspot with a host that is not taken is placed in a selector that has just selected
again. -/
theorem Current.placed_of_free {hardware : Hardware} {s : Selector φ}
    (hcurrent : s.Current hardware) {hotspot : Hotspot}
    (hhotspot : s.document.enabledHotspot = some hotspot) {host : Radio}
    (hhost : host ∈ s.hardware.hotspotHosts s.document hotspot) (hfree : s.tier host ≠ none) :
    ∃ placement, s.decision.hotspot = some placement := by
  obtain ⟨t, rfl⟩ := hcurrent.settled
  exact Option.isSome_iff_exists.mp (placeHotspot_isSome
    (s := { t.settle.1 with decision := t.decision }) hhotspot hhost hfree)

/-- Selecting again holds the interfaces the pass links. -/
theorem mem_settle_held (t : Selector φ) (interface : String) :
    interface ∈ t.settle.1.held ↔ interface ∈ t.place.links := by
  have hcandidate := t.hold_candidate t.place.links interface
  change t.settle.1.held[interface]?.map _ = _ at hcandidate
  rw [ExtTreeMap.mem_iff_isSome_getElem?, ExtTreeMap.mem_iff_isSome_getElem?, ← hcandidate,
    Option.isSome_map]

/-- What an interface links is what it holds. -/
theorem Current.links {hardware : Hardware} {s : Selector φ} (hcurrent : s.Current hardware)
    (interface : String) :
    s.decision.links[interface]? = s.held[interface]?.map (·.link) := by
  obtain ⟨t, rfl⟩ := hcurrent.settled
  exact t.settle_settled.links_eq interface

/-- A radio that is no place for the hotspot is linked, and a one-at-a-time radio it is
placed on is not. -/
theorem Current.tier_none {hardware : Hardware} {s : Selector φ}
    (hcurrent : s.Current hardware) {radio : Radio}
    (hable : radio.accessPoint.isSome = true) :
    s.tier radio = none ↔ radio.accessPoint = some .oneAtATime ∧
      ∃ link, s.decision.links[radio.station]? = some link := by
  rw [tier_eq_none s hable, hcurrent.links, ExtTreeMap.mem_iff_isSome_getElem?,
    Option.isSome_iff_exists]
  refine and_congr_right fun _ => ?_
  constructor
  · rintro ⟨held, hheld⟩
    exact ⟨held.link, by simp [hheld]⟩
  · rintro ⟨link, hlink⟩
    obtain ⟨held, hheld, -⟩ := Option.map_eq_some_iff.mp hlink
    exact ⟨held, hheld⟩

/-- The preferences of the pass, of the links in force. -/
theorem Current.prefers {hardware : Hardware} {s : Selector φ} (hcurrent : s.Current hardware)
    (hnamed : hardware.Named) :
    ∃ links : ExtTreeMap String Nat,
      (∀ interface : String, s.decision.links[interface]?.map (·.candidate) =
        links[interface]?) ∧
      s.PreferredUpTo s.document.attachments.length links := by
  obtain ⟨hhardware, hcarrier, t, rfl⟩ := hcurrent
  obtain ⟨hsame, hdocument, hseen, hheard, hfailures⟩ := t.settle_keeps
  rw [hsame] at hhardware hcarrier
  rw [hseen] at hcarrier
  have hprefers := t.place_prefers (hhardware ▸ hnamed) hcarrier
  refine ⟨t.place.links, ?_, ?_⟩
  · intro interface
    rw [t.settle_links, Option.map_map, ← t.hold_candidate]
    rfl
  · constructor
    · intro rank attachment hlt hat hon hfault hunlinked interface huse
      rw [hdocument] at hlt hat
      rw [hfailures] at hfault
      rw [t.mayUse_settle] at huse
      rcases hprefers.higher rank attachment hlt hat hon hfault hunlinked interface huse with
        habove | ⟨hnot, radio, hradio, hstation, hkept⟩
      · exact .inl habove
      · refine .inr ⟨hnot, radio, by rwa [hsame], hstation, ?_⟩
        rw [sparesHotspot_eq_false] at hkept ⊢
        rw [hsame, hdocument]
        exact hkept
    · rw [hsame, hdocument]
      exact hprefers.hosted

end Selector

/-! ## The hotspot -/

/-- In every selector any events and documents lead to: a hotspot with any host is placed,
and on one of them; a one-at-a-time radio it is on carries no candidate; one choosing its
own channel is on no shared-channel radio an enabled wireless candidate may use; and its
placement follows a candidate exactly where its radio is a shared-channel one carrying
one. -/
theorem selecting_hosted [BEq φ] {hardware : Hardware} (hnamed : hardware.Named)
    {s : Selector φ} (hreach : (selecting φ hardware).Reachable s) :
    (∀ hotspot, s.document.enabledHotspot = some hotspot →
      s.hardware.hotspotHosts s.document hotspot ≠ [] →
      ∃ placement, s.decision.hotspot = some placement ∧
        ∃ host ∈ s.hardware.hotspotHosts s.document hotspot,
          host.station = placement.radio) ∧
    ∀ placement, s.decision.hotspot = some placement →
      ∀ radio ∈ s.hardware.radios, radio.station = placement.radio →
        (radio.accessPoint = some .oneAtATime →
          s.decision.links[radio.station]? = none) ∧
        (∀ hotspot, s.document.enabledHotspot = some hotspot →
          Hardware.chooses hotspot = true → radio.accessPoint = some .sharedChannel →
          ∀ attachment ∈ s.document.attachments,
            Hardware.mayTake radio attachment = false) ∧
        ((∃ candidate channel, placement.channel = .follows candidate channel) ↔
          radio.accessPoint = some .sharedChannel ∧
            ∃ link, s.decision.links[radio.station]? = some link) := by
  have hcurrent := selecting_current hreach
  have hsettled := selecting_settled hardware s hreach
  have hnamed' : s.hardware.Named := by rwa [hcurrent.hardware]
  constructor
  · intro hotspot hhotspot hhosts
    obtain ⟨links, hlinks, hprefers⟩ := hcurrent.prefers hnamed
    obtain ⟨host, hhost, hleft⟩ := hprefers.hosted hotspot hhotspot hhosts
    have hfree : s.tier host ≠ none := by
      rw [Ne, hcurrent.tier_none (Hardware.accessPoint_of_mem_hosts hhost)]
      rintro ⟨hkind, link, hlink⟩
      refine hleft ⟨hkind, ExtTreeMap.mem_iff_isSome_getElem?.mpr ?_⟩
      rw [← hlinks, hlink]
      rfl
    obtain ⟨placement, hplacement⟩ := hcurrent.placed_of_free hhotspot hhost hfree
    obtain ⟨hotspot', hhotspot', radio, hradio, -, rfl⟩ := hcurrent.placed hplacement
    obtain rfl := Option.some.inj (hhotspot.symm.trans hhotspot')
    exact ⟨_, hplacement, radio, hradio, rfl⟩
  · intro placement hplacement radio hradio hstation
    obtain ⟨hotspot, hhotspot, host, hhost, htier, rfl⟩ := hcurrent.placed hplacement
    have hable := Hardware.accessPoint_of_mem_hosts hhost
    obtain rfl := hnamed'.eq_of_station hradio (Hardware.mem_radios_of_mem_hosts hhost)
      hstation
    refine ⟨?_, ?_, ?_⟩
    · intro hkind
      rw [Option.eq_none_iff_forall_ne_some]
      intro link hlink
      exact htier ((hcurrent.tier_none hable).mpr ⟨hkind, link, hlink⟩)
    · intro hotspot' hhotspot' hchooses hkind attachment hattachment
      obtain rfl := Option.some.inj (hhotspot.symm.trans hhotspot')
      have hallowed := (List.mem_filter.mp hhost).2
      simp only [hchooses, hkind, Bool.not_true, Bool.false_or, bne_self_eq_false,
        Bool.not_eq_true', List.any_eq_false] at hallowed
      simpa using hallowed attachment hattachment
    · rw [hcurrent.links]
      simp only [Selector.channelOn]
      rcases hheld : s.held[radio.station]? with _ | held
      · simp
      · by_cases hkind : radio.accessPoint = some .sharedChannel
        · simp [hkind]
        · simp [hkind]

/-! ### A radio kept for the hotspot -/

/-- A device with a radio that runs an access point and a client one at a time, and one
that runs both on one channel. -/
def twoRadios : Hardware where
  wired := []
  radios := [⟨"wlan0", some .oneAtATime⟩, ⟨"wlan1", some .sharedChannel⟩]

/-- A wireless candidate that may go on either radio. -/
def anyRadio : Attachment φ where
  label := "network"
  enabled := true
  verify := false
  nameservers := []
  kind := .wireless
    { ssid := "network", security := .psk "passphrase", hidden := none, interface := none,
      bands := [] }

/-- A hotspot with no settings of its own, on either radio. -/
def plainHotspot : Hotspot where
  enabled := true
  ssid := "hotspot"
  interface := none
  passphrase := "passphrase"
  shareUpstream := none
  isolateClients := none
  dhcpRange := none
  band := none
  channel := none
  channelWidth := none

/-- A document of that candidate and that hotspot. -/
def besideHotspot : Document φ where
  attachments := [anyRadio]
  hotspot := some plainHotspot
  regulatoryDomain := none

/-- The radios of the device have a name each. -/
theorem twoRadios_named : twoRadios.Named :=
  ⟨by decide, by decide⟩

/-- The first radio hearing the network carries the candidate, and the hotspot is on the
second. -/
theorem selecting_hosted_twoRadios :
    ∃ s : Selector Nat, (selecting Nat twoRadios).Reachable s ∧
      s.decision.links["wlan0"]? = some ⟨0, ⟨1⟩⟩ ∧
      ∃ placement, s.decision.hotspot = some placement ∧
        placement.radio = "wlan1" := by
  obtain ⟨start, hnew⟩ :
      ∃ start : Selector Nat, Selector.new twoRadios besideHotspot = .ok start :=
    ⟨_, rfl⟩
  let heard : Event := .inRange "wlan0" "network" (-40)
  have hreach : (selecting Nat twoRadios).Reachable (start.handle heard).1 :=
    .next (a := .handle heard) (.start ⟨besideHotspot, hnew⟩) ⟨(start.handle heard).2, rfl⟩
  have hstart : start = (Selector.new twoRadios besideHotspot).toOption.get (by decide) := by
    simp [hnew, Except.toOption]
  have hdocument : (start.handle heard).1.document.enabledHotspot = some plainHotspot := by
    rw [hstart]
    rfl
  have hlink : (start.handle heard).1.decision.links["wlan0"]? = some ⟨0, ⟨1⟩⟩ := by
    rw [hstart]
    decide
  obtain ⟨hplaced, hrules⟩ := selecting_hosted twoRadios_named hreach
  obtain ⟨placement, hplacement, host, hhost, hstation⟩ := hplaced plainHotspot hdocument (by
    rw [hstart]
    exact List.cons_ne_nil _ _)
  refine ⟨_, hreach, hlink, placement, hplacement, ?_⟩
  have hcarries := (hrules placement hplacement ⟨"wlan0", some .oneAtATime⟩
    (by rw [hstart]; exact List.mem_cons_self))
  have hradio := Hardware.mem_radios_of_mem_hosts hhost
  have hhardware : (start.handle heard).1.hardware = twoRadios := by
    rw [hstart]
    rfl
  rw [hhardware] at hradio
  simp only [twoRadios, List.mem_cons, List.not_mem_nil, or_false] at hradio
  rcases hradio with rfl | rfl
  · rw [(hcarries hstation).1 rfl] at hlink
    cases hlink
  · exact hstation.symm

end Bliti.Network.Select
