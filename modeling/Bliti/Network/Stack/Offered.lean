import Bliti.Channel.Capabilities.Radios
import Bliti.Network.Probe.Offers
import Bliti.Network.Render.Accepted

/-!
# The network stack - the hotspot and what its radio offers

A hotspot is checked against what some radio offers, and then placed on a radio
by how it runs beside a client alone.  Where every radio it may be placed on offers
it, the one it is placed on does.

Main results:

- Theorem `selecting_asOffered`: where every host offers the hotspot, it runs only
  as its radio offers.
-/

namespace Bliti.Network.Stack

open Std (ExtTreeMap)
open Channel.Config Channel.Capabilities Probe
open Select (Selector selecting Placement)

variable {φ : Type}

/-! ## What is checked -/

section Checked

variable [BEq φ] [ToString φ]

/-- A document, with the JSON it was read from, that passes the capabilities of some radios
and the checks of the stack on them.  No two members of its hotspot share a name. -/
structure Accepted (backend : Backend) (subnets : Render.Subnets) (paths : Render.Paths)
    (radios : List RadioInfo) (wired : List String) (json : Json.Map φ)
    (document : Document φ) : Prop where
  names : ∀ inner, Json.get json "hotspot" = some (.object inner) →
    (inner.map Prod.fst).Nodup
  parsed : Document.parse json = .ok document
  admitted : admits json (capabilities radios wired backend) = .ok ()
  selected : Select.check document (selectHardware radios wired) = .ok ()
  fits : ∀ spot, document.hotspot = some spot → hotspotFits radios spot = .ok ()
  renders : (Render.render subnets document (renderHardware radios wired paths)
    .empty).isOk = true

/-- A document's hotspot with a radio named, alone in a document. -/
def pinned (json : Json.Map φ) (station : String) : Json.Map φ :=
  let hotspot := ((Json.get json "hotspot").bind Json.asObject).getD []
  [("hotspot", .object (Json.insert hotspot "interface" (.string station)))]

/-- An access point can start on a radio at a channel and width: on every channel they span,
with the width one of the band's where the hotspot chooses it. -/
structure Starts (radio : RadioInfo) (spot : Hotspot) (channel : Render.Channel) (width : Nat) :
    Prop where
  channels : ∃ span, Render.Hostapd.span channel width = some span ∧
    startable radio channel.band span = true
  widths : ∀ chosen, spot.channelWidth = some chosen →
    ∃ info, radio.band (bandOf channel.band) = some info ∧ chosen ∈ info.widths

/-- A hotspot placed runs as its radio offers: the radio's capabilities admit it, and an
access point can start on the radio at the channel and width rendered. -/
structure AsOffered (backend : Backend) (radios : List RadioInfo) (wired : List String)
    (json : Json.Map φ) (s : Selector φ) (placement : Placement) : Prop where
  admitted : check (pinned json placement.radio) (document radios wired backend) = .ok ()
  starts : ∃ spot, s.document.hotspot = some spot ∧
    ∃ radio ∈ radios, radio.station = placement.radio ∧
      ∃ channel width, Render.Hostapd.operating spot (radio.alongside == some .sharedChannel)
        s.selection.channels[radio.station]? = .ok (channel, width) ∧
      Starts radio spot channel width

/-- Every radio a document's hotspot may be placed on offers it what it takes by itself. -/
def HostsOffer (backend : Backend) (radios : List RadioInfo) (wired : List String)
    (document : Document φ) : Prop :=
  ∀ spot, document.hotspot = some spot → ∀ radio ∈ radios,
    selectRadio radio ∈ (selectHardware radios wired).hotspotHosts document spot →
      ∀ channel width, Render.Hostapd.operating spot false none = .ok (channel, width) →
        Offers backend radio spot channel width

end Checked

/-! ## The mirror of the radios -/

variable {backend : Backend} {radios : List RadioInfo} {wired : List String}

/-- The capabilities carry the mirror of a document. -/
theorem get_capabilities_document (radios : List RadioInfo) (wired : List String)
    (backend : Backend) :
    Json.get (capabilities (φ := φ) radios wired backend) "document" =
      some (.object (document radios wired backend)) := by
  unfold capabilities Json.collect Json.insertAll
  split <;> simp

/-- The members of a document the mirror constrains. -/
theorem names_document (radios : List RadioInfo) (wired : List String) (backend : Backend)
    (name : String) (hname : name ∈ (document (φ := φ) radios wired backend).map Prod.fst) :
    name ∈ ["attachments", "hotspot", "regulatory-domain"] := by
  unfold document at hname
  rw [List.map_append, List.map_append, List.mem_append, List.mem_append] at hname
  rcases hname with (hfirst | hhotspot) | hdomain
  · rw [List.mem_singleton.mp hfirst]
    simp
  · split at hhotspot
    · cases hhotspot
    · rw [List.mem_singleton.mp hhotspot]
      simp
  · split at hdomain
    · cases hdomain
    · rw [List.mem_singleton.mp hdomain]
      simp

/-- The mirror of a document is keyed by nothing of the document itself. -/
theorem nextSelector_document : nextSelector
    (⟨document (φ := φ) radios wired backend, []⟩ : Resolution φ) = none := by
  have hnone : ∀ name ∈ selectors,
      Json.get (document (φ := φ) radios wired backend) name = none := by
    intro name hname
    apply Json.get_eq_none
    intro hin
    have hmember := names_document radios wired backend name hin
    simp only [selectors, List.mem_cons, List.not_mem_nil, or_false] at hname hmember
    rcases hname with rfl | rfl | rfl
    · revert hmember
      decide
    · revert hmember
      decide
    · revert hmember
      decide
  apply List.findSome?_eq_none_iff.mpr
  intro name hname
  rw [hnone name hname]
  simp

/-- The mirror holds the hotspot to what the radios that can run one do. -/
theorem get_document_hotspot {key : String} {value : Json φ}
    (hkey : Json.get (Json.collect (hotspots radios backend)) key = some value) :
    Json.get (document (φ := φ) radios wired backend) "hotspot" =
      some (.object (hotspotConstraints radios backend)) := by
  have hsome : (hotspots (φ := φ) radios backend).isEmpty = false := by
    rw [List.isEmpty_eq_false_iff]
    intro hnil
    rw [hnil] at hkey
    cases hkey
  unfold document
  rw [hsome]
  simp [Json.get]

variable [BEq φ] [ToString φ]

/-- A document within the capabilities of some radios has its hotspot admitted. -/
theorem admitsObject_of_admits {json inner : Json.Map φ}
    (hadmits : admits json (capabilities radios wired backend) = .ok ())
    (hinner : Json.get json "hotspot" = some (.object inner)) {key : String} {value : Json φ}
    (hkey : Json.get (Json.collect (hotspots radios backend)) key = some value) :
    AdmitsObject Live .hotspot (hotspotConstraints radios backend) inner := by
  obtain ⟨⟨⟩, hmirror, -⟩ := Fallible.bind_ok.mp hadmits
  rw [get_capabilities_document] at hmirror
  have hcheck : check json (document radios wired backend) = .ok () := by
    unfold refusedBy at hmirror
    split at hmirror
    · assumption
    · cases hmirror
  obtain ⟨-, r, ⟨hbranch, -⟩, hmembers⟩ := admitsObject_iff.mp ((check_ok _ _).mp hcheck)
  rw [(branch_closed nextSelector_document).mp hbranch] at hmembers
  have hhotspot := hmembers _ (Json.mem_of_get hinner)
  have hvalue := (admitsMember_constrained (by simp [Json.isNull])
    (get_document_hotspot hkey)).mp hhotspot
  exact admitsValue_object.mp hvalue

/-- A hotspot admitted on a radio passes the capabilities there. -/
theorem check_pinned {json inner : Json.Map φ} {station : String}
    (hinner : Json.get json "hotspot" = some (.object inner)) {key : String} {value : Json φ}
    (hkey : Json.get (Json.collect (hotspots radios backend)) key = some value)
    (hadmits : AdmitsObject Live .hotspot (hotspotConstraints radios backend)
      (Json.insert inner "interface" (.string station))) :
    check (pinned json station) (document radios wired backend) = .ok () := by
  rw [check_ok]
  apply admitsObject_iff.mpr
  refine ⟨liveFrom_closed nextSelector_document, _, ⟨.here _, nextSelector_document⟩, ?_⟩
  intro member hmember
  rw [pinned, hinner] at hmember
  rw [List.mem_singleton.mp hmember]
  exact .constrained (get_document_hotspot hkey) (.object hadmits)

/-! ## The channel rendered -/

omit [BEq φ] [ToString φ] in
/-- A channel a selection carries is that of a client associated. -/
theorem associated_of_selection {s : Selector φ} {station : String} {channel : Render.Channel}
    (hchannel : s.selection.channels[station]? = some channel) :
    s.associated station = some channel := by
  have hmem := OrderedMap.mem_of_getElem?_ofList hchannel
  obtain ⟨radio, -, hradio⟩ := List.mem_filterMap.mp hmem
  obtain ⟨found, hfound, hpair⟩ := Option.map_eq_some_iff.mp hradio
  cases hpair
  exact hfound

omit [BEq φ] [ToString φ] in
/-- A hotspot on a channel of its own is rendered on what it takes by itself. -/
theorem operating_of_own {s : Selector φ} {host : Select.Radio} (hown : s.channelOn host = .own)
    (spot : Hotspot) :
    Render.Hostapd.operating spot (host.accessPoint == some .sharedChannel)
        s.selection.channels[host.station]? =
      Render.Hostapd.operating spot false none := by
  rcases Render.Hostapd.operating_cases spot (host.accessPoint == some .sharedChannel)
    s.selection.channels[host.station]? with ⟨channel, hshared, hstation, -⟩ | hsame
  · have hassociated := associated_of_selection hstation
    unfold Selector.associated at hassociated
    unfold Selector.channelOn at hown
    rcases hheld : s.held[host.station]? with _ | held
    · rw [hheld] at hassociated
      cases hassociated
    · rw [hheld] at hown
      simp only [hshared, if_true] at hown
      cases hown
  · exact hsame

/-! ## The hotspot placed -/

/-- Where every radio a document's hotspot may be placed on offers it what it takes by
itself, a hotspot on a channel of its own runs only as its radio offers. -/
theorem selecting_asOffered {subnets : Render.Subnets} {paths : Render.Paths}
    (hdistinct : (radios.map RadioInfo.station).Nodup) {s : Selector φ}
    (hreach : (selecting φ (selectHardware radios wired)).Reachable s) {json : Json.Map φ}
    (haccepted : Accepted backend subnets paths radios wired json s.document)
    (hhosts : HostsOffer backend radios wired s.document) {placement : Placement}
    (hplaced : s.decision.hotspot = some placement) (hown : placement.channel = .own) :
    AsOffered backend radios wired json s placement := by
  have hcurrent := Select.selecting_current hreach
  obtain ⟨spot, henabled, host, hhost, -, rfl⟩ := hcurrent.placed hplaced
  obtain ⟨hspot, -⟩ := Option.filter_eq_some_iff.mp henabled
  rw [hcurrent.hardware] at hhost
  have hradio := Select.Hardware.mem_radios_of_mem_hosts hhost
  have hable := Select.Hardware.accessPoint_of_mem_hosts hhost
  obtain ⟨radio, hprobed, rfl⟩ := List.mem_map.mp hradio
  obtain ⟨inner, hinner, hparse⟩ := Document.hotspot_of_parse haccepted.parsed hspot
  obtain ⟨channel, width, hoperating⟩ := Render.operating_of_isOk haccepted.renders hspot
  have hoffers := hhosts spot hspot radio hprobed hhost channel width hoperating
  have hkeyed := hoffers.keyed (φ := φ) hdistinct hprobed hable hoperating
  have hadmits := admitsObject_of_admits haccepted.admitted hinner hkeyed
  constructor
  · exact check_pinned hinner hkeyed (admits_pinned hdistinct hprobed hable hparse
      (haccepted.names inner hinner) hoperating hoffers hadmits)
  · refine ⟨spot, hspot, radio, hprobed, rfl, channel, width, ?_, hoffers.starts, ?_⟩
    · rw [← hoperating]
      exact operating_of_own hown spot
    · intro chosen hchosen
      obtain ⟨info, carried, hinfo, -, hwidths⟩ := hoffers.carried
      have hwidth := List.mem_of_mem_filter (List.mem_of_mem_filter (hwidths chosen hchosen))
      exact ⟨info, hinfo, hwidth⟩

/-! ### Two radios -/

/-- What a radio can do on the lower band. -/
def lower : Band × BandInfo :=
  (.twoPointFour,
    { channels := [⟨1, 2412, 40, false, false⟩, ⟨6, 2437, 40, false, false⟩]
      widths := [20, 40] })

/-- What a radio can do on the upper band. -/
def upper : Band × BandInfo :=
  (.five,
    { channels := [⟨36, 5180, 80, false, false⟩, ⟨40, 5200, 80, false, false⟩]
      widths := [20, 40] })

/-- A radio that runs a hotspot beside its client, on some bands. -/
def radioOn (station : String) (bands : List (Band × BandInfo)) : RadioInfo where
  station := station
  model := "radio"
  bands := bands
  alongside := some .independent
  sae := false
  scan := true
  survey := false

/-- A document of a hotspot on a channel of the upper band, on whichever radio. -/
def upperJson : Json.Map Nat :=
  [("attachments", .array []),
    ("hotspot", .object [
      ("channel", .number (.int 36)),
      ("enabled", .bool true),
      ("passphrase", .string "passphrase"),
      ("ssid", .string "hotspot")])]

/-- The hotspot of that document. -/
def upperHotspot : Hotspot where
  enabled := true
  ssid := "hotspot"
  passphrase := "passphrase"
  interface := none
  shareUpstream := none
  isolateClients := none
  dhcpRange := none
  band := none
  channel := some 36
  channelWidth := none

/-- That document. -/
def upperDocument : Document Nat where
  attachments := []
  hotspot := some upperHotspot
  regulatoryDomain := none

/-- Two radios, of which only the second carries the upper band. -/
def unlike : List RadioInfo :=
  [radioOn "wlan0" [lower], radioOn "wlan1" [lower, upper]]

/-- Two radios that carry both. -/
def alike : List RadioInfo :=
  [radioOn "wlan0" [lower, upper], radioOn "wlan1" [lower, upper]]

/-- The document is accepted on the radios that are unlike. -/
theorem accepted_unlike :
    Accepted .stack Render.slashed .system unlike [] upperJson upperDocument where
  names := by
    intro inner hinner
    cases hinner
    decide
  parsed := rfl
  admitted := by decide
  selected := rfl
  fits := by
    intro spot hspot
    cases hspot
    rfl
  renders := by decide

/-- The document is accepted on the radios that are alike. -/
theorem accepted_alike :
    Accepted .stack Render.slashed .system alike [] upperJson upperDocument where
  names := by
    intro inner hinner
    cases hinner
    decide
  parsed := rfl
  admitted := by decide
  selected := rfl
  fits := by
    intro spot hspot
    cases hspot
    rfl
  renders := by decide

/-- Nothing yet observed, the hotspot is placed on the first radio, which does not offer
it. -/
theorem selecting_notOffered :
    ∃ s : Selector Nat, (selecting Nat (selectHardware unlike [])).Reachable s ∧
      Accepted .stack Render.slashed .system unlike [] upperJson s.document ∧
      ∃ placement, s.decision.hotspot = some placement ∧ placement.channel = .own ∧
        ¬ AsOffered .stack unlike [] upperJson s placement := by
  obtain ⟨start, hnew⟩ : ∃ start : Selector Nat,
      Selector.new (selectHardware unlike []) upperDocument = .ok start :=
    ⟨_, rfl⟩
  have hstart : start = (Selector.new (selectHardware unlike [])
      upperDocument).toOption.get (by decide) := by
    simp [hnew, Except.toOption]
  have hdocument : start.document = upperDocument := by
    rw [hstart]
    rfl
  have hplaced : start.decision.hotspot = some ⟨"wlan0", .own⟩ := by
    rw [hstart]
    decide
  refine ⟨start, .start ⟨upperDocument, hnew⟩, ?_, _, hplaced, rfl, fun hoffered => ?_⟩
  · rw [hdocument]
    exact accepted_unlike
  · have hrefused : (check (pinned upperJson "wlan0")
        (document unlike [] .stack)).isOk = false := by
      decide
    rw [hoffered.admitted] at hrefused
    cases hrefused

/-- On radios that both offer it, the hotspot runs as the first of them does. -/
theorem selecting_asOffered_alike :
    ∃ s : Selector Nat, (selecting Nat (selectHardware alike [])).Reachable s ∧
      ∃ placement, s.decision.hotspot = some placement ∧
        AsOffered .stack alike [] upperJson s placement := by
  obtain ⟨start, hnew⟩ : ∃ start : Selector Nat,
      Selector.new (selectHardware alike []) upperDocument = .ok start :=
    ⟨_, rfl⟩
  have hstart : start = (Selector.new (selectHardware alike [])
      upperDocument).toOption.get (by decide) := by
    simp [hnew, Except.toOption]
  have hdocument : start.document = upperDocument := by
    rw [hstart]
    rfl
  have hplaced : start.decision.hotspot = some ⟨"wlan0", .own⟩ := by
    rw [hstart]
    decide
  have haccepted : Accepted .stack Render.slashed .system alike [] upperJson start.document := by
    rw [hdocument]
    exact accepted_alike
  have hhosts : HostsOffer .stack alike [] start.document := by
    rw [hdocument]
    intro spot hspot radio hradio _ channel width hoperating
    cases hspot
    have hown : Render.Hostapd.operating upperHotspot false none = .ok (⟨.five, 36⟩, 20) := by
      decide
    obtain ⟨rfl, rfl⟩ := Prod.mk.inj (Except.ok.inj (hoperating.symm.trans hown))
    simp only [alike, List.mem_cons, List.not_mem_nil, or_false] at hradio
    rcases hradio with rfl | rfl
    · exact ⟨⟨[36], rfl, by decide⟩, _, _, rfl, rfl, by simp [upperHotspot]⟩
    · exact ⟨⟨[36], rfl, by decide⟩, _, _, rfl, rfl, by simp [upperHotspot]⟩
  exact ⟨start, .start ⟨upperDocument, hnew⟩, _, hplaced,
    selecting_asOffered (by decide) (.start ⟨upperDocument, hnew⟩) haccepted hhosts hplaced rfl⟩

end Bliti.Network.Stack
