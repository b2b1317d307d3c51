import Bliti.Channel.Capabilities.Admits
import Bliti.Channel.Config.Parse
import Bliti.Network.Probe.Capabilities

/-!
# Probing - what a radio offers a hotspot

Whether a radio offers the channel and width a hotspot takes by itself, and what
that comes to in the capabilities: a hotspot the mirror admits on some radio is
admitted on any other that offers it.
-/

namespace Bliti.Network.Probe

open Channel.Config Channel.Capabilities

variable {φ : Type}

/-! ## Offering -/

/-- A radio offers a hotspot a channel and width: an access point can start on every channel
they span, the stack carries the band, and the width is one of the band's where the hotspot
chooses it. -/
structure Offers (backend : Backend) (radio : RadioInfo) (spot : Hotspot)
    (channel : Render.Channel) (width : Nat) : Prop where
  starts : ∃ span, Render.Hostapd.span channel width = some span ∧
    startable radio channel.band span = true
  carried : ∃ info carried, radio.band (bandOf channel.band) = some info ∧
    backend.hotspot (bandOf channel.band) = some carried ∧
    ∀ chosen, spot.channelWidth = some chosen →
      chosen ∈ offeredWidths (bandOf channel.band) info carried

/-- A band is rendered by the name it is offered by. -/
theorem hotspotChannel_bandOf (band : Render.Band) (number : Nat) :
    Render.hotspotChannel (bandOf band).asStr number = Render.Hostapd.isChannel band number := by
  cases band <;> rfl

/-- A channel offered is one of the band's. -/
theorem Offers.mem_channels {backend : Backend} {radio : RadioInfo} {spot : Hotspot}
    {channel : Render.Channel} {width : Nat} (hoffers : Offers backend radio spot channel width)
    (hchannel : Render.Hostapd.isChannel channel.band channel.number = true) {info : BandInfo}
    (hinfo : radio.band (bandOf channel.band) = some info) :
    channel.number ∈ (offeredChannels (bandOf channel.band) info).map Channel.number := by
  obtain ⟨span, hspan, hstarts⟩ := hoffers.starts
  unfold startable at hstarts
  rw [hinfo] at hstarts
  have hown := List.all_eq_true.mp hstarts _ (Render.Hostapd.mem_span hspan)
  obtain ⟨c, hc, hboth⟩ := List.any_eq_true.mp hown
  simp only [Bool.and_eq_true, beq_iff_eq] at hboth
  obtain ⟨hnumber, hstart⟩ := hboth
  refine List.mem_map.mpr ⟨c, ?_, hnumber⟩
  unfold offeredChannels
  rw [List.mem_filter, List.mem_filter, hnumber, hotspotChannel_bandOf]
  exact ⟨⟨hc, hstart⟩, hchannel⟩

/-! ## What the mirror keys -/

/-- Members made of some items under names of their own have those names. -/
theorem nodup_filterMap_names {α β : Type} {items : List α} (name : α → String)
    {f : α → Option (String × β)} (hdistinct : (items.map name).Nodup)
    (hname : ∀ a entry, f a = some entry → entry.1 = name a) :
    ((items.filterMap f).map Prod.fst).Nodup := by
  have hsublist : List.Sublist ((items.filterMap f).map Prod.fst) (items.map name) := by
    induction items with
    | nil => simp
    | cons a rest ih =>
        have hrest := ih (List.nodup_cons.mp hdistinct).2
        rcases hf : f a with _ | entry
        · rw [List.filterMap_cons_none hf]
          exact hrest.cons _
        · rw [List.filterMap_cons_some hf, List.map_cons, hname a entry hf, List.map_cons]
          exact hrest.cons_cons _
  exact hsublist.nodup hdistinct

/-- What a band of a radio may carry, as the mirror has it. -/
def bandConstraints (band : Band) (info : BandInfo) (carried : List Nat) : Json.Map φ :=
  [("channel", numbers ((offeredChannels band info).map Channel.number)),
    ("channel-width", numbers (offeredWidths band info carried))]

/-- The bands of a radio, as the mirror keys them. -/
def bands (radio : RadioInfo) (backend : Backend) : Json.Map φ :=
  Json.collect (allBands.filterMap (hotspotBand radio backend))

/-- A band is keyed by its name, with what it may carry. -/
theorem hotspotBand_cases {radio : RadioInfo} {backend : Backend} {band : Band}
    {entry : String × Json φ} (hentry : hotspotBand radio backend band = some entry) :
    ∃ info carried, entry = (band.asStr, .object (bandConstraints band info carried)) := by
  unfold hotspotBand at hentry
  obtain ⟨info, -, hentry⟩ := Option.bind_eq_some_iff.mp hentry
  obtain ⟨carried, -, hentry⟩ := Option.bind_eq_some_iff.mp hentry
  split at hentry
  · cases hentry
  · exact ⟨info, carried, (Option.some.inj hentry).symm⟩

/-- Every band keyed is held to a channel and a width. -/
theorem mem_bands {radio : RadioInfo} {backend : Backend} {key : String} {value : Json φ}
    (hkey : (key, value) ∈ bands radio backend) :
    ∃ band info carried, value = .object (bandConstraints band info carried) := by
  obtain ⟨band, -, hband⟩ := List.mem_filterMap.mp (Json.mem_collect hkey)
  obtain ⟨info, carried, hentry⟩ := hotspotBand_cases hband
  exact ⟨band, info, carried, congrArg Prod.snd hentry⟩

/-- A band that offers a channel is keyed. -/
theorem get_bands {radio : RadioInfo} {backend : Backend} {band : Band} {info : BandInfo}
    {carried : List Nat} (hinfo : radio.band band = some info)
    (hcarried : backend.hotspot band = some carried)
    (hchannels : offeredChannels band info ≠ []) :
    Json.get (bands (φ := φ) radio backend) band.asStr =
      some (.object (bandConstraints band info carried)) := by
  apply Json.get_insertAll_of_mem
  · exact nodup_filterMap_names Band.asStr (by decide) fun band entry hentry => by
      obtain ⟨info, carried, rfl⟩ := hotspotBand_cases hentry
      rfl
  · refine List.mem_filterMap.mpr ⟨band, by cases band <;> decide, ?_⟩
    simp [hotspotBand, hinfo, hcarried, hchannels, bandConstraints]

/-- A radio is keyed with its bands, or with nothing. -/
theorem hotspot_cases {radio : RadioInfo} {backend : Backend} {offered : Json.Map φ}
    (hoffered : hotspot radio backend = some offered) :
    offered = [("band", .object (bands radio backend))] ∨ offered = [] := by
  unfold hotspot at hoffered
  obtain ⟨alongside, -, hoffered⟩ := Option.bind_eq_some_iff.mp hoffered
  simp only at hoffered
  split at hoffered
  · exact .inl (Option.some.inj hoffered).symm
  · split at hoffered
    · exact .inr (Option.some.inj hoffered).symm
    · cases hoffered

/-- A radio that carries a band is keyed with its bands. -/
theorem get_hotspots {radios : List RadioInfo} {backend : Backend}
    (hdistinct : (radios.map RadioInfo.station).Nodup) {radio : RadioInfo}
    (hradio : radio ∈ radios) (hable : radio.alongside.isSome = true) {key : String}
    {value : Json φ} (hbands : Json.get (bands radio backend) key = some value) :
    Json.get (Json.collect (hotspots (φ := φ) radios backend)) radio.station =
      some (.object [("band", .object (bands radio backend))]) := by
  apply Json.get_insertAll_of_mem
  · refine nodup_filterMap_names RadioInfo.station hdistinct fun other entry hentry => ?_
    obtain ⟨offered, -, rfl⟩ := Option.map_eq_some_iff.mp hentry
    rfl
  · obtain ⟨alongside, halongside⟩ := Option.isSome_iff_exists.mp hable
    have hsome : (bands (φ := φ) radio backend).isEmpty = false := by
      rw [List.isEmpty_eq_false_iff]
      intro hnil
      rw [hnil] at hbands
      cases hbands
    have hoffered : hotspot (φ := φ) radio backend =
        some [("band", .object (bands radio backend))] := by
      unfold bands at hsome ⊢
      simp [hotspot, halongside, hsome]
    exact List.mem_filterMap.mpr ⟨radio, hradio, by rw [hoffered]; rfl⟩

/-- A radio that offers a hotspot is keyed with its bands, the band of the channel among
them. -/
theorem Offers.keyed_band {backend : Backend} {radio : RadioInfo} {spot : Hotspot}
    {channel : Render.Channel} {width : Nat} (hoffers : Offers backend radio spot channel width)
    (hown : Render.Hostapd.operating spot false none = .ok (channel, width)) {info : BandInfo}
    {carried : List Nat} (hinfo : radio.band (bandOf channel.band) = some info)
    (hcarried : backend.hotspot (bandOf channel.band) = some carried) :
    Json.get (bands (φ := φ) radio backend) (bandOf channel.band).asStr =
      some (.object (bandConstraints (bandOf channel.band) info carried)) := by
  have hoffered := hoffers.mem_channels (Render.Hostapd.operating_own hown).1 hinfo
  apply get_bands hinfo hcarried
  intro hnil
  rw [hnil] at hoffered
  cases hoffered

/-- A radio that offers a hotspot is keyed with its bands. -/
theorem Offers.keyed {radios : List RadioInfo} {backend : Backend} {radio : RadioInfo}
    {spot : Hotspot} {channel : Render.Channel} {width : Nat}
    (hoffers : Offers backend radio spot channel width)
    (hdistinct : (radios.map RadioInfo.station).Nodup) (hradio : radio ∈ radios)
    (hable : radio.alongside.isSome = true)
    (hown : Render.Hostapd.operating spot false none = .ok (channel, width)) :
    Json.get (Json.collect (hotspots (φ := φ) radios backend)) radio.station =
      some (.object [("band", .object (bands radio backend))]) := by
  obtain ⟨info, carried, hinfo, hcarried, -⟩ := hoffers.carried
  exact get_hotspots hdistinct hradio hable (hoffers.keyed_band hown hinfo hcarried)

/-! ## Taking the keys of a radio and a band -/

/-- The members of a hotspot that differ by radio. -/
def differing : List String := ["interface", "band", "channel", "channel-width"]

/-- Constraints that hold the other members of a hotspot to what every radio does. -/
def Common (radios : List RadioInfo) (backend : Backend) (r : Resolution φ) : Prop :=
  ∀ name, name ∉ differing →
    Json.get r.constraints name = Json.get (hotspotConstraints radios backend) name ∧
      name ∉ r.consumed

/-- Taking a key of a member that differs by radio holds the others to what they were. -/
theorem Common.under {radios : List RadioInfo} {backend : Backend} {r : Resolution φ}
    (hcommon : Common radios backend r) {selector : String} (hselector : selector ∈ differing)
    {laid : Json.Map φ} (hlaid : ∀ name ∈ laid.map Prod.fst, name ∈ differing) :
    Common radios backend (r.under selector laid) := by
  intro name hname
  obtain ⟨hget, hconsumed⟩ := hcommon name hname
  have hother : ¬ selector = name := fun hsame => hname (hsame ▸ hselector)
  constructor
  · have hkept : Json.get (r.under selector laid).constraints name =
        Json.get (Json.remove r.constraints selector) name :=
      Json.get_insertAll_of_not_mem fun hin => hname (hlaid name hin)
    rw [hkept, Json.get_remove, if_neg hother, hget]
  · rw [Resolution.under, List.mem_append, List.mem_singleton, not_or]
    exact ⟨hconsumed, fun hsame => hother hsame.symm⟩

variable {radios : List RadioInfo} {backend : Backend}

/-- The constraints of a hotspot before any key is taken. -/
def start (radios : List RadioInfo) (backend : Backend) : Resolution φ :=
  ⟨hotspotConstraints radios backend, []⟩

/-- The constraints of a hotspot on a radio. -/
def onRadio (radios : List RadioInfo) (backend : Backend) (radio : RadioInfo) : Resolution φ :=
  (start radios backend).under "interface" [("band", .object (bands radio backend))]

/-- The constraints of a hotspot on a band of a radio. -/
def onBand (radios : List RadioInfo) (backend : Backend) (radio : RadioInfo)
    (constraints : Json.Map φ) : Resolution φ :=
  (onRadio radios backend radio).under "band" constraints

/-- The constraints of a hotspot, member by member. -/
theorem get_hotspotConstraints (name : String) :
    Json.get (hotspotConstraints (φ := φ) radios backend) name =
      if "dhcp-range" = name then some (.bool true)
      else if "interface" = name then some (.object (Json.collect (hotspots radios backend)))
      else if "isolate-clients" = name then some (.bool true)
      else if "share-upstream" = name then some (.bool true)
      else none :=
  rfl

/-- The radio is the first key taken. -/
theorem nextSelector_start : nextSelector (start (φ := φ) radios backend) =
    some ("interface", Json.collect (hotspots radios backend)) := by
  simp [nextSelector, selectors, start, get_hotspotConstraints, Json.asObject]

/-- The band is the second. -/
theorem nextSelector_onRadio (radio : RadioInfo) :
    nextSelector (onRadio (φ := φ) radios backend radio) =
      some ("band", bands radio backend) := by
  simp [nextSelector, selectors, onRadio, start, Resolution.under, merged,
    get_hotspotConstraints, Json.asObject]

/-- A radio with no bands leaves no key to take. -/
theorem nextSelector_bare :
    nextSelector ((start (φ := φ) radios backend).under "interface" []) = none := by
  simp [nextSelector, selectors, start, Resolution.under, merged, get_hotspotConstraints]

/-- A band leaves no key to take. -/
theorem nextSelector_onBand (radio : RadioInfo) (band : Band) (info : BandInfo)
    (carried : List Nat) :
    nextSelector (onBand (φ := φ) radios backend radio (bandConstraints band info carried)) =
      none := by
  simp [nextSelector, selectors, onBand, onRadio, start, Resolution.under, merged,
    get_hotspotConstraints, bandConstraints]

/-- Nothing taken, the constraints are what every radio does. -/
theorem common_start : Common (φ := φ) radios backend (start radios backend) := by
  intro name hname
  exact ⟨rfl, by simp [start]⟩

/-- On a band of a radio, the other members are held to what every radio does. -/
theorem common_onBand (radio : RadioInfo) (band : Band) (info : BandInfo) (carried : List Nat) :
    Common (φ := φ) radios backend
      (onBand radios backend radio (bandConstraints band info carried)) := by
  have honRadio : Common (φ := φ) radios backend (onRadio radios backend radio) :=
    common_start.under (by simp [differing]) (by simp [differing])
  exact honRadio.under (by simp [differing]) (by simp [bandConstraints, differing])

/-! ## Members as they are read -/

/-- A band is named as it is offered. -/
theorem asStr_bandOf {name : String} {band : Render.Band}
    (hband : Render.Hostapd.band name = .ok band) : name = (bandOf band).asStr := by
  unfold Render.Hostapd.band at hband
  split at hband
  · rename_i hname
    cases hband
    exact hname
  · split at hband
    · rename_i hname
      cases hband
      exact hname
    · cases hband

/-- A whole number read of a member is its value, and nothing is read of a null one. -/
theorem number_of_u32Member {map : Json.Map φ} {member : String} {found : Option Nat}
    (hfound : u32Member map member = .ok found) {value : Json φ}
    (hget : Json.get map member = some value) :
    value = .null ∨ ∃ n, found = some n ∧ value = .number (.int n) := by
  rcases optionalMember_cases hfound with ⟨-, hunset⟩ | ⟨read, n, hread, -, hvalue, hsome⟩
  · rw [hget] at hunset
    cases value with
    | null => exact .inl rfl
    | _ => cases hunset
  · rw [hget] at hread
    cases hread
    exact .inr ⟨n, hsome, eq_of_readU32 hvalue⟩

variable [ToString φ]

/-- What is taken is under one of the keys. -/
theorem key_of_takes {document keyed laid : Json.Map φ} {selector : String}
    (htakes : Takes document selector keyed laid) : ∃ key, (key, Json.object laid) ∈ keyed := by
  unfold Takes at htakes
  split at htakes
  · exact htakes
  · exact ⟨_, Json.mem_of_get htakes⟩

/-- However a hotspot's keys are taken, its other members are held to what every radio
does. -/
theorem common_of_lays {inner : Json.Map φ} {r : Resolution φ}
    (hlays : Lays inner (hotspotConstraints radios backend) r) : Common radios backend r := by
  obtain ⟨hbranch, hclosed⟩ := hlays
  rcases (branch_open nextSelector_start).mp hbranch with rfl | ⟨laid, htakes, hbranch⟩
  · exact absurd hclosed (by rw [nextSelector_start]; simp)
  obtain ⟨key, hkey⟩ := key_of_takes htakes
  obtain ⟨radio, -, hentry⟩ := List.mem_filterMap.mp (Json.mem_collect hkey)
  obtain ⟨offered, hoffered, hpair⟩ := Option.map_eq_some_iff.mp hentry
  cases hpair
  rcases hotspot_cases hoffered with rfl | rfl
  · rcases (branch_open (nextSelector_onRadio radio)).mp hbranch with rfl | ⟨laid, htakes, hbranch⟩
    · exact absurd hclosed (by rw [nextSelector_onRadio]; simp)
    obtain ⟨key, hkey⟩ := key_of_takes htakes
    obtain ⟨band, info, carried, hvalue⟩ := mem_bands hkey
    cases hvalue
    rw [(branch_closed (nextSelector_onBand radio band info carried)).mp hbranch]
    exact common_onBand radio band info carried
  · rw [(branch_closed nextSelector_bare).mp hbranch]
    exact common_start.under (by simp [differing]) (by simp)

/-! ## A hotspot on a radio that offers it -/

variable {radio : RadioInfo} {inner : Json.Map φ} {spot : Hotspot} {channel : Render.Channel}
  {width : Nat} {info : BandInfo} {carried : List Nat}

/-- A hotspot on a radio takes the radio's key. -/
theorem takes_radio {offered laid : Json.Map φ}
    (hkeyed : Json.get (Json.collect (hotspots radios backend)) radio.station =
      some (.object offered)) :
    Takes (Json.insert inner "interface" (.string radio.station)) "interface"
      (Json.collect (hotspots radios backend)) laid ↔ laid = offered := by
  unfold Takes
  rw [Json.get_insert, if_pos rfl]
  change Json.get _ radio.station = some (.object laid) ↔ laid = offered
  rw [hkeyed]
  simp [eq_comm]

/-- A hotspot takes the key of the band it is on. -/
theorem takes_band (hparse : Hotspot.parse inner = .ok spot)
    (hown : Render.Hostapd.operating spot false none = .ok (channel, width))
    {constraints : Json.Map φ}
    (hkeyed : Json.get (bands radio backend) (bandOf channel.band).asStr =
      some (.object constraints)) :
    Takes (Json.insert inner "interface" (.string radio.station)) "band" (bands radio backend)
      constraints := by
  obtain ⟨hband, -, -⟩ := Hotspot.chosen_of_parse hparse
  unfold Takes
  rw [Json.get_insert, if_neg (by decide)]
  rcases optionalMember_cases hband with ⟨-, hunset⟩ | ⟨value, name, hget, hsome, hread, hname⟩
  · rw [hunset]
    exact ⟨_, Json.mem_of_get hkeyed⟩
  · have hvalue := eq_of_asStr hread
    have hnamed : name = (bandOf channel.band).asStr :=
      asStr_bandOf ((Render.Hostapd.operating_own hown).2.2.1 name hname)
    rw [hget, hvalue, hnamed]
    exact hkeyed

/-- Every key of a hotspot on a radio that carries its band can be taken. -/
theorem live_pinned {constraints pinned : Json.Map φ}
    (hradio : ∀ laid : Json.Map φ, Takes pinned "interface"
      (Json.collect (hotspots radios backend)) laid ↔
        laid = [("band", .object (bands radio backend))])
    (hband : Takes pinned "band" (bands radio backend) constraints) :
    Live pinned (hotspotConstraints radios backend) := by
  apply (liveFrom_open nextSelector_start).mpr
  refine ⟨⟨_, (hradio _).mpr rfl⟩, fun laid htakes => ?_⟩
  rw [(hradio laid).mp htakes]
  apply (liveFrom_open (nextSelector_onRadio radio)).mpr
  refine ⟨⟨_, hband⟩, fun laid htakes => ?_⟩
  obtain ⟨key, hkey⟩ := key_of_takes htakes
  obtain ⟨band, info, carried, hvalue⟩ := mem_bands hkey
  cases hvalue
  exact liveFrom_closed (nextSelector_onBand radio band info carried)

variable [BEq φ]

/-- A member held to what every radio does is admitted however the keys are taken. -/
theorem Common.admits {r r' : Resolution φ} (hcommon : Common radios backend r)
    (hcommon' : Common radios backend r') {kind : Option String} {name : String}
    {value : Json φ} (hname : name ∉ differing)
    (hadmits : AdmitsMember Live .hotspot r kind (name, value)) :
    AdmitsMember Live .hotspot r' kind (name, value) := by
  obtain ⟨hget, hconsumed⟩ := hcommon name hname
  obtain ⟨hget', -⟩ := hcommon' name hname
  have hsame : Json.get r'.constraints name = Json.get r.constraints name := hget'.trans hget.symm
  cases hadmits with
  | null => exact .null name
  | selector _ htaken => exact absurd htaken hconsumed
  | plain hfree hrequired hplain => exact .plain (hsame.trans hfree) hrequired hplain
  | holding hfree hrequired hvalue => exact .holding (hsame.trans hfree) hrequired hvalue
  | constrained hconstraint hvalue => exact .constrained (hsame.trans hconstraint) hvalue

/-- A number that is listed is admitted. -/
theorem admitsValue_number {context : Context} {items : List Nat} {n : Nat} (hn : n ∈ items) :
    AdmitsValue (φ := φ) Live context (numbers items) (.number (.int n)) := by
  refine .listed (by simp) ?_
  rw [List.contains_iff_exists_mem_beq]
  exact ⟨.number (.int n), List.mem_map.mpr ⟨n, hn, rfl⟩, by
    show Json.beq (Json.number (.int n)) (Json.number (.int n)) = true
    simp [Json.beq, BEq.beq, instBEqNumber.beq]⟩

/-- A member of a hotspot is admitted on a radio that offers the hotspot, where it is held
to what every radio does or chooses what the radio offers. -/
theorem admitsMember_onBand (hparse : Hotspot.parse inner = .ok spot)
    (hnames : (inner.map Prod.fst).Nodup)
    (hchannels : ∀ number, spot.channel = some number →
      number ∈ (offeredChannels (bandOf channel.band) info).map Channel.number)
    (hwidths : ∀ chosen, spot.channelWidth = some chosen →
      chosen ∈ offeredWidths (bandOf channel.band) info carried)
    {r : Resolution φ} (hcommon : Common radios backend r) {kind : Option String}
    {name : String} {value : Json φ} (hmember : (name, value) ∈ inner)
    (hadmits : AdmitsMember Live .hotspot r kind (name, value)) :
    AdmitsMember Live .hotspot
      (onBand radios backend radio (bandConstraints (bandOf channel.band) info carried)) kind
      (name, value) := by
  obtain ⟨-, hchannel, hwidth⟩ := Hotspot.chosen_of_parse hparse
  have hget := Json.get_of_mem hnames hmember
  by_cases hname : name ∈ differing
  · simp only [differing, List.mem_cons, List.not_mem_nil, or_false] at hname
    rcases hname with rfl | rfl | rfl | rfl
    · exact .selector value (by simp [onBand, onRadio, start, Resolution.under])
    · exact .selector value (by simp [onBand, onRadio, start, Resolution.under])
    · rcases number_of_u32Member hchannel hget with rfl | ⟨number, hchosen, rfl⟩
      · exact .null _
      · refine .constrained ?_ (admitsValue_number (hchannels number hchosen))
        simp [onBand, Resolution.under, merged, bandConstraints]
    · rcases number_of_u32Member hwidth hget with rfl | ⟨number, hchosen, rfl⟩
      · exact .null _
      · refine .constrained ?_ (admitsValue_number (hwidths number hchosen))
        simp [onBand, Resolution.under, merged, bandConstraints]
  · exact hcommon.admits (common_onBand radio _ info carried) hname hadmits

/-- The mirror admits on a radio that offers it a hotspot it admits at all. -/
theorem admits_pinned (hdistinct : (radios.map RadioInfo.station).Nodup)
    (hradio : radio ∈ radios) (hable : radio.alongside.isSome = true)
    (hparse : Hotspot.parse inner = .ok spot) (hnames : (inner.map Prod.fst).Nodup)
    (hown : Render.Hostapd.operating spot false none = .ok (channel, width))
    (hoffers : Offers backend radio spot channel width)
    (hadmits : AdmitsObject Live .hotspot (hotspotConstraints radios backend) inner) :
    AdmitsObject Live .hotspot (hotspotConstraints radios backend)
      (Json.insert inner "interface" (.string radio.station)) := by
  obtain ⟨-, r, hlays, hmembers⟩ := admitsObject_iff.mp hadmits
  have hcommon := common_of_lays hlays
  obtain ⟨info, carried, hinfo, hcarried, hwidths⟩ := hoffers.carried
  obtain ⟨hchannel, -, -, hnumber⟩ := Render.Hostapd.operating_own hown
  have hoffered := hoffers.mem_channels hchannel hinfo
  have hkeyed := hoffers.keyed (φ := φ) hdistinct hradio hable hown
  have htakes := takes_band hparse hown (hoffers.keyed_band hown hinfo hcarried)
  have hlive := live_pinned (fun laid => takes_radio hkeyed) htakes
  refine admitsObject_iff.mpr ⟨hlive, _,
    ⟨.under nextSelector_start ((takes_radio hkeyed).mpr rfl)
      (.under (nextSelector_onRadio radio) htakes (.here _)),
      nextSelector_onBand radio _ info carried⟩, ?_⟩
  intro member hmember
  obtain ⟨name, value⟩ := member
  have hkind : kindOf (Json.insert inner "interface" (.string radio.station)) = kindOf inner := by
    simp [kindOf]
  rw [hkind]
  rcases Json.mem_insert hmember with hpin | hheld
  · cases hpin
    exact .selector _ (by simp [Resolution.under])
  · refine admitsMember_onBand hparse hnames (fun number hchosen => ?_) hwidths hcommon hheld
      (hmembers _ hheld)
    rw [← hnumber number hchosen]
    exact hoffered

end Bliti.Network.Probe
