import Bliti.Network.Select.Prefer
import Bliti.Network.Stack.Named

/-!
# The network stack - the rules on the radios, written twice

A document's rules on its radios are written once over its JSON and the
capabilities, and once more over the typed document and the hardware.  What the
first admit the second can carry out, except where the one radio left to a hotspot
that chooses its channel is the one radio a wireless candidate may go on.

Main results:

- Theorem `rulesAgree_iff`: the rules agree on a document exactly where it strands
  no candidate.
-/

namespace Bliti.Network.Stack

open Std (ExtTreeMap)
open Channel.Config Channel.Capabilities Probe
open Select (Selector)

variable {φ : Type}

/-! ## What the rules are to agree on -/

/-- A wireless candidate of a document that is turned on, with the network it joins. -/
def Joins (written : Document φ) (attachment : Attachment φ) (network : Wireless φ) : Prop :=
  attachment ∈ written.attachments ∧ attachment.enabled = true ∧
    attachment.kind = .wireless network

/-- Selection can carry out a hotspot beside the wireless candidates of its document: some
radio may host it, and each candidate by itself has a radio to take that leaves it one. -/
structure Carried (hardware : Select.Hardware) (written : Document φ) (spot : Hotspot) :
    Prop where
  hosted : hardware.hotspotHosts written spot ≠ []
  spared : ∀ attachment network, Joins written attachment network →
    ∃ radio ∈ hardware.radiosFor network.interface, ∀ s : Selector φ,
      s.hardware = hardware → s.document = written → s.sparesHotspot radio ∅ = true

/-- The rules of selection accept what a document asks of the radios: none is broken, and a
hotspot turned on can be carried out. -/
structure RulesAgree (hardware : Select.Hardware) (written : Document φ) : Prop where
  selected : Select.check written hardware = .ok ()
  carried : ∀ spot, written.enabledHotspot = some spot → hardware.hotspotRadios spot ≠ [] →
    Carried hardware written spot

/-- A hotspot that chooses its channel and names no radio, and a candidate that names a
radio running one at a time: every other radio able to run the hotspot would do so on the
channel of another candidate. -/
structure Stranded (radios : List RadioInfo) (written : Document φ) (spot : Hotspot) : Prop where
  unnamed : spot.interface = none
  chooses : Select.Hardware.chooses spot = true
  kept : ∃ attachment network, Joins written attachment network ∧ ∃ radio ∈ radios,
    network.interface = some radio.station ∧ radio.alongside = some .oneAtATime ∧
      ∀ other ∈ radios, other ≠ radio → other.alongside.isSome = true →
        other.alongside = some .sharedChannel ∧
          written.attachments.any (Select.Hardware.mayTake (selectRadio other)) = true

/-! ## The radios the rules read -/

variable {backend : Backend} {radios : List RadioInfo} {wired : List String}

/-- A member found by its name among members read one by one. -/
theorem find?_map_get {α : Type} (map : Json.Map φ) (read : Json φ → Option α) (name : String) :
    ((map.map fun member => (member.1, read member.2)).find?
      fun entry => entry.1 == name).bind Prod.snd = (Json.get map name).bind read := by
  induction map with
  | nil => rfl
  | cons member rest ih =>
      obtain ⟨other, value⟩ := member
      by_cases hsame : other = name
      · simp [Json.get, hsame]
      · simpa [Json.get, hsame] using ih

/-- The radios as the capabilities describe them. -/
def described (radios : List RadioInfo) : Json.Map φ :=
  Json.collect (radios.map fun radio => (radio.station, .object (describe radio)))

/-- The capabilities describe the radios. -/
theorem get_capabilities_radios (radios : List RadioInfo) (wired : List String)
    (backend : Backend) :
    ((Json.get (capabilities (φ := φ) radios wired backend) "radios").bind
      Json.asObject).getD [] = described radios := by
  unfold capabilities Json.collect Json.insertAll
  split
  · rename_i hnone
    simp [List.isEmpty_iff.mp hnone, described, Json.collect, Json.insertAll, Json.get]
  · simp [described, Json.collect, Json.insertAll, Json.asObject]

/-- A radio described is found by its station. -/
theorem get_described (hdistinct : (radios.map RadioInfo.station).Nodup) {radio : RadioInfo}
    (hradio : radio ∈ radios) :
    Json.get (described (φ := φ) radios) radio.station = some (.object (describe radio)) := by
  apply Json.get_insertAll_of_mem
  · rw [List.map_map]
    exact hdistinct
  · exact List.mem_map.mpr ⟨radio, hradio, rfl⟩

/-- A name described is the station of a radio. -/
theorem mem_described {name : String} (hname : name ∈ (described (φ := φ) radios).map Prod.fst) :
    ∃ radio ∈ radios, radio.station = name := by
  obtain ⟨member, hmember, rfl⟩ := List.mem_map.mp hname
  obtain ⟨radio, hradio, rfl⟩ := List.mem_map.mp (Json.mem_collect hmember)
  exact ⟨radio, hradio, rfl⟩

/-- How a radio runs an access point beside a client is described with it. -/
theorem get_describe (radio : RadioInfo) :
    (Json.get (describe (φ := φ) radio) "alongside").bind Json.asStr =
      radio.alongside.map alongsideStr := by
  unfold describe Json.collect Json.insertAll
  cases radio.alongside <;> simp [Json.get, Json.asStr]

/-- No two ways of running an access point are described alike. -/
theorem alongsideStr_inj {one other : Select.Alongside} :
    alongsideStr one = alongsideStr other ↔ one = other := by
  cases one <;> cases other <;> simp [alongsideStr]

/-- The radios of the capabilities. -/
def known (φ : Type) (radios : List RadioInfo) (wired : List String) (backend : Backend) :
    Radios :=
  Radios.of (capabilities (φ := φ) radios wired backend)

/-- How a radio described runs an access point beside a client. -/
def readAlongside (value : Json φ) : Option String :=
  value.asObject.bind fun radio => (Json.get radio "alongside").bind Json.asStr

/-- The radios known are those described. -/
theorem all_known :
    (known φ radios wired backend).all = (described (φ := φ) radios).map fun member =>
      (member.1, readAlongside member.2) := by
  rw [← get_capabilities_radios radios wired backend]
  rfl

/-- The names of the radios known are those described. -/
theorem names_known :
    (known φ radios wired backend).all.map Prod.fst =
      (described (φ := φ) radios).map Prod.fst := by
  rw [all_known, List.map_map]
  rfl

/-- How a radio runs an access point beside a client is known. -/
theorem alongside_known (hdistinct : (radios.map RadioInfo.station).Nodup) {radio : RadioInfo}
    (hradio : radio ∈ radios) :
    (known φ radios wired backend).alongside radio.station =
      radio.alongside.map alongsideStr := by
  unfold Radios.alongside
  rw [all_known, find?_map_get _ readAlongside, get_described hdistinct hradio]
  exact get_describe radio

/-- The radios a hotspot is keyed by are known where there are any. -/
theorem hotspotKeys_known {key : String}
    (hkey : key ∈ (Json.collect (hotspots (φ := φ) radios backend)).map Prod.fst) :
    (known φ radios wired backend).hotspotKeys =
      some ((Json.collect (hotspots (φ := φ) radios backend)).map Prod.fst) := by
  obtain ⟨member, hmember, rfl⟩ := List.mem_map.mp hkey
  have hsome : (hotspots (φ := φ) radios backend).isEmpty = false :=
    List.isEmpty_eq_false_iff.mpr (List.ne_nil_of_mem (Json.mem_collect hmember))
  simp [known, Radios.of, get_capabilities_document, document, hsome, Json.get, Json.asObject,
    hotspotConstraints]

/-! ## The document the rules read -/

/-- A candidate as the rules read it of an attachment. -/
def readCandidate (attachment : Attachment φ) : Option Candidate :=
  match attachment.kind with
  | .wireless network =>
      if attachment.enabled then
        some { label := attachment.label, interface := network.interface }
      else none
  | _ => none

variable [BEq φ]

/-- A truth value is the one it equals. -/
theorem beq_bool (one other : Bool) :
    ((Json.bool one : Json φ) == .bool other) = (one == other) := by
  show Json.beq _ _ = _
  simp [Json.beq]

/-- The candidates the rules read are the wireless ones turned on. -/
theorem wireless_toJson (written : Document φ) :
    wireless written.toJson = written.attachments.filterMap readCandidate := by
  unfold wireless
  rw [written.get_attachments]
  simp only [List.filterMap_map, List.filterMap_filterMap]
  congr 1
  funext attachment
  have hlabel : Json.get attachment.members "label" = some (.string attachment.label) := by
    cases hkind : attachment.kind <;>
      simp [Attachment.members, Wireless.writeInto, Attachment.common, hkind]
  simp only [Function.comp, Attachment.toJson, Json.asObject, Option.bind_some,
    attachment.get_kind, attachment.get_enabled, hlabel, named, attachment.get_interface,
    Json.asStr, Option.any_some, beq_bool, Option.getD_some]
  unfold readCandidate
  cases hkind : attachment.kind with
  | wireless network =>
      cases henabled : attachment.enabled with
      | true => cases hname : network.interface <;>
          simp [AttachmentKind.tag, AttachmentKind.interface, hname, Json.asStr]
      | false => simp
  | _ => simp [AttachmentKind.tag]

/-- A candidate the rules read is a wireless one turned on. -/
theorem mem_wireless {written : Document φ} {candidate : Candidate} :
    candidate ∈ wireless written.toJson ↔ ∃ attachment network, Joins written attachment network ∧
      candidate = { label := attachment.label, interface := network.interface } := by
  rw [wireless_toJson, List.mem_filterMap]
  constructor
  · intro hread
    obtain ⟨attachment, hattachment, hread⟩ := hread
    unfold readCandidate at hread
    split at hread
    · rename_i network hkind
      split at hread
      · rename_i henabled
        exact ⟨attachment, network, ⟨hattachment, henabled, hkind⟩, (Option.some.inj hread).symm⟩
      · cases hread
    · cases hread
  · intro hjoins
    obtain ⟨attachment, network, ⟨hattachment, henabled, hkind⟩, rfl⟩ := hjoins
    exact ⟨attachment, hattachment, by simp [readCandidate, hkind, henabled]⟩

/-- The hotspot the rules read is the one turned on. -/
theorem enabledHotspot_toJson (written : Document φ) :
    enabledHotspot written.toJson = written.enabledHotspot.map Hotspot.toJson := by
  unfold enabledHotspot Document.enabledHotspot
  rw [written.get_hotspot]
  rcases written.hotspot with _ | spot
  · rfl
  · cases henabled : spot.enabled <;>
      simp [Json.asObject, Option.filter, spot.get_enabled, henabled, beq_bool]

omit [BEq φ] in
/-- The radio the rules read a hotspot to name is the one it names. -/
theorem named_toJson (spot : Hotspot) : named (spot.toJson (φ := φ)) = spot.interface := by
  unfold named
  rw [spot.get_interface]
  cases spot.interface <;> rfl

omit [BEq φ] in
/-- The rules read a hotspot to choose its channel where it does. -/
theorem chooses_toJson {spot : Hotspot} (hchooses : Select.Hardware.chooses spot = true) :
    ∃ member, channelMembers.find? (fun member =>
      (Json.get (spot.toJson (φ := φ)) member).any fun value => !value.isNull) = some member := by
  apply Option.isSome_iff_exists.mp
  rw [List.find?_isSome]
  obtain ⟨hband, hchannel, hwidth⟩ := spot.get_chosen (φ := φ)
  unfold Select.Hardware.chooses at hchooses
  rw [Bool.or_eq_true, Bool.or_eq_true] at hchooses
  rcases hchooses with (hset | hset) | hset
  · obtain ⟨band, hset⟩ := Option.isSome_iff_exists.mp hset
    exact ⟨"band", by simp [channelMembers], by simp [hband, hset, Json.isNull]⟩
  · obtain ⟨channel, hset⟩ := Option.isSome_iff_exists.mp hset
    exact ⟨"channel", by simp [channelMembers], by simp [hchannel, hset, Json.isNull]⟩
  · obtain ⟨width, hset⟩ := Option.isSome_iff_exists.mp hset
    exact ⟨"channel-width", by simp [channelMembers], by simp [hwidth, hset, Json.isNull]⟩

/-! ## What the rules say of the document -/

variable {written : Document φ} {spot : Hotspot}

/-- The radios the rules have a hotspot run on. -/
def mayHost (φ : Type) (radios : List RadioInfo) (wired : List String) (backend : Backend)
    (spot : Hotspot) : List String :=
  (known φ radios wired backend).hotspot (spot.toJson (φ := φ))

/-- Past the first rule, each candidate has a radio that leaves the hotspot one. -/
theorem apart_of_placement (hspot : written.enabledHotspot = some spot)
    (hplacement : placement written.toJson (capabilities radios wired backend) = .ok ())
    (hhosts : mayHost φ radios wired backend spot ≠ [])
    {attachment : Attachment φ} {network : Wireless φ} (hjoins : Joins written attachment network)
    (hknown : (known φ radios wired backend).all ≠ []) :
    ∃ station ∈ (known φ radios wired backend).forCandidate network.interface,
      ∃ ap ∈ mayHost φ radios wired backend spot,
        ap ≠ station ∨ (known φ radios wired backend).alongside ap ≠ some oneAtATime := by
  unfold placement at hplacement
  rw [enabledHotspot_toJson, hspot] at hplacement
  simp only [Option.map_some] at hplacement
  have hread : (Radios.of (capabilities radios wired backend)).hotspot spot.toJson =
      mayHost φ radios wired backend spot :=
    rfl
  rw [hread] at hplacement
  rcases hmay : mayHost φ radios wired backend spot with _ | ⟨first, others⟩
  · exact absurd hmay hhosts
  rw [hmay] at hplacement
  simp only [] at hplacement
  split at hplacement
  · rename_i hnone
    exact absurd (List.isEmpty_iff.mp hnone) hknown
  · have hcandidate := Fallible.forM_ok.mp hplacement _ (mem_wireless.mpr ⟨_, _, hjoins, rfl⟩)
    simp only at hcandidate
    split at hcandidate
    · rename_i hapart
      obtain ⟨station, hstation, hany⟩ := List.any_eq_true.mp hapart
      obtain ⟨ap, hap, hdiffers⟩ := List.any_eq_true.mp hany
      refine ⟨station, hstation, ap, hap, ?_⟩
      simpa [known] using hdiffers
    · cases hcandidate

/-- Whether a hotspot on a radio would run on the channel of a candidate, as the rules have
it. -/
def follows (radios : List RadioInfo) (wired : List String) (backend : Backend)
    (written : Document φ) (name : String) : Bool :=
  (known φ radios wired backend).alongside name == some sharedChannel &&
    (wireless written.toJson).any fun candidate => candidate.interface.all fun named => named == name

/-- The rules split the radios of a hotspot by whether it would run on the channel of a
candidate there. -/
theorem channelChoice_toJson (hspot : written.enabledHotspot = some spot) :
    channelChoice written.toJson (capabilities radios wired backend) =
      { own := (mayHost φ radios wired backend spot).filter fun name =>
          !follows radios wired backend written name
        follows := (mayHost φ radios wired backend spot).filter
          (follows radios wired backend written) } := by
  have hset : written.hotspot = some spot := (Option.filter_eq_some_iff.mp hspot).1
  unfold channelChoice
  rw [written.get_hotspot, hset]
  rfl

variable [ToString φ]

/-- Past the second rule, a hotspot that chooses its channel has a radio to choose it on. -/
theorem own_of_ownChannel (hspot : written.enabledHotspot = some spot)
    (hown : ownChannel written.toJson (capabilities radios wired backend) = .ok ())
    (hhosts : mayHost φ radios wired backend spot ≠ [])
    (hchooses : Select.Hardware.chooses spot = true) :
    ∃ ap ∈ mayHost φ radios wired backend spot,
      follows radios wired backend written ap = false := by
  apply Classical.not_not.mp
  intro hnone
  have hall : ∀ ap ∈ mayHost φ radios wired backend spot,
      follows radios wired backend written ap = true := by
    intro ap hap
    rw [← Bool.not_eq_false]
    exact fun hfree => hnone ⟨ap, hap, hfree⟩
  have hfollows : (mayHost φ radios wired backend spot).filter
      (follows radios wired backend written) = mayHost φ radios wired backend spot :=
    List.filter_eq_self.mpr hall
  have hempty : (mayHost φ radios wired backend spot).filter
      (fun name => !follows radios wired backend written name) = [] := by
    rw [List.filter_eq_nil_iff]
    intro ap hap
    simp [hall ap hap]
  obtain ⟨member, hmember⟩ := chooses_toJson (φ := φ) hchooses
  unfold ownChannel at hown
  rw [enabledHotspot_toJson, hspot] at hown
  simp only [Option.map_some, hmember, channelChoice_toJson hspot, hfollows, hempty] at hown
  rcases hmay : mayHost φ radios wired backend spot with _ | ⟨first, others⟩
  · exact hhosts hmay
  · rw [hmay] at hown
    cases hown

/-! ## The two readings of a radio -/

omit [BEq φ] [ToString φ] in
/-- A radio hosts a hotspot where it can run one, the hotspot names no other, and it is not
one that would have it follow a candidate where it chooses its channel. -/
theorem mem_hotspotHosts {radio : RadioInfo} (hradio : radio ∈ radios) :
    selectRadio radio ∈ (selectHardware radios wired).hotspotHosts written spot ↔
      (∀ name, spot.interface = some name → radio.station = name) ∧
        radio.alongside.isSome = true ∧ (Select.Hardware.chooses spot = true →
          radio.alongside = some .sharedChannel →
            written.attachments.any (Select.Hardware.mayTake (selectRadio radio)) = false) := by
  have hin : selectRadio radio ∈ (selectHardware radios wired).radios :=
    List.mem_map.mpr ⟨radio, hradio, rfl⟩
  unfold Select.Hardware.hotspotHosts Select.Hardware.hotspotRadios Select.Hardware.radiosFor
  rw [List.mem_filter, List.mem_filter, List.mem_filter]
  constructor
  · intro hhost
    obtain ⟨⟨⟨-, hnamed⟩, hable⟩, hapart⟩ := hhost
    refine ⟨fun name hname => ?_, hable, fun hchooses hshared => ?_⟩
    · simpa [hname, selectRadio] using hnamed
    · simpa [hchooses, selectRadio, hshared] using hapart
  · intro hhost
    obtain ⟨hnamed, hable, hapart⟩ := hhost
    refine ⟨⟨⟨hin, ?_⟩, hable⟩, ?_⟩
    · rw [Option.all_eq_true]
      intro name hname
      simpa [selectRadio] using hnamed name hname
    · by_cases hchooses : Select.Hardware.chooses spot = true
      · by_cases hshared : radio.alongside = some .sharedChannel
        · simp [hapart hchooses hshared]
        · simp [selectRadio, hshared]
      · simp [hchooses]

omit [BEq φ] [ToString φ] in
/-- A host is one of the radios. -/
theorem radio_of_mem_hosts {host : Select.Radio}
    (hhost : host ∈ (selectHardware radios wired).hotspotHosts written spot) :
    ∃ radio ∈ radios, selectRadio radio = host :=
  List.mem_map.mp (Select.Hardware.mem_radios_of_mem_hosts hhost)

omit [ToString φ] in
/-- The rules have a hotspot follow a candidate on a radio where it is a shared-channel one
some candidate may go on. -/
theorem follows_iff (hdistinct : (radios.map RadioInfo.station).Nodup) {radio : RadioInfo}
    (hradio : radio ∈ radios) :
    follows radios wired backend written radio.station = true ↔
      radio.alongside = some .sharedChannel ∧
        written.attachments.any (Select.Hardware.mayTake (selectRadio radio)) = true := by
  have hshared : ((known φ radios wired backend).alongside radio.station == some sharedChannel) =
      true ↔ radio.alongside = some .sharedChannel := by
    rw [alongside_known hdistinct hradio, beq_iff_eq]
    have hname : sharedChannel = alongsideStr .sharedChannel := rfl
    rw [hname]
    constructor
    · intro hsame
      obtain ⟨alongside, hsome, hstr⟩ := Option.map_eq_some_iff.mp hsame
      rw [hsome, alongsideStr_inj.mp hstr]
    · intro hsame
      rw [hsame]
      rfl
  have htaken : ((wireless written.toJson).any fun candidate =>
      candidate.interface.all fun named => named == radio.station) = true ↔
        written.attachments.any (Select.Hardware.mayTake (selectRadio radio)) = true := by
    rw [List.any_eq_true, List.any_eq_true]
    constructor
    · intro htaken
      obtain ⟨candidate, hcandidate, hnamed⟩ := htaken
      obtain ⟨attachment, network, ⟨hattachment, henabled, hkind⟩, rfl⟩ :=
        mem_wireless.mp hcandidate
      refine ⟨attachment, hattachment, ?_⟩
      unfold Select.Hardware.mayTake
      rw [hkind]
      simpa [henabled, selectRadio] using hnamed
    · intro htaken
      obtain ⟨attachment, hattachment, hmay⟩ := htaken
      unfold Select.Hardware.mayTake at hmay
      split at hmay
      · rename_i network hkind
        rw [Bool.and_eq_true] at hmay
        exact ⟨_, mem_wireless.mpr ⟨attachment, network, ⟨hattachment, hmay.1, hkind⟩, rfl⟩,
          hmay.2⟩
      · cases hmay
  unfold follows
  rw [Bool.and_eq_true, hshared, htaken]

/-- The rules have a hotspot run on radios that can, the one it names where it names one. -/
theorem mem_mayHost (hcheck : check written.toJson (document radios wired backend) = .ok ())
    (hspot : written.hotspot = some spot) {name : String}
    (hname : name ∈ mayHost φ radios wired backend spot) :
    ∃ radio ∈ radios, radio.station = name ∧ radio.alongside.isSome = true ∧
      ∀ named, spot.interface = some named → radio.station = named := by
  obtain ⟨radio, hradio, hable, hkey, hnamed⟩ := host_of_admits hcheck hspot
  unfold mayHost Radios.hotspot at hname
  rw [named_toJson, hotspotKeys_known hkey] at hname
  rcases hof : spot.interface with _ | named
  · rw [hof] at hname
    obtain ⟨member, hmember, rfl⟩ := List.mem_map.mp hname
    obtain ⟨found, hfound, hstation, hruns⟩ := mem_hotspots hmember
    exact ⟨found, hfound, hstation, hruns, fun named hnone => by cases hnone⟩
  · rw [hof] at hname
    obtain rfl := List.mem_singleton.mp hname
    refine ⟨radio, hradio, hnamed _ hof, hable, fun other hother => ?_⟩
    cases hother
    exact hnamed _ hof

/-- The rules have some radio a hotspot may run on. -/
theorem mayHost_ne_nil (hcheck : check written.toJson (document radios wired backend) = .ok ())
    (hspot : written.hotspot = some spot) : mayHost φ radios wired backend spot ≠ [] := by
  obtain ⟨radio, -, -, hkey, -⟩ := host_of_admits hcheck hspot
  unfold mayHost Radios.hotspot
  rw [named_toJson, hotspotKeys_known hkey]
  cases spot.interface with
  | none => exact List.ne_nil_of_mem hkey
  | some named => exact List.cons_ne_nil _ _

/-! ## What the rules admit, selection carries out -/

/-- A hotspot of a document admitted has a host. -/
theorem hosted_of_admits (hdistinct : (radios.map RadioInfo.station).Nodup)
    (hcheck : check written.toJson (document radios wired backend) = .ok ())
    (hown : ownChannel written.toJson (capabilities radios wired backend) = .ok ())
    (hspot : written.enabledHotspot = some spot) :
    ∃ radio ∈ radios,
      selectRadio radio ∈ (selectHardware radios wired).hotspotHosts written spot := by
  have hset : written.hotspot = some spot := (Option.filter_eq_some_iff.mp hspot).1
  have hhosts := mayHost_ne_nil hcheck hset
  by_cases hchooses : Select.Hardware.chooses spot = true
  · obtain ⟨ap, hap, hfree⟩ := own_of_ownChannel hspot hown hhosts hchooses
    obtain ⟨radio, hradio, rfl, hable, hnamed⟩ := mem_mayHost hcheck hset hap
    refine ⟨radio, hradio, (mem_hotspotHosts hradio).mpr ⟨hnamed, hable, fun _ hshared => ?_⟩⟩
    rw [← Bool.not_eq_true]
    intro htaken
    rw [(follows_iff hdistinct hradio).mpr ⟨hshared, htaken⟩] at hfree
    cases hfree
  · obtain ⟨ap, hap⟩ := List.exists_mem_of_ne_nil _ hhosts
    obtain ⟨radio, hradio, rfl, hable, hnamed⟩ := mem_mayHost hcheck hset hap
    exact ⟨radio, hradio, (mem_hotspotHosts hradio).mpr ⟨hnamed, hable, fun hset =>
      absurd hset hchooses⟩⟩

omit [BEq φ] [ToString φ] in
/-- A radio leaves a hotspot turned on no other where it runs one at a time and every host is
the radio itself. -/
theorem sparesHotspot_empty (hspot : written.enabledHotspot = some spot)
    {hardware : Select.Hardware} {radio : Select.Radio} {s : Selector φ}
    (hhardware : s.hardware = hardware) (hwritten : s.document = written) :
    s.sparesHotspot radio ∅ = false ↔ radio.accessPoint = some .oneAtATime ∧
      ∀ other ∈ hardware.hotspotHosts written spot, other.station = radio.station := by
  rw [Selector.sparesHotspot_eq_false, hhardware, hwritten, hspot]
  constructor
  · intro hkept
    obtain ⟨hkind, found, hfound, hothers⟩ := hkept
    cases hfound
    refine ⟨hkind, fun other hother => ?_⟩
    apply Classical.not_not.mp
    intro hapart
    exact absurd (hothers other hother hapart).2 (by simp)
  · intro hkept
    obtain ⟨hkind, hothers⟩ := hkept
    exact ⟨hkind, spot, rfl, fun other hother hapart => absurd (hothers other hother) hapart⟩

omit [BEq φ] [ToString φ] in
/-- A radio is one a wireless candidate may go on where the candidate names no other. -/
theorem mem_radiosFor {radio : RadioInfo} (hradio : radio ∈ radios) {interface : Option String} :
    selectRadio radio ∈ (selectHardware radios wired).radiosFor interface ↔
      ∀ name, interface = some name → radio.station = name := by
  have hin : selectRadio radio ∈ (selectHardware radios wired).radios :=
    List.mem_map.mpr ⟨radio, hradio, rfl⟩
  unfold Select.Hardware.radiosFor
  rw [List.mem_filter, and_iff_right hin, Option.all_eq_true]
  constructor
  · intro hnamed name hname
    simpa [selectRadio] using hnamed name hname
  · intro hnamed name hname
    simpa [selectRadio] using hnamed name hname

omit [BEq φ] [ToString φ] in
/-- A rule's answer passes where the rule does. -/
theorem refusedBy_ok {rule : Rule} {answer : Except Invalid Unit} :
    refusedBy rule answer = .ok () ↔ answer = .ok () := by
  unfold refusedBy
  split <;> simp

/-- A document the capabilities admit is within the mirror and both rules. -/
theorem rules_of_admits {json : Json.Map φ}
    (hadmits : admits json (capabilities radios wired backend) = .ok ()) :
    check json (document radios wired backend) = .ok () ∧
      placement json (capabilities radios wired backend) = .ok () ∧
      ownChannel json (capabilities radios wired backend) = .ok () := by
  obtain ⟨⟨⟩, hmirror, hrules⟩ := Fallible.bind_ok.mp hadmits
  obtain ⟨⟨⟩, hplacement, hown⟩ := Fallible.bind_ok.mp hrules
  rw [get_capabilities_document] at hmirror
  exact ⟨refusedBy_ok.mp hmirror, refusedBy_ok.mp hplacement, refusedBy_ok.mp hown⟩

omit [BEq φ] [ToString φ] in
/-- A candidate with no radio to take keeps off every radio it may go on, for the hotspot's
one host. -/
theorem kept_of_not_spared (hspot : written.enabledHotspot = some spot) {interface : Option String}
    (hnone : ¬ ∃ radio ∈ (selectHardware radios wired).radiosFor interface, ∀ s : Selector φ,
      s.hardware = selectHardware radios wired → s.document = written →
        s.sparesHotspot radio ∅ = true) {radio : RadioInfo} (hradio : radio ∈ radios)
    (hmay : ∀ name, interface = some name → radio.station = name) :
    radio.alongside = some .oneAtATime ∧
      ∀ other ∈ (selectHardware radios wired).hotspotHosts written spot,
        other.station = radio.station := by
  apply Classical.not_not.mp
  intro hspares
  refine hnone ⟨selectRadio radio, (mem_radiosFor hradio).mpr hmay, ?_⟩
  intro s hhardware hwritten
  rw [← Bool.not_eq_false]
  exact fun hkept => hspares ((sparesHotspot_empty hspot hhardware hwritten).mp hkept)

/-- Where the rules admit a document and it strands no candidate, each candidate has a radio
that leaves the hotspot one. -/
theorem spared_of_admits (hdistinct : (radios.map RadioInfo.station).Nodup)
    (hadmits : admits written.toJson (capabilities radios wired backend) = .ok ())
    (hspot : written.enabledHotspot = some spot) (hfree : ¬ Stranded radios written spot)
    {attachment : Attachment φ} {network : Wireless φ}
    (hjoins : Joins written attachment network) :
    ∃ radio ∈ (selectHardware radios wired).radiosFor network.interface, ∀ s : Selector φ,
      s.hardware = selectHardware radios wired → s.document = written →
        s.sparesHotspot radio ∅ = true := by
  obtain ⟨hcheck, hplacement, hown⟩ := rules_of_admits hadmits
  have hset : written.hotspot = some spot := (Option.filter_eq_some_iff.mp hspot).1
  apply Classical.not_not.mp
  intro hnone
  obtain ⟨host, hhost, hhosts⟩ := hosted_of_admits hdistinct hcheck hown hspot
  have hknown : (known φ radios wired backend).all ≠ [] := by
    intro hnil
    have hdescribed := Json.mem_of_get (get_described (φ := φ) hdistinct hhost)
    have hnames : (known φ radios wired backend).all.map Prod.fst =
        (described (φ := φ) radios).map Prod.fst := names_known
    rw [hnil] at hnames
    exact absurd (List.map_eq_nil_iff.mp hnames.symm) (List.ne_nil_of_mem hdescribed)
  obtain ⟨station, hstation, ap, hap, hdiffers⟩ :=
    apart_of_placement hspot hplacement (mayHost_ne_nil hcheck hset) hjoins hknown
  obtain ⟨hname, hmay⟩ := List.mem_filter.mp hstation
  rw [names_known] at hname
  obtain ⟨radio, hradio, rfl⟩ := mem_described hname
  obtain ⟨other, hother, rfl, hable, hnamed⟩ := mem_mayHost hcheck hset hap
  have hmay' : ∀ name, network.interface = some name → radio.station = name := by
    intro name hinterface
    rw [hinterface] at hmay
    exact (beq_iff_eq.mp hmay).symm
  obtain ⟨hone, honly⟩ := kept_of_not_spared hspot hnone hradio hmay'
  have hapart : other.station ≠ radio.station := by
    intro hsame
    rcases hdiffers with hname | hkind
    · exact hname hsame
    · rw [hsame, alongside_known hdistinct hradio, hone] at hkind
      exact hkind rfl
  -- The one host is the radio the candidate is kept off, so the hotspot names no other.
  have hself : host.station = radio.station := honly _ hhosts
  have hhostNamed := ((mem_hotspotHosts hhost).mp hhosts).1
  have hunnamed : spot.interface = none := by
    rw [Option.eq_none_iff_forall_ne_some]
    intro name hinterface
    exact hapart ((hnamed name hinterface).trans
      ((hhostNamed name hinterface).symm.trans hself))
  have hshares : ∀ third ∈ radios, third ≠ radio → third.alongside.isSome = true →
      Select.Hardware.chooses spot = true ∧ third.alongside = some .sharedChannel ∧
        written.attachments.any (Select.Hardware.mayTake (selectRadio third)) = true := by
    intro third hthird hdifferent hruns
    have hnot : ¬ selectRadio third ∈
        (selectHardware radios wired).hotspotHosts written spot := by
      intro hin
      exact hdifferent (List.inj_on_of_nodup_map hdistinct hthird hradio (honly _ hin))
    rw [mem_hotspotHosts hthird] at hnot
    have hunset : ∀ name, spot.interface = some name → third.station = name := by
      intro name hinterface
      rw [hunnamed] at hinterface
      cases hinterface
    by_cases hchooses : Select.Hardware.chooses spot = true
    · by_cases hshared : third.alongside = some .sharedChannel
      · refine ⟨hchooses, hshared, ?_⟩
        rw [← Bool.not_eq_false]
        exact fun hfree => hnot ⟨hunset, hruns, fun _ _ => hfree⟩
      · exact absurd ⟨hunset, hruns, fun _ hkind => absurd hkind hshared⟩ hnot
    · exact absurd ⟨hunset, hruns, fun hset => absurd hset hchooses⟩ hnot
  have hdifferent : other ≠ radio := fun hsame => hapart (by rw [hsame])
  obtain ⟨hchooses, hshared, -⟩ := hshares other hother hdifferent hable
  rcases hinterface : network.interface with _ | name
  · have hboth := kept_of_not_spared hspot hnone hother (by simp [hinterface])
    rw [hshared] at hboth
    exact absurd hboth.1 (by simp)
  · obtain rfl := hmay' name hinterface
    exact hfree ⟨hunnamed, hchooses, attachment, network, hjoins, radio, hradio, hinterface, hone,
      fun third hthird hdifferent hruns => (hshares third hthird hdifferent hruns).2⟩

omit [BEq φ] [ToString φ] in
/-- A document that strands a candidate leaves it no radio to take. -/
theorem not_carried_of_stranded (hdistinct : (radios.map RadioInfo.station).Nodup)
    (hspot : written.enabledHotspot = some spot) (hstranded : Stranded radios written spot) :
    ¬ Carried (selectHardware radios wired) written spot := by
  intro hcarried
  obtain ⟨hunnamed, hchooses, attachment, network, hjoins, radio, hradio, hinterface, hone,
    hothers⟩ := hstranded
  obtain ⟨taken, htaken, hspares⟩ := hcarried.spared attachment network hjoins
  obtain ⟨info, hinfo, rfl⟩ := List.mem_map.mp (List.mem_of_mem_filter htaken)
  have hstation := (mem_radiosFor hinfo).mp htaken _ hinterface
  obtain rfl := List.inj_on_of_nodup_map hdistinct hinfo hradio hstation
  let s : Selector φ := {
    hardware := selectHardware radios wired
    document := written
    carrier := ∅
    heard := ∅
    channels := ∅
    failures := ∅
    held := ∅
    nextAttempt := 0
    decision := .empty }
  have hkept : s.sparesHotspot (selectRadio info) ∅ = false := by
    apply (sparesHotspot_empty hspot rfl rfl).mpr
    refine ⟨hone, fun other hother => ?_⟩
    obtain ⟨third, hthird, rfl⟩ := radio_of_mem_hosts hother
    obtain ⟨-, hable, hfree⟩ := (mem_hotspotHosts hthird).mp hother
    apply Classical.not_not.mp
    intro hapart
    have hdifferent : third ≠ info := fun hsame => hapart (by rw [hsame])
    obtain ⟨hshared, hany⟩ := hothers third hthird hdifferent hable
    rw [hfree hchooses hshared] at hany
    cases hany
  rw [hspares s rfl rfl] at hkept
  cases hkept

/-- What the rules over the JSON of a document admit, the rules of selection accept, exactly
where the document strands no candidate. -/
theorem rulesAgree_iff (hdistinct : (radios.map RadioInfo.station).Nodup)
    (hadmits : admits written.toJson (capabilities radios wired backend) = .ok ()) :
    RulesAgree (selectHardware radios wired) written ↔
      ∀ spot, written.enabledHotspot = some spot → ¬ Stranded radios written spot := by
  obtain ⟨hcheck, -, hown⟩ := rules_of_admits hadmits
  constructor
  · intro hagree spot hspot hstranded
    obtain ⟨host, hhost, hhosts⟩ := hosted_of_admits hdistinct hcheck hown hspot
    have hradios : (selectHardware radios wired).hotspotRadios spot ≠ [] :=
      List.ne_nil_of_mem (List.mem_of_mem_filter hhosts)
    exact not_carried_of_stranded hdistinct hspot hstranded (hagree.carried spot hspot hradios)
  · intro hfree
    refine ⟨selected_of_admits hdistinct hcheck, fun spot hspot _ => ?_⟩
    obtain ⟨host, -, hhosts⟩ := hosted_of_admits hdistinct hcheck hown hspot
    exact ⟨List.ne_nil_of_mem hhosts, fun attachment network hjoins =>
      spared_of_admits hdistinct hadmits hspot (hfree spot hspot) hjoins⟩

/-! ### A radio left to a candidate and a hotspot -/

/-- A radio that runs a hotspot beside its client in one way, on the lower band. -/
def radioAs (station : String) (alongside : Select.Alongside) : RadioInfo :=
  { radioOn station [lower] with alongside := some alongside }

/-- A radio that runs one at a time, and one on its client's channel. -/
def oneAndShared : List RadioInfo :=
  [radioAs "wlan0" .oneAtATime, radioAs "wlan1" .sharedChannel]

/-- The network a candidate joins on a radio. -/
def networkOn (station : String) : Wireless Nat where
  ssid := "network"
  security := .psk "passphrase"
  hidden := none
  interface := some station
  bands := []

/-- A candidate on a radio. -/
def candidateOn (station : String) : Attachment Nat where
  label := station
  enabled := true
  verify := true
  nameservers := []
  kind := .wireless (networkOn station)

/-- A document of a candidate on each of some radios, with a hotspot on a channel of the lower
band on whichever radio. -/
def hotspotBeside (stations : List String) : Document Nat where
  attachments := stations.map candidateOn
  hotspot := some { upperHotspot with channel := some 6 }
  regulatoryDomain := none

/-- The rules admit a candidate on each of the two radios, and selection has no radio left for
the first. -/
theorem rulesDisagree :
    (oneAndShared.map RadioInfo.station).Nodup ∧
      admits (hotspotBeside ["wlan0", "wlan1"]).toJson
        (capabilities oneAndShared [] .stack) = .ok () ∧
      ¬ RulesAgree (selectHardware oneAndShared []) (hotspotBeside ["wlan0", "wlan1"]) := by
  refine ⟨by decide, by decide, fun hagree => ?_⟩
  have hspot : (hotspotBeside ["wlan0", "wlan1"]).enabledHotspot =
      some { upperHotspot with channel := some 6 } :=
    rfl
  have hcarried := hagree.carried _ hspot (by decide)
  refine not_carried_of_stranded (by decide) hspot ?_ hcarried
  refine ⟨rfl, rfl, candidateOn "wlan0", networkOn "wlan0", ⟨by simp [hotspotBeside], rfl, rfl⟩,
    radioAs "wlan0" .oneAtATime, by simp [oneAndShared], rfl, rfl, fun other hother hapart _ => ?_⟩
  simp only [oneAndShared, List.mem_cons, List.not_mem_nil, or_false] at hother
  rcases hother with rfl | rfl
  · exact absurd rfl hapart
  · exact ⟨rfl, rfl⟩

/-- The rules agree on a candidate on the second radio alone. -/
theorem rulesAgree_oneAndShared :
    RulesAgree (selectHardware oneAndShared []) (hotspotBeside ["wlan1"]) := by
  have hadmits : admits (hotspotBeside ["wlan1"]).toJson
      (capabilities oneAndShared [] .stack) = .ok () := by
    decide
  apply (rulesAgree_iff (by decide) hadmits).mpr
  intro spot _ hstranded
  obtain ⟨-, -, attachment, network, ⟨hattachment, -, hkind⟩, radio, hradio, hinterface, hone, -⟩ :=
    hstranded
  obtain rfl := List.mem_singleton.mp hattachment
  cases hkind
  simp only [oneAndShared, List.mem_cons, List.not_mem_nil, or_false] at hradio
  rcases hradio with rfl | rfl
  · revert hinterface
    decide
  · cases hone

end Bliti.Network.Stack
