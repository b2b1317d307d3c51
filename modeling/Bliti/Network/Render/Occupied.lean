import Mathlib.Data.List.Dedup
import Bliti.Network.Render.Iwd.Known
import Bliti.Network.Render.Places

/-!
# Rendering - one file at each place

The files of a render, part by part, each at its place; and no place twice, on
hardware whose interfaces have names of their own.
-/

namespace Bliti.Network.Render

open Std (ExtTreeMap ExtTreeSet)
open Channel.Config Fallible

variable {φ : Type}

/-! ## The interfaces of a device -/

/-- The interfaces of access points. -/
def Hardware.accessPoints (hardware : Hardware) : List String :=
  hardware.radios.filterMap fun radio => radio.accessPoint.map AccessPoint.interface

/-- Every interface of the hardware. -/
def Hardware.interfaces (hardware : Hardware) : List String :=
  hardware.wired ++ hardware.radios.map Radio.station ++ hardware.accessPoints

/-- The interfaces of the hardware have names of their own, none empty or holding a slash. -/
structure Hardware.Distinct (hardware : Hardware) : Prop where
  nodup : hardware.interfaces.Nodup
  named : ∀ interface ∈ hardware.interfaces, interface ≠ "" ∧ '/' ∉ interface.toList

/-- No access point's interface is hidden: its name does not start with a dot. -/
def Hardware.Shown (hardware : Hardware) : Prop :=
  ∀ interface ∈ hardware.accessPoints, Text.startsWith interface "." = false

/-- What is found of a document is returned as it is. -/
theorem faulting_ok {α : Type} {x : Except Invalid α} {a : α} :
    faulting x = .ok a ↔ x = .ok a := by
  cases x <;> simp [faulting]

/-! ## The files of a link -/

/-- The paths of some places. -/
def pathsOf (paths : Paths) (places : List Place) : List Path :=
  places.map (Place.path paths)

/-- The files of a dynamic link are its own, and the one of its resolvers where it names some. -/
theorem paths_dynamicFiles (rank : Nat) (interface : String) (servers : List IpAddr)
    (wireless : Bool) (paths : Paths) :
    ∃ places, (places = [.link interface] ∨ places = [.link interface, .delegate interface]) ∧
      (Networkd.dynamicFiles rank interface servers wireless paths).map File.path =
        pathsOf paths places := by
  unfold Networkd.dynamicFiles
  split
  · exact ⟨_, .inl rfl, rfl⟩
  · exact ⟨_, .inr rfl, rfl⟩

variable {subnets : Subnets} {document : Document φ} {hardware : Hardware}
  {attachment : Attachment φ} {rank : Nat} {station : Option String} {own : List File}

/-- A candidate's files are on its own interface, or on the radio of the station it is given;
a wired interface is one the device has. -/
theorem candidate_places
    (hown : Networkd.candidate subnets attachment rank station hardware = .ok own) :
    ∃ interface, (wiredInterface attachment).or station = some interface ∧
      (∀ wired, wiredInterface attachment = some wired → wired ∈ hardware.wired) ∧
      ∃ places, (places = [.link interface] ∨ places = [.link interface, .delegate interface]) ∧
        own.map File.path = pathsOf hardware.paths places := by
  have hwired : ∀ {interface : String}, Networkd.wired interface rank hardware = .ok () →
      interface ∈ hardware.wired := by
    intro interface hchecked
    unfold Networkd.wired at hchecked
    split at hchecked
    · rename_i hheld
      simpa using hheld
    · cases hchecked
  unfold Networkd.candidate at hown
  obtain ⟨servers, -, hown⟩ := bind_ok.mp hown
  unfold wiredInterface
  cases hkind : attachment.kind with
  | wireless wireless =>
      rw [hkind] at hown
      cases station with
      | none => cases hown
      | some station =>
          rw [← pure_ok.mp hown]
          exact ⟨station, rfl, fun _ hnone => (nomatch hnone),
            paths_dynamicFiles rank station servers true hardware.paths⟩
  | wiredDynamic interface =>
      rw [hkind] at hown
      obtain ⟨⟨⟩, hchecked, hown⟩ := bind_ok.mp hown
      rw [← pure_ok.mp hown]
      refine ⟨interface, rfl, fun wired hsame => ?_,
        paths_dynamicFiles rank interface servers false hardware.paths⟩
      cases hsame
      exact hwired hchecked
  | wiredStatic interface addresses gateway =>
      rw [hkind] at hown
      obtain ⟨⟨⟩, hchecked, hown⟩ := bind_ok.mp hown
      obtain ⟨nets, -, hown⟩ := bind_ok.mp hown
      split at hown
      · cases hown
      · rw [← pure_ok.mp hown]
        refine ⟨interface, rfl, fun wired hsame => ?_, [.link interface], .inl rfl, rfl⟩
        cases hsame
        exact hwired hchecked

/-- The files of the candidate an interface brings up: it is turned on, the interface is its own
or a radio's, and they are its files there. -/
structure Linked (subnets : Subnets) (document : Document φ) (hardware : Hardware)
    (interface : String) (rank : Nat) (own : List File) (attachment : Attachment φ) : Prop where
  held : document.attachments[rank]? = some attachment
  enabled : attachment.enabled
  rendered : ∃ station, Networkd.candidate subnets attachment rank station hardware = .ok own ∧
    (wiredInterface attachment).or station = some interface
  place : wiredInterface attachment = some interface ∧ interface ∈ hardware.wired ∨
    wiredInterface attachment = none ∧ interface ∈ hardware.radios.map Radio.station

/-- A station found is one of the radios'. -/
theorem mem_stations_of_radio {station : String} {radio : Radio}
    (hradio : hardware.radio station = some radio) :
    station ∈ hardware.radios.map Radio.station := by
  have hstation : radio.station = station := by simpa using List.find?_some hradio
  exact List.mem_map.mpr ⟨radio, List.mem_of_find?_eq_some hradio, hstation⟩

/-- What is checked of every candidate is what each has. -/
theorem getElem_candidates {networks : List (List File)}
    (hnetworks : candidates subnets document hardware = .ok networks)
    (hat : document.attachments[rank]? = some attachment) :
    ∃ own, networks[rank]? = some own ∧
      Networkd.candidate subnets attachment rank (checkedOn hardware attachment) hardware =
        .ok own := by
  have hall := mapM_eq_ok.mp hnetworks
  have hin : document.attachments.zipIdx[rank]? = some (attachment, rank) := by
    rw [List.getElem?_zipIdx, hat, Option.map_some, Nat.zero_add]
  obtain ⟨hrank, hget⟩ := List.getElem?_eq_some_iff.mp hin
  have hbound : rank < networks.length := hall.length_eq ▸ hrank
  have hpair := (List.forall₂_iff_get.mp hall).2 rank hrank hbound
  rw [List.get_eq_getElem, hget] at hpair
  exact ⟨networks[rank], List.getElem?_eq_getElem hbound, hpair⟩

/-- A wired candidate's files on the interface it is selected on. -/
theorem linked_of_wiredOn {networks : List (List File)} {interface wired : String}
    (hnetworks : candidates subnets document hardware = .ok networks)
    (hat : document.attachments[rank]? = some attachment) (henabled : attachment.enabled)
    (hkind : wiredInterface attachment = some wired)
    (hown : wiredOn networks interface rank wired = .ok own) :
    Linked subnets document hardware interface rank own attachment := by
  unfold wiredOn at hown
  split at hown
  · cases hown
  · rename_i hsame
    obtain rfl : wired = interface := not_not.mp hsame
    obtain ⟨files, hfiles, hrendered⟩ := getElem_candidates hnetworks hat
    rw [hfiles] at hown
    cases hown
    obtain ⟨other, hother, hheld, -⟩ := candidate_places hrendered
    have hrendered : ∃ station,
        Networkd.candidate subnets attachment rank station hardware = .ok files ∧
          (wiredInterface attachment).or station = some wired :=
      ⟨_, hrendered, by rw [hkind]; rfl⟩
    exact ⟨hat, henabled, hrendered, .inl ⟨hkind, hheld wired hkind⟩⟩

/-- A candidate's files on the interface it is selected on. -/
theorem linked_of_candidateOn {networks : List (List File)} {interface : String}
    (hnetworks : candidates subnets document hardware = .ok networks)
    (hat : document.attachments[rank]? = some attachment) (henabled : attachment.enabled)
    (hown : candidateOn subnets hardware networks interface rank attachment = .ok own) :
    Linked subnets document hardware interface rank own attachment := by
  unfold candidateOn at hown
  split at hown
  · rename_i wireless hkind
    unfold wirelessOn at hown
    split at hown
    · cases hown
    · rename_i hradio
      split at hown
      · cases hown
      · have hwireless : wiredInterface attachment = none := by rw [wiredInterface, hkind]
        obtain ⟨radio, hfound⟩ := Option.isSome_iff_exists.mp
          (Option.isSome_iff_ne_none.mpr (by simpa using hradio))
        have hrendered := faulting_ok.mp hown
        exact ⟨hat, henabled, ⟨_, hrendered, by rw [hwireless]; rfl⟩,
          .inr ⟨hwireless, mem_stations_of_radio hfound⟩⟩
  · rename_i wired hkind
    exact linked_of_wiredOn hnetworks hat henabled (by rw [wiredInterface, hkind]) hown
  · rename_i wired addresses gateway hkind
    exact linked_of_wiredOn hnetworks hat henabled (by rw [wiredInterface, hkind]) hown

/-- The files of the links are those of each link's own candidate, one link after another. -/
theorem linkFiles_parts {networks : List (List File)}
    (hnetworks : candidates subnets document hardware = .ok networks)
    {links : List (String × Nat)} {placed : ExtTreeSet Nat} {linked : List File}
    (hlinked : linkFiles subnets document hardware networks placed links = .ok linked) :
    ∃ parts, linked = parts.flatten ∧ List.Forall₂ (fun link own =>
      ∃ attachment, Linked subnets document hardware link.1 link.2 own attachment) links parts := by
  induction links generalizing placed linked with
  | nil =>
      cases hlinked
      exact ⟨[], rfl, .nil⟩
  | cons link rest ih =>
      obtain ⟨interface, rank⟩ := link
      unfold linkFiles at hlinked
      split at hlinked
      · cases hlinked
      · rename_i attachment hat
        split at hlinked
        · cases hlinked
        · split at hlinked
          · cases hlinked
          · rename_i hon
            obtain ⟨own, hown, hlinked⟩ := bind_ok.mp hlinked
            obtain ⟨others, hothers, hlinked⟩ := bind_ok.mp hlinked
            obtain ⟨parts, rfl, hparts⟩ := ih hothers
            rw [← pure_ok.mp hlinked]
            have hfirst := linked_of_candidateOn hnetworks hat (by simpa using hon) hown
            exact ⟨own :: parts, rfl, .cons ⟨attachment, hfirst⟩ hparts⟩

/-! ## The parts of a render -/

/-- The hotspot's addressing is at the link of its interface. -/
theorem path_of_hotspot {spot : Hotspot} {interface : String} {paths : Paths} {file : File}
    (hfile : Networkd.hotspot subnets spot interface paths = .ok file) :
    file.path = Networkd.path paths interface := by
  unfold Networkd.hotspot at hfile
  split at hfile
  · cases hfile
  · cases hfile
    rfl

/-- The hotspot's configuration is at its interface's. -/
theorem path_of_conf {spot : Hotspot} {accessPoint : AccessPoint} {followed : Option Channel}
    {paths : Paths} {domain : Option String} {file : File}
    (hfile : Hostapd.conf spot accessPoint followed paths domain = .ok file) :
    file.path = paths.hostapdConf accessPoint.interface := by
  unfold Hostapd.conf at hfile
  split at hfile
  · cases hfile
  · split at hfile
    · cases hfile
    · obtain ⟨widened, -, hfile⟩ := bind_ok.mp hfile
      rw [← pure_ok.mp hfile]

/-- The files of the hotspot are on the access point of the radio it is selected on. -/
theorem hotspot_places {selection : Selection} {domain : Option String} {spot : Option Hotspot}
    {hosted : List File} (hhosted : hotspot subnets hardware selection domain spot = .ok hosted) :
    hosted = [] ∨ ∃ interface ∈ hardware.accessPoints,
      hosted.map File.path = pathsOf hardware.paths [.link interface, .accessPoint interface] := by
  cases spot with
  | none =>
      cases hhosted
      exact .inl rfl
  | some spot =>
      obtain ⟨⟨⟩, -, hhosted⟩ := bind_ok.mp hhosted
      unfold runHotspot at hhosted
      split at hhosted
      · cases hhosted
        exact .inl rfl
      · rename_i station hselected
        split at hhosted
        · cases hhosted
        · split at hhosted
          · cases hhosted
          · rename_i accessPoint hable
            split at hhosted
            · cases hhosted
            · obtain ⟨network, hnetwork, hhosted⟩ := bind_ok.mp hhosted
              obtain ⟨conf, hconf, hhosted⟩ := bind_ok.mp hhosted
              obtain ⟨radio, hradio, hpoint⟩ := Option.bind_eq_some_iff.mp hable
              have hmem : accessPoint.interface ∈ hardware.accessPoints :=
                List.mem_filterMap.mpr ⟨radio, List.mem_of_find?_eq_some hradio, by rw [hpoint]; rfl⟩
              refine .inr ⟨accessPoint.interface, hmem, ?_⟩
              rw [← pure_ok.mp hhosted, List.map_cons, List.map_cons, List.map_nil,
                path_of_hotspot (faulting_ok.mp hnetwork), path_of_conf (faulting_ok.mp hconf)]
              rfl

variable [BEq φ] {selection : Selection} {files : List File}

/-- What a render is made of: the networks joined, the hotspot, the links, the idle interfaces
and the files of the radios. -/
structure Parts (subnets : Subnets) (document : Document φ) (hardware : Hardware)
    (selection : Selection) (files : List File) where
  domain : Option String
  joined : List File
  hosted : List File
  linked : List (List File)
  networks : List (List File)
  joins : Iwd.networks document hardware = .ok joined
  checked : candidates subnets document hardware = .ok networks
  hosts : hotspot subnets hardware selection domain document.hotspot = .ok hosted
  links : List.Forall₂ (fun link own => ∃ attachment,
    Linked subnets document hardware link.1 link.2 own attachment) selection.links.toList linked
  whole : files.Perm (joined ++ hosted ++ linked.flatten ++
    (idleInterfaces document selection).map (fun interface =>
      Networkd.idle interface hardware.paths) ++ radioFiles hardware domain)

/-- A render is made of its parts. -/
theorem render_parts (hrender : render subnets document hardware selection = .ok files) :
    Nonempty (Parts subnets document hardware selection files) := by
  obtain ⟨domain, -, hrender⟩ := bind_ok.mp hrender
  obtain ⟨⟨⟩, -, hrender⟩ := bind_ok.mp hrender
  obtain ⟨joined, hjoined, hrender⟩ := bind_ok.mp hrender
  obtain ⟨networks, hnetworks, hrender⟩ := bind_ok.mp hrender
  obtain ⟨hosted, hhosted, hrender⟩ := bind_ok.mp hrender
  obtain ⟨linked, hlinked, hrender⟩ := bind_ok.mp hrender
  obtain ⟨parts, rfl, hparts⟩ := linkFiles_parts (faulting_ok.mp hnetworks) hlinked
  refine ⟨⟨domain, joined, hosted, parts, networks, faulting_ok.mp hjoined,
    faulting_ok.mp hnetworks, hhosted, hparts, ?_⟩⟩
  rw [← pure_ok.mp hrender]
  exact List.perm_insertionSort _ _

/-! ## The places of a render -/

/-- Whether a network is joined by enterprise credentials. -/
def isEnterprise (security : Security φ) : Bool :=
  match security with
  | .psk _ | .pskSae _ | .sae _ => false
  | .enterprise _ => true

/-- The place of a candidate's network. -/
def networkPlace (wireless : Wireless φ) : Place :=
  .network wireless.ssid (isEnterprise wireless.security)

omit [BEq φ] in
/-- A candidate's network is at its place. -/
theorem path_networkPlace (hardware : Hardware) (wireless : Wireless φ) :
    (networkPlace wireless).path hardware.paths = Iwd.networkPath hardware wireless := by
  obtain ⟨ssid, security, hidden, interface, bands⟩ := wireless
  cases security <;> rfl

/-- The network files are at places of networks, none of them twice. -/
theorem joined_places {joined : List File}
    (hjoined : Iwd.networks document hardware = .ok joined) :
    ∃ places, joined.map File.path = pathsOf hardware.paths places ∧ places.Nodup ∧
      ∀ place ∈ places, ∃ ssid enterprise, place = .network ssid enterprise ∧
        isSsid ssid = true := by
  obtain ⟨networks, hknows, rfl⟩ := Iwd.knows_of_networks hjoined
  have hpaths : (networks.map Iwd.Known.file).map File.path =
      pathsOf hardware.paths (networks.map fun network => networkPlace network.wireless) := by
    rw [pathsOf, List.map_map, List.map_map]
    apply List.map_congr_left
    intro network hnetwork
    obtain ⟨text, -, hfile⟩ := hknows.written network hnetwork
    rw [Function.comp_apply, Function.comp_apply, hfile, path_networkPlace]
    rfl
  refine ⟨_, hpaths, ?_, ?_⟩
  · apply List.Nodup.of_map (Place.path hardware.paths)
    rw [← pathsOf, ← hpaths, List.map_map]
    exact hknows.apart
  · intro place hplace
    obtain ⟨network, hnetwork, rfl⟩ := List.mem_map.mp hplace
    obtain ⟨attachment, hcandidate, henabled, hkind⟩ := hknows.wanted network hnetwork
    exact ⟨_, _, rfl, (hknows.held _ _ _ hcandidate henabled hkind).1⟩

omit [BEq φ] in
/-- The files of the links are at places of their interfaces, none of them twice. -/
theorem linked_places {links : List (String × Nat)} {linked : List (List File)}
    (hlinked : List.Forall₂ (fun link own => ∃ attachment,
      Linked subnets document hardware link.1 link.2 own attachment) links linked)
    (hkeys : (links.map Prod.fst).Nodup) :
    ∃ places, linked.flatten.map File.path = pathsOf hardware.paths places ∧ places.Nodup ∧
      (∀ place ∈ places, ∃ link ∈ links, place = .link link.1 ∨ place = .delegate link.1) ∧
      ∀ link ∈ links, Place.link link.1 ∈ places := by
  induction hlinked with
  | nil => exact ⟨[], rfl, List.nodup_nil, fun _ hplace => (nomatch hplace),
      fun _ hlink => (nomatch hlink)⟩
  | @cons link own links linked hfirst hrest ih =>
      rw [List.map_cons, List.nodup_cons] at hkeys
      obtain ⟨others, hpaths, hnodup, hof, hall⟩ := ih hkeys.2
      obtain ⟨attachment, hfirst⟩ := hfirst
      obtain ⟨station, hown, hinterface⟩ := hfirst.rendered
      obtain ⟨interface, hsame, -, places, hplaces, hownPaths⟩ := candidate_places hown
      obtain rfl : link.1 = interface := Option.some.inj (hinterface.symm.trans hsame)
      have hapart : ∀ place ∈ places, place ∉ others := by
        intro place hplace hother
        obtain ⟨other, hlink, hname⟩ := hof place hother
        have hkey : link.1 = other.1 := by
          rcases hplaces with rfl | rfl <;> rcases hname with rfl | rfl <;> simp_all
        exact hkeys.1 (hkey ▸ List.mem_map_of_mem hlink)
      refine ⟨places ++ others, ?_, ?_, ?_, ?_⟩
      · rw [List.flatten_cons, List.map_append, hownPaths, hpaths, pathsOf, pathsOf, pathsOf,
          List.map_append]
      · apply List.Nodup.append _ hnodup
        · intro place hplace hother
          exact hapart place hplace hother
        · rcases hplaces with rfl | rfl <;> simp
      · intro place hplace
        rcases List.mem_append.mp hplace with hmine | hother
        · refine ⟨link, List.mem_cons_self, ?_⟩
          rcases hplaces with rfl | rfl <;> simp_all
        · obtain ⟨other, hlink, hname⟩ := hof place hother
          exact ⟨other, List.mem_cons_of_mem _ hlink, hname⟩
      · intro other hlink
        rcases List.mem_cons.mp hlink with rfl | hlater
        · rcases hplaces with rfl | rfl <;> simp
        · exact List.mem_append_right _ (hall other hlater)

omit [BEq φ] in
/-- An interface is idle where a candidate names it and none is selected on it. -/
theorem mem_idleInterfaces_iff {interface : String} :
    interface ∈ idleInterfaces document selection ↔
      (∃ attachment ∈ document.attachments, wiredInterface attachment = some interface) ∧
        interface ∉ selection.links := by
  have hlinked : selection.links.contains interface = false ↔ interface ∉ selection.links := by
    rw [Bool.eq_false_iff, Ne, ExtTreeMap.contains_iff_mem]
  rw [idleInterfaces, List.mem_insertionSort, List.mem_dedup, List.mem_filter,
    List.mem_filterMap, Bool.not_eq_true', hlinked]

omit [BEq φ] in
/-- Each idle interface is told once. -/
theorem nodup_idleInterfaces (document : Document φ) (selection : Selection) :
    (idleInterfaces document selection).Nodup :=
  (List.perm_insertionSort _ _).nodup_iff.mpr (List.nodup_dedup _)

omit [BEq φ] in
/-- A wired interface a candidate names is one the device has. -/
theorem wired_of_candidates {networks : List (List File)}
    (hnetworks : candidates subnets document hardware = .ok networks)
    (hattachment : attachment ∈ document.attachments) {interface : String}
    (hinterface : wiredInterface attachment = some interface) : interface ∈ hardware.wired := by
  obtain ⟨rank, hrank⟩ := List.mem_iff_getElem?.mp hattachment
  obtain ⟨own, -, hown⟩ := getElem_candidates hnetworks hrank
  obtain ⟨other, -, hwired, -⟩ := candidate_places hown
  exact hwired interface hinterface

/-- The files of the radios are at their own places. -/
theorem radioFiles_places (hardware : Hardware) (domain : Option String) :
    ∃ places, (radioFiles hardware domain).map File.path = pathsOf hardware.paths places ∧
      places.Nodup ∧ ∀ place ∈ places, place = .config ∨ place = .regdom := by
  unfold radioFiles
  split
  · exact ⟨[], rfl, List.nodup_nil, fun _ hplace => (nomatch hplace)⟩
  · exact ⟨[.config, .regdom], rfl, by decide, by simp⟩

omit [BEq φ] in
/-- Each item on the left of a relation between lists has one on the right. -/
theorem exists_of_forall₂ {α β : Type} {R : α → β → Prop} {as : List α} {bs : List β}
    (hall : List.Forall₂ R as bs) {a : α} (ha : a ∈ as) : ∃ b ∈ bs, R a b := by
  induction hall with
  | nil => cases ha
  | cons hfirst hrest ih =>
      rcases List.mem_cons.mp ha with rfl | hlater
      · exact ⟨_, List.mem_cons_self, hfirst⟩
      · obtain ⟨b, hb, hrelated⟩ := ih hlater
        exact ⟨b, List.mem_cons_of_mem _ hb, hrelated⟩

/-- The files of the links are at places of the interfaces selected, none of them twice. -/
theorem Parts.linked_places (parts : Parts subnets document hardware selection files) :
    ∃ places, parts.linked.flatten.map File.path = pathsOf hardware.paths places ∧
      places.Nodup ∧ ∀ place ∈ places, ∃ interface,
        (interface ∈ hardware.wired ∨ interface ∈ hardware.radios.map Radio.station) ∧
        interface ∈ selection.links ∧ (place = .link interface ∨ place = .delegate interface) := by
  obtain ⟨places, hpaths, hnodup, hof, -⟩ :=
    Render.linked_places parts.links (OrderedMap.nodup_map_fst_toList selection.links)
  refine ⟨places, hpaths, hnodup, fun place hplace => ?_⟩
  obtain ⟨link, hlink, hname⟩ := hof place hplace
  obtain ⟨own, -, attachment, hlinked⟩ := exists_of_forall₂ parts.links hlink
  have hkey : link.1 ∈ selection.links := ExtTreeMap.mem_iff_isSome_getElem?.mpr (by
    rw [ExtTreeMap.mem_toList_iff_getElem?_eq_some.mp hlink]
    rfl)
  refine ⟨link.1, ?_, hkey, hname⟩
  rcases hlinked.place with ⟨-, hwired⟩ | ⟨-, hstation⟩
  · exact .inl hwired
  · exact .inr hstation

/-- The files of the hotspot are at the places of an access point's interface. -/
theorem Parts.hosted_places (parts : Parts subnets document hardware selection files) :
    ∃ places, parts.hosted.map File.path = pathsOf hardware.paths places ∧ places.Nodup ∧
      ∀ place ∈ places, ∃ interface ∈ hardware.accessPoints,
        place = .link interface ∨ place = .accessPoint interface := by
  rcases hotspot_places parts.hosts with hnone | ⟨interface, hpoint, hpaths⟩
  · exact ⟨[], by rw [hnone]; rfl, List.nodup_nil, fun _ hplace => (nomatch hplace)⟩
  · exact ⟨_, hpaths, by simp, fun place hplace => ⟨interface, hpoint, by simpa using hplace⟩⟩

/-- An access point's interface is none that a link is on. -/
theorem not_mem_accessPoints_of_linked (hdistinct : hardware.Distinct) {interface : String}
    (hlink : interface ∈ hardware.wired ∨ interface ∈ hardware.radios.map Radio.station) :
    interface ∉ hardware.accessPoints := by
  intro hpoint
  have hapart := List.disjoint_of_nodup_append hdistinct.nodup
  exact hapart (List.mem_append.mpr hlink) hpoint

/-- The files rendered are at places, none of them twice, and each place is one of ours. -/
theorem exists_places (hdistinct : hardware.Distinct) (hshown : hardware.Shown)
    (parts : Parts subnets document hardware selection files) :
    ∃ places, (files.map File.path).Perm (pathsOf hardware.paths places) ∧ places.Nodup ∧
      ∀ place ∈ places, place.Named := by
  obtain ⟨joined, hjoinedPaths, hjoinedNodup, hjoined⟩ := joined_places parts.joins
  obtain ⟨linked, hlinkedPaths, hlinkedNodup, hlinked⟩ := parts.linked_places
  obtain ⟨radios, hradiosPaths, hradiosNodup, hradios⟩ :=
    radioFiles_places hardware parts.domain
  obtain ⟨hosted, hhostedPaths, hhostedNodup, hhosted⟩ := parts.hosted_places
  have hidleNodup : ((idleInterfaces document selection).map Place.link).Nodup :=
    (nodup_idleInterfaces document selection).map fun _ _ hsame => Place.link.inj hsame
  have hidlePaths : ((idleInterfaces document selection).map fun interface =>
      Networkd.idle interface hardware.paths).map File.path =
        pathsOf hardware.paths ((idleInterfaces document selection).map Place.link) := by
    rw [pathsOf, List.map_map, List.map_map]
    rfl
  refine ⟨joined ++ hosted ++ linked ++ (idleInterfaces document selection).map Place.link ++
    radios, ?_, ?_, ?_⟩
  · have hwhole := parts.whole.map File.path
    rw [List.map_append, List.map_append, List.map_append, List.map_append, hjoinedPaths,
      hhostedPaths, hlinkedPaths, hidlePaths, hradiosPaths] at hwhole
    simpa only [pathsOf, List.map_append] using hwhole
  · refine (((hjoinedNodup.append hhostedNodup ?_).append hlinkedNodup ?_).append
      hidleNodup ?_).append hradiosNodup ?_
    · intro place hplace hother
      obtain ⟨ssid, enterprise, rfl, -⟩ := hjoined place hplace
      obtain ⟨interface, -, hname | hname⟩ := hhosted _ hother <;> cases hname
    · intro place hplace hother
      obtain ⟨interface, hon, -, hname⟩ := hlinked place hother
      rcases List.mem_append.mp hplace with hnetwork | hpoint
      · obtain ⟨ssid, enterprise, rfl, -⟩ := hjoined place hnetwork
        rcases hname with hname | hname <;> cases hname
      · obtain ⟨point, hheld, hpointName⟩ := hhosted place hpoint
        have hnot := not_mem_accessPoints_of_linked hdistinct hon
        rcases hname with rfl | rfl <;> rcases hpointName with hsame | hsame <;> cases hsame
        exact hnot hheld
    · intro place hplace hother
      obtain ⟨interface, hidle, rfl⟩ := List.mem_map.mp hother
      obtain ⟨⟨attachment, hattachment, hwired⟩, hunlinked⟩ := mem_idleInterfaces_iff.mp hidle
      have hheld := wired_of_candidates parts.checked hattachment hwired
      rcases List.mem_append.mp hplace with hplace | hlink
      · rcases List.mem_append.mp hplace with hnetwork | hpoint
        · obtain ⟨ssid, enterprise, hname, -⟩ := hjoined _ hnetwork
          cases hname
        · obtain ⟨point, hpoint, hname | hname⟩ := hhosted _ hpoint <;> cases hname
          exact not_mem_accessPoints_of_linked hdistinct (.inl hheld) hpoint
      · obtain ⟨other, -, hkey, hname | hname⟩ := hlinked _ hlink <;> cases hname
        exact hunlinked hkey
    · intro place hplace hother
      have hradio := hradios place hother
      simp only [List.mem_append, List.mem_map] at hplace
      rcases hplace with ((hnetwork | hpoint) | hlink) | ⟨interface, -, rfl⟩
      · obtain ⟨ssid, enterprise, rfl, -⟩ := hjoined place hnetwork
        simp at hradio
      · obtain ⟨interface, -, rfl | rfl⟩ := hhosted place hpoint <;> simp at hradio
      · obtain ⟨interface, -, -, rfl | rfl⟩ := hlinked place hlink <;> simp at hradio
      · simp at hradio
  · intro place hplace
    simp only [List.mem_append, List.mem_map] at hplace
    rcases hplace with (((hnetwork | hpoint) | hlink) | ⟨interface, -, rfl⟩) | hradio
    · obtain ⟨ssid, enterprise, rfl, hssid⟩ := hjoined place hnetwork
      exact hssid
    · obtain ⟨interface, hheld, rfl | rfl⟩ := hhosted place hpoint
      · trivial
      · have hin : interface ∈ hardware.interfaces := List.mem_append_right _ hheld
        exact ⟨by simpa using (hdistinct.named interface hin).1, hshown interface hheld⟩
    · obtain ⟨interface, -, -, rfl | rfl⟩ := hlinked place hlink <;> trivial
    · trivial
    · rcases hradios place hradio with rfl | rfl <;> trivial

end Bliti.Network.Render
