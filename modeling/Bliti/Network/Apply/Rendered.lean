import Bliti.Network.Apply.System
import Bliti.Network.Render.Accepted
import Bliti.Network.Render.Occupied

/-!
# Applying - the files of a render

A render is one file at each path, all of them ours, each read by one backend: the
networks of the candidates turned on, the links selected, the wired interfaces
left idle, the hotspot's and the radios' own.

Main results:

- Theorem `render_onePerPath`: a path has one file in every render onto hardware whose interfaces are
  shown and have names of their own, where the backends' places are apart.
-/

namespace Bliti.Network.Apply

open Channel.Config Render

variable {φ : Type}

/-! ## Backends -/

namespace Backend

/-- Whether a file is one a backend reads. -/
def Reads (paths : Paths) : Backend → Path → Prop
  | regdom, path => path = paths.modprobe
  | hostapd, path => (paths.hostapdInterface path).isSome
  | iwd, path => path = paths.iwdConfig ∨ path.parent = some paths.iwdState ∧
      ∃ name, path.fileName = some name ∧ Iwd.owns name
  | networkd, path => path.parent = some paths.networkd ∧
      ∃ name, path.fileName = some name ∧ Networkd.owns name
  | resolved, path => path.parent = some paths.resolved ∧
      ∃ name, path.fileName = some name ∧ Networkd.ownsDelegate name

/-- The backend a place is read by. -/
def ofPlace : Render.Place → Backend
  | .network _ _ => iwd
  | .link _ => networkd
  | .delegate _ => resolved
  | .accessPoint _ => hostapd
  | .config => iwd
  | .regdom => regdom

variable {paths : Paths} {path : Path} {place : Render.Place}

/-- A hostapd configuration is in hostapd's directory. -/
theorem parent_of_hostapdInterface (hheld : (paths.hostapdInterface path).isSome) :
    path.parent = some paths.hostapd := by
  obtain ⟨interface, hinterface⟩ := Option.isSome_iff_exists.mp hheld
  rw [Paths.hostapdConf_of_interface hinterface, Paths.hostapdConf, Path.parent_join]

/-- Where a backend reads the files in it, or else the file it reads. -/
theorem parent_of_reads {backend : Backend} (hreads : Reads paths backend path) :
    match backend with
    | regdom => path = paths.modprobe
    | hostapd => path.parent = some paths.hostapd
    | iwd => path = paths.iwdConfig ∨ path.parent = some paths.iwdState
    | networkd => path.parent = some paths.networkd
    | resolved => path.parent = some paths.resolved := by
  cases backend with
  | regdom => exact hreads
  | hostapd => exact parent_of_hostapdInterface hreads
  | iwd => exact hreads.imp_right And.left
  | networkd => exact hreads.1
  | resolved => exact hreads.1

/-- A file is read by one backend at most. -/
theorem reads_unique (hapart : paths.Apart) {one other : Backend} (hone : Reads paths one path)
    (hother : Reads paths other path) : one = other := by
  have hdirs := hapart.directories
  have hconfig := hapart.config
  have hregdom := hapart.regdom
  have hsingle := hapart.single
  simp only [Paths.directories, List.nodup_cons, List.mem_cons, List.not_mem_nil, or_false,
    not_or] at hdirs
  simp only [Paths.directories, List.forall_mem_cons] at hconfig hregdom
  have hone := parent_of_reads hone
  have hother := parent_of_reads hother
  cases one <;> cases other <;> first | rfl | grind

/-- A file a backend reads is one of ours. -/
theorem owns_of_reads {backend : Backend} (hreads : Reads paths backend path) :
    paths.owns path = true := by
  unfold Paths.owns
  split
  · rfl
  · rename_i hneither
    cases backend with
    | regdom => exact absurd (.inr hreads) hneither
    | hostapd =>
        have hpath := parent_of_hostapdInterface hreads
        have hname : ∃ name, path.fileName = some name := by
          obtain ⟨interface, hinterface⟩ := Option.isSome_iff_exists.mp hreads
          rw [Paths.hostapdConf_of_interface hinterface]
          exact ⟨_, Path.fileName_join _ _⟩
        obtain ⟨name, hname⟩ := hname
        have hheld : (paths.hostapdInterface path).isSome = true := hreads
        simp [hpath, hname, hheld]
    | iwd =>
        rcases hreads with hconfig | ⟨hpath, name, hname, howns⟩
        · exact absurd (.inl hconfig) hneither
        · simp [hpath, hname, howns]
    | networkd =>
        obtain ⟨hpath, name, hname, howns⟩ := hreads
        simp [hpath, hname, howns]
    | resolved =>
        obtain ⟨hpath, name, hname, howns⟩ := hreads
        simp [hpath, hname, howns]

/-- A file falls to a backend that reads it. -/
theorem of_of_reads (hapart : paths.Apart) {backend : Backend}
    (hreads : Reads paths backend path) : of paths path = some backend := by
  have hother : ∀ other, other ≠ backend → ¬ Reads paths other path := fun other hne hread =>
    hne (reads_unique hapart hread hreads)
  have hdirs := hapart.directories
  simp only [Paths.directories, List.nodup_cons, List.mem_cons, List.not_mem_nil, or_false,
    not_or] at hdirs
  have hparent := parent_of_reads hreads
  unfold of
  rw [owns_of_reads hreads]
  cases backend with
  | regdom => simp [show path = paths.modprobe from hreads]
  | hostapd =>
      have hregdom : path ≠ paths.modprobe := hother regdom (by decide)
      have hpoint : (paths.hostapdInterface path).isSome = true := hreads
      simp [hregdom, hpoint]
  | iwd =>
      have hregdom : path ≠ paths.modprobe := hother regdom (by decide)
      have hpoint : ¬ (paths.hostapdInterface path).isSome = true := hother hostapd (by decide)
      simp only [Bool.not_true, Bool.false_eq_true, if_false, if_neg hregdom, if_neg hpoint,
        if_pos hparent]
  | networkd =>
      have hregdom : path ≠ paths.modprobe := hother regdom (by decide)
      have hpoint : ¬ (paths.hostapdInterface path).isSome = true := hother hostapd (by decide)
      have hconfig : path ≠ paths.iwdConfig := fun hsame => hother iwd (by decide) (.inl hsame)
      simp only [Bool.not_true, Bool.false_eq_true, if_false, if_neg hregdom, if_neg hpoint]
      grind
  | resolved =>
      have hregdom : path ≠ paths.modprobe := hother regdom (by decide)
      have hpoint : ¬ (paths.hostapdInterface path).isSome = true := hother hostapd (by decide)
      have hconfig : path ≠ paths.iwdConfig := fun hsame => hother iwd (by decide) (.inl hsame)
      simp only [Bool.not_true, Bool.false_eq_true, if_false, if_neg hregdom, if_neg hpoint]
      grind

/-- A place is read by its backend. -/
theorem reads_place (hnamed : place.Named) : Reads paths (ofPlace place) (place.path paths) := by
  cases place with
  | network ssid enterprise =>
      exact .inr ⟨Place.parent_path paths _, _, Path.fileName_join _ _, Iwd.owns_name hnamed _⟩
  | link interface =>
      exact ⟨Place.parent_path paths _, _, Path.fileName_join _ _,
        (Networkd.owns_name interface).1⟩
  | delegate interface =>
      exact ⟨Place.parent_path paths _, _, Path.fileName_join _ _,
        (Networkd.owns_name interface).2⟩
  | accessPoint interface =>
      have hinterface := hostapdInterface_hostapdConf paths hnamed
      exact Option.isSome_iff_exists.mpr ⟨interface, hinterface⟩
  | config => exact .inl rfl
  | regdom => rfl

end Backend

/-! ## The files of a render -/

/-- What a file rendered comes from: the network of a candidate turned on, the candidate turned
on that an interface brings up, the hotspot, an idle interface, or the radios. -/
inductive Source (subnets : Subnets) (document : Document φ) (hardware : Hardware)
    (selection : Selection) : File → Prop where
  | network {attachment : Attachment φ} {rank : Nat} {wireless : Wireless φ} {text : String} :
      (attachment, rank) ∈ document.attachments.zipIdx → attachment.enabled →
      attachment.kind = .wireless wireless → Iwd.security wireless rank = .ok text →
      Source subnets document hardware selection (Iwd.networkFile hardware wireless rank text)
  | link {interface : String} {rank : Nat} {own : List File} {attachment : Attachment φ}
      {file : File} : selection.links[interface]? = some rank →
      Linked subnets document hardware interface rank own attachment → file ∈ own →
      Source subnets document hardware selection file
  | hotspot {domain : Option String} {hosted : List File} {file : File} :
      Render.hotspot subnets hardware selection domain document.hotspot = .ok hosted →
      file ∈ hosted → Source subnets document hardware selection file
  | idle {interface : String} : interface ∈ idleInterfaces document selection →
      Source subnets document hardware selection (Networkd.idle interface hardware.paths)
  | radios {domain : Option String} {file : File} : file ∈ radioFiles hardware domain →
      Source subnets document hardware selection file

/-- What holds of the files of a render: no two are at one path; each is ours and is read by one
backend, the one it falls to; two candidates turned on share a network file where their SSIDs are
one, byte for byte, and both or neither are enterprise's; each wired interface a candidate names
has one file, its linked candidate's or the idle one; and a candidate that is turned off is behind
none of the networks and none of the links. -/
structure OnePerPath (subnets : Subnets) (document : Document φ) (hardware : Hardware)
    (selection : Selection) (files : List File) : Prop where
  distinct : (files.map File.path).Nodup
  owned : ∀ file ∈ files, hardware.paths.owns file.path = true
  backend : ∀ file ∈ files, ∃ backend, Backend.of hardware.paths file.path = some backend ∧
    ∀ other, Backend.Reads hardware.paths other file.path ↔ other = backend
  shared : ∀ one place wireless other index another,
    (one, place) ∈ document.attachments.zipIdx → one.enabled → one.kind = .wireless wireless →
    (other, index) ∈ document.attachments.zipIdx → other.enabled →
    other.kind = .wireless another →
    ∃ file ∈ files, ∃ second ∈ files, file.path = Iwd.networkPath hardware wireless ∧
      second.path = Iwd.networkPath hardware another ∧
      (file = second ↔ wireless.ssid = another.ssid ∧
        isEnterprise wireless.security = isEnterprise another.security)
  wired : ∀ attachment ∈ document.attachments, ∀ interface,
    wiredInterface attachment = some interface →
    ∃ file ∈ files, file.path = Networkd.path hardware.paths interface ∧
      (∀ other ∈ files, other.path = Networkd.path hardware.paths interface → other = file) ∧
      match selection.links[interface]? with
      | none => file = Networkd.idle interface hardware.paths
      | some rank => ∃ own linked, Linked subnets document hardware interface rank own linked ∧
          wiredInterface linked = some interface ∧ file ∈ own
  sources : ∀ file ∈ files, Source subnets document hardware selection file
  disabled : ∀ attachment rank, (attachment, rank) ∈ document.attachments.zipIdx →
    attachment.enabled = false → ∀ interface : String, selection.links[interface]? ≠ some rank

variable [BEq φ] {subnets : Subnets} {document : Document φ} {hardware : Hardware}
  {selection : Selection} {files : List File}

/-- Each file rendered has a source. -/
theorem source_of_parts (parts : Parts subnets document hardware selection files) {file : File}
    (hfile : file ∈ files) : Source subnets document hardware selection file := by
  have hwhole := parts.whole.mem_iff.mp hfile
  simp only [List.mem_append, List.mem_map, List.mem_flatten] at hwhole
  rcases hwhole with (((hjoined | hhosted) | ⟨own, hown, hmem⟩) | ⟨interface, hidle, rfl⟩) | hradio
  · obtain ⟨networks, hknows, hjoins⟩ := Iwd.knows_of_networks parts.joins
    rw [hjoins] at hjoined
    obtain ⟨network, hnetwork, rfl⟩ := List.mem_map.mp hjoined
    obtain ⟨attachment, hcandidate, henabled, hkind⟩ := hknows.wanted network hnetwork
    obtain ⟨text, htext, hsame⟩ := hknows.written network hnetwork
    rw [hsame]
    exact .network hcandidate henabled hkind htext
  · exact .hotspot parts.hosts hhosted
  · obtain ⟨link, hlink, attachment, hlinked⟩ := exists_of_forall₂ parts.links.flip hown
    exact .link (Std.ExtTreeMap.mem_toList_iff_getElem?_eq_some.mp hlink) hlinked hmem
  · exact .idle hidle
  · exact .radios hradio

/-- An interface selected has the files of its candidate among those rendered. -/
theorem linked_of_parts (parts : Parts subnets document hardware selection files)
    {interface : String} {rank : Nat} (hselected : selection.links[interface]? = some rank) :
    ∃ own attachment, Linked subnets document hardware interface rank own attachment ∧
      ∀ file ∈ own, file ∈ files := by
  have hlink := Std.ExtTreeMap.mem_toList_iff_getElem?_eq_some.mpr hselected
  obtain ⟨own, hown, attachment, hlinked⟩ := exists_of_forall₂ parts.links hlink
  refine ⟨own, attachment, hlinked, fun file hfile => parts.whole.mem_iff.mpr ?_⟩
  simp only [List.mem_append, List.mem_flatten]
  exact .inl (.inl (.inr ⟨own, hown, hfile⟩))

/-- A candidate turned on has its network file among those rendered. -/
theorem network_of_parts (parts : Parts subnets document hardware selection files)
    {attachment : Attachment φ} {rank : Nat} {wireless : Wireless φ}
    (hcandidate : (attachment, rank) ∈ document.attachments.zipIdx)
    (henabled : attachment.enabled) (hkind : attachment.kind = .wireless wireless) :
    ∃ file ∈ files, file.path = Iwd.networkPath hardware wireless := by
  obtain ⟨networks, hknows, hjoins⟩ := Iwd.knows_of_networks parts.joins
  obtain ⟨-, network, hnetwork, hpath, -⟩ :=
    hknows.held attachment rank wireless hcandidate henabled hkind
  refine ⟨network.file, parts.whole.mem_iff.mpr ?_, hpath⟩
  simp only [List.mem_append, hjoins]
  exact .inl (.inl (.inl (.inl (List.mem_map_of_mem hnetwork))))

omit [BEq φ] in
/-- The first of a link's files is its own. -/
theorem exists_link_of_linked {interface : String} {rank : Nat} {own : List File}
    {attachment : Attachment φ}
    (hlinked : Linked subnets document hardware interface rank own attachment) :
    ∃ file ∈ own, file.path = Networkd.path hardware.paths interface := by
  obtain ⟨station, hown, hinterface⟩ := hlinked.rendered
  obtain ⟨other, hsame, -, places, hplaces, hpaths⟩ := candidate_places hown
  obtain rfl : interface = other := Option.some.inj (hinterface.symm.trans hsame)
  have hmem : Networkd.path hardware.paths interface ∈ own.map File.path := by
    rw [hpaths]
    rcases hplaces with rfl | rfl <;> exact List.mem_cons_self
  exact List.mem_map.mp hmem

omit [BEq φ] in
/-- Two candidates' networks are at one path where their SSIDs are one and both or neither are
enterprise's. -/
theorem networkPath_eq_iff (hapart : hardware.paths.Apart) {wireless other : Wireless φ} :
    Iwd.networkPath hardware wireless = Iwd.networkPath hardware other ↔
      wireless.ssid = other.ssid ∧ isEnterprise wireless.security = isEnterprise other.security := by
  rw [← path_networkPlace, ← path_networkPlace, (Place.path_injective hapart).eq_iff,
    networkPlace, networkPlace, Place.network.injEq]

/-- A wired interface a candidate names has its linked candidate's file, or the idle one. -/
theorem wired_of_parts (hdistinct : hardware.Distinct)
    (parts : Parts subnets document hardware selection files)
    {attachment : Attachment φ} (hattachment : attachment ∈ document.attachments)
    {interface : String} (hinterface : wiredInterface attachment = some interface) :
    ∃ file ∈ files, file.path = Networkd.path hardware.paths interface ∧
      match selection.links[interface]? with
      | none => file = Networkd.idle interface hardware.paths
      | some rank => ∃ own linked, Linked subnets document hardware interface rank own linked ∧
          wiredInterface linked = some interface ∧ file ∈ own := by
  cases hselected : selection.links[interface]? with
  | none =>
      have hunlinked : interface ∉ selection.links := by
        rw [Std.ExtTreeMap.mem_iff_isSome_getElem?, hselected]
        exact Bool.false_ne_true
      have hidle := mem_idleInterfaces_iff.mpr ⟨⟨attachment, hattachment, hinterface⟩, hunlinked⟩
      refine ⟨Networkd.idle interface hardware.paths, parts.whole.mem_iff.mpr ?_, rfl, rfl⟩
      simp only [List.mem_append]
      exact .inl (.inr (List.mem_map_of_mem hidle))
  | some rank =>
      obtain ⟨own, linked, hlinked, hin⟩ := linked_of_parts parts hselected
      obtain ⟨file, hfile, hpath⟩ := exists_link_of_linked hlinked
      refine ⟨file, hin file hfile, hpath, own, linked, hlinked, ?_, hfile⟩
      rcases hlinked.place with ⟨hwired, -⟩ | ⟨-, hstation⟩
      · exact hwired
      · have hheld := wired_of_candidates parts.checked hattachment hinterface
        have hapart := List.disjoint_of_nodup_append (List.nodup_append.mp hdistinct.nodup).1
        exact absurd hstation (hapart hheld)

/-- A render onto hardware whose interfaces have names of their own, none of its access points'
hidden, and whose backends' places are apart, is one file at each path, all of them ours. -/
theorem render_onePerPath (hdistinct : hardware.Distinct) (hshown : hardware.Shown)
    (hapart : hardware.paths.Apart)
    (hrender : render subnets document hardware selection = .ok files) :
    OnePerPath subnets document hardware selection files := by
  obtain ⟨parts⟩ := render_parts hrender
  obtain ⟨places, hpaths, hnodup, hnamed⟩ := exists_places hdistinct hshown parts
  have hinjective := Place.path_injective hapart
  have hplace : ∀ file ∈ files, ∃ place : Render.Place, place.Named ∧
      file.path = place.path hardware.paths := by
    intro file hfile
    have hmem := hpaths.mem_iff.mp (List.mem_map_of_mem hfile)
    obtain ⟨place, hheld, hpath⟩ := List.mem_map.mp hmem
    exact ⟨place, hnamed place hheld, hpath.symm⟩
  have hdistinctPaths : (files.map File.path).Nodup :=
    hpaths.nodup_iff.mpr (hnodup.map hinjective)
  have honly : ∀ {one other : File}, one ∈ files → other ∈ files → one.path = other.path →
      one = other := fun hone hother hsame =>
    List.inj_on_of_nodup_map hdistinctPaths hone hother hsame
  exact {
    distinct := hdistinctPaths
    owned := by
      intro file hfile
      obtain ⟨place, hname, hpath⟩ := hplace file hfile
      rw [hpath]
      exact Place.owned hname
    backend := by
      intro file hfile
      obtain ⟨place, hname, hpath⟩ := hplace file hfile
      have hreads : Backend.Reads hardware.paths (Backend.ofPlace place) file.path := by
        rw [hpath]
        exact Backend.reads_place hname
      refine ⟨_, Backend.of_of_reads hapart hreads, fun other => ⟨?_, ?_⟩⟩
      · exact fun hother => Backend.reads_unique hapart hother hreads
      · rintro rfl
        exact hreads
    shared := by
      intro one place wireless other index another hone hon hkind hother henabled hwireless
      obtain ⟨file, hfile, hpath⟩ := network_of_parts parts hone hon hkind
      obtain ⟨second, hsecond, hat⟩ := network_of_parts parts hother henabled hwireless
      refine ⟨file, hfile, second, hsecond, hpath, hat, ?_⟩
      rw [← networkPath_eq_iff hapart, ← hpath, ← hat]
      exact ⟨fun hsame => congrArg File.path hsame, fun hsame => honly hfile hsecond hsame⟩
    wired := by
      intro attachment hattachment interface hinterface
      obtain ⟨file, hfile, hpath, hsays⟩ :=
        wired_of_parts hdistinct parts hattachment hinterface
      exact ⟨file, hfile, hpath,
        fun other hother hsame => honly hother hfile (hsame.trans hpath.symm), hsays⟩
    sources := fun file hfile => source_of_parts parts hfile
    disabled := by
      intro attachment rank hcandidate hoff interface hselected
      obtain ⟨own, linked, hlinked, -⟩ := linked_of_parts parts hselected
      have hat := List.mem_zipIdx_iff_getElem?.mp hcandidate
      cases hat.symm.trans hlinked.held
      have hon := hlinked.enabled
      rw [hoff] at hon
      cases hon }

/-- The hardware the probe finds has no access point hidden: it names them itself. -/
theorem shown_renderHardware (radios : List Probe.RadioInfo) (wired : List String)
    (paths : Paths) : (Probe.renderHardware radios wired paths).Shown := by
  intro interface hinterface
  obtain ⟨radio, hradio, hpoint⟩ := List.mem_filterMap.mp hinterface
  obtain ⟨⟨info, index⟩, -, rfl⟩ := List.mem_map.mp hradio
  obtain ⟨point, hheld, rfl⟩ := Option.map_eq_some_iff.mp hpoint
  obtain ⟨alongside, -, rfl⟩ := Option.map_eq_some_iff.mp hheld
  simp [Text.startsWith, accessPoint, List.isPrefixOf]

/-! ### A radio, a port and a hotspot -/

/-- The port up and the hotspot running. -/
def portAndHotspot : Selection where
  links := (∅ : Std.ExtTreeMap String Nat).insert "eth0" 1
  hotspot := some "wlan0"
  channels := ∅

/-- A radio and a port with the hotspot running render one file at each path. -/
theorem joinAndHost_onePerPath : ∃ files,
    render slashed joinAndHost (Probe.renderHardware [independentRadio] ["eth0"] .system)
      portAndHotspot = .ok files ∧
    OnePerPath slashed joinAndHost (Probe.renderHardware [independentRadio] ["eth0"] .system)
      portAndHotspot files := by
  have hok : (render slashed joinAndHost (Probe.renderHardware [independentRadio] ["eth0"] .system)
      portAndHotspot).isOk = true := by
    decide
  rcases hrender : render slashed joinAndHost
      (Probe.renderHardware [independentRadio] ["eth0"] .system) portAndHotspot with error | files
  · rw [hrender] at hok
    cases hok
  · exact ⟨files, rfl, render_onePerPath ⟨by decide, by decide⟩
      (shown_renderHardware _ _ _) Paths.system_apart hrender⟩

/-- A radio whose access point is hidden. -/
def hiddenPoint : Hardware where
  wired := ["eth0"]
  radios := [{
    station := "wlan0"
    accessPoint := some { interface := ".ap0", alongside := .independent } }]
  paths := .system

/-- A radio whose files are all written over one another. -/
def onePlace : Hardware where
  wired := ["eth0"]
  radios := [{
    station := "wlan0"
    accessPoint := some { interface := "ap0", alongside := .independent } }]
  paths := { Paths.system with modprobe := Paths.system.iwdConfig }

/-- Names of their own are not enough for the interfaces: a hidden access point's configuration
is not taken for one of ours, and two files meet where two backends read from one place. -/
theorem not_render_onePerPath :
    (∃ files, hiddenPoint.Distinct ∧
      render slashed joinAndHost hiddenPoint portAndHotspot = .ok files ∧
      ¬ OnePerPath slashed joinAndHost hiddenPoint portAndHotspot files) ∧
    ∃ files, onePlace.Distinct ∧
      render slashed joinAndHost onePlace portAndHotspot = .ok files ∧
      ¬ OnePerPath slashed joinAndHost onePlace portAndHotspot files := by
  constructor
  · have hread : ((render slashed joinAndHost hiddenPoint portAndHotspot).toOption.map
        fun files => files.all fun file => hiddenPoint.paths.owns file.path) = some false := by
      decide
    rcases hrender : render slashed joinAndHost hiddenPoint portAndHotspot with error | files
    · rw [hrender] at hread
      cases hread
    · rw [hrender] at hread
      refine ⟨files, ⟨by decide, by decide⟩, rfl, fun honce => ?_⟩
      have hall := List.all_eq_true.mpr honce.owned
      cases hread.symm.trans (congrArg some hall)
  · have hread : ((render slashed joinAndHost onePlace portAndHotspot).toOption.map
        fun files => decide (files.map File.path).Nodup) = some false := by
      decide
    rcases hrender : render slashed joinAndHost onePlace portAndHotspot with error | files
    · rw [hrender] at hread
      cases hread
    · rw [hrender] at hread
      refine ⟨files, ⟨by decide, by decide⟩, rfl, fun honce => ?_⟩
      cases hread.symm.trans (congrArg some (decide_eq_true honce.distinct))

end Bliti.Network.Apply
