import Bliti.Network.Render

/-!
# Rendering - the selections that fit a document

A document is checked before anything of the selection is looked at, so its
faults are its own.  A document without one renders with the selections that fit
it, and with no other.
-/

namespace Bliti.Network.Render

open Std (ExtTreeMap ExtTreeSet)
open Channel.Config

variable {φ : Type}

/-! ## What is decided by the selection alone -/

/-- An answer that turns on whether something fits: a result where it does, and the
selection's fault where it does not. -/
inductive Decided {α : Type} (fits : Prop) : Except Error α → Prop
  | ok (hfits : fits) (value : α) : Decided fits (.ok value)
  | selection (hnot : ¬ fits) (reason : String) : Decided fits (.error (.selection reason))

namespace Decided

variable {α β : Type} {fits other : Prop} {x : Except Error α}

theorem congr (hdecided : Decided fits x) (hsame : fits ↔ other) : Decided other x := by
  cases hdecided with
  | ok hfits value => exact .ok (hsame.mp hfits) value
  | selection hnot reason => exact .selection (fun hother => hnot (hsame.mpr hother)) reason

/-- A sequence is decided by both of its parts. -/
theorem bind {f : α → Except Error β} (hdecided : Decided fits x)
    (hrest : fits → ∀ value, Decided other (f value)) : Decided (fits ∧ other) (x >>= f) := by
  cases hdecided with
  | ok hfits value => exact (hrest hfits value).congr ⟨fun h => ⟨hfits, h⟩, And.right⟩
  | selection hnot reason => exact .selection (fun hboth => hnot hboth.1) reason

/-- It succeeds exactly where it fits. -/
theorem isOk_iff (hdecided : Decided fits x) : x.isOk = true ↔ fits := by
  cases hdecided with
  | ok hfits value => simp [Except.isOk, Except.toBool, hfits]
  | selection hnot reason => simp [Except.isOk, Except.toBool, hnot]

/-- It never finds a fault of the document. -/
theorem ne_invalid (hdecided : Decided fits x) (invalid : Invalid) :
    x ≠ .error (.invalid invalid) := by
  intro hinvalid
  rw [hinvalid] at hdecided
  cases hdecided

end Decided

/-! ## What fits -/

/-- An interface can carry a candidate: a radio, the one the candidate names where it
names one, or the candidate's own wired interface. -/
def Carries (hardware : Hardware) (interface : String) (attachment : Attachment φ) : Prop :=
  match attachment.kind with
  | .wireless wireless =>
      (hardware.radio interface).isSome = true ∧
        ∀ pin, wireless.interface = some pin → pin = interface
  | .wiredDynamic own => own = interface
  | .wiredStatic own _ _ => own = interface

/-- A rank is of a candidate turned on that an interface can carry. -/
def MayLink (document : Document φ) (hardware : Hardware) (interface : String) (rank : Nat) :
    Prop :=
  ∃ attachment, document.attachments[rank]? = some attachment ∧ attachment.enabled = true ∧
    Carries hardware interface attachment

/-- A radio may run the hotspot. -/
def MayHost (hardware : Hardware) (hotspot : Hotspot) (station : String) : Prop :=
  hotspot.enabled = true ∧ ((hardware.radio station).bind Radio.accessPoint).isSome = true ∧
    ∀ pin, hotspot.interface = some pin → pin = station

/-- A selection fits a document: each candidate is up on at most one interface, which can
carry it, and the hotspot on a radio that may run it. -/
structure Fits (document : Document φ) (hardware : Hardware) (selection : Selection) :
    Prop where
  once : ∀ (interface other : String) (rank : Nat), selection.links[interface]? = some rank →
    selection.links[other]? = some rank → interface = other
  links : ∀ (interface : String) (rank : Nat), selection.links[interface]? = some rank →
    MayLink document hardware interface rank
  hotspot : ∀ hotspot station, document.hotspot = some hotspot →
    selection.hotspot = some station → MayHost hardware hotspot station

/-! ## The checks -/

/-- Check the hotspot of a document. -/
def checkHotspots (subnets : Subnets) (hardware : Hardware) (domain : Option String) :
    Option Hotspot → Except Invalid Unit
  | none => .ok ()
  | some hotspot => checkHotspot subnets hardware domain hotspot

/-- What a document is held to, whatever is selected, with what is rendered of it: its
domain, its network files and every candidate's files. -/
def checks [BEq φ] (subnets : Subnets) (document : Document φ) (hardware : Hardware) :
    Except Invalid (Option String × List File × List (List File)) := do
  let domain ← Regdom.domain document
  radios document hardware
  let joined ← Iwd.networks document hardware
  let networks ← candidates subnets document hardware
  checkHotspots subnets hardware domain document.hotspot
  pure (domain, joined, networks)

variable {subnets : Subnets} {document : Document φ} {hardware : Hardware}
  {selection : Selection} {networks : List (List File)} {domain : Option String}

/-- A name that is left out agrees with any, and one that is not with itself. -/
theorem agrees_iff {name : Option String} {station : String} :
    (name.filter fun pin => pin != station) = none ↔ ∀ pin, name = some pin → pin = station := by
  cases name with
  | none => simp
  | some pin => simp [Option.filter]

/-- A wired candidate renders on its own interface. -/
theorem wiredOn_decided (networks : List (List File)) (interface : String) (rank : Nat)
    (own : String) : Decided (own = interface) (wiredOn networks interface rank own) := by
  unfold wiredOn
  split
  · rename_i hother
    exact .selection hother _
  · rename_i hown
    exact .ok (not_not.mp hown) _

/-- A wireless candidate that was checked renders on a radio it does not name another
than. -/
theorem wirelessOn_decided {rank : Nat} {attachment : Attachment φ} {wireless : Wireless φ}
    (hkind : attachment.kind = .wireless wireless) {station : Option String} {files : List File}
    (hchecked : Networkd.candidate subnets attachment rank station hardware = .ok files)
    (interface : String) :
    Decided ((hardware.radio interface).isSome = true ∧
        ∀ pin, wireless.interface = some pin → pin = interface)
      (wirelessOn subnets hardware interface rank attachment wireless) := by
  obtain ⟨others, hothers⟩ := Networkd.candidate_of_checked hkind hchecked interface
  unfold wirelessOn
  split
  · rename_i hnone
    refine .selection (fun hcarries => ?_) _
    rw [Option.isNone_iff_eq_none] at hnone
    rw [hnone] at hcarries
    cases hcarries.1
  · rename_i hsome
    split
    · rename_i pin hpin
      refine .selection (fun hcarries => ?_) _
      rw [agrees_iff.mpr hcarries.2] at hpin
      cases hpin
    · rename_i hpin
      rw [hothers]
      have hradio : (hardware.radio interface).isSome = true :=
        Option.isSome_iff_ne_none.mpr (by simpa using hsome)
      exact .ok ⟨hradio, agrees_iff.mp hpin⟩ others

/-- Where every candidate is checked, each is. -/
theorem candidate_of_candidates
    (hnetworks : candidates subnets document hardware = .ok networks)
    {rank : Nat} {attachment : Attachment φ}
    (hat : document.attachments[rank]? = some attachment) :
    ∃ files, checkedCandidate subnets hardware (attachment, rank) = .ok files :=
  Fallible.ok_of_mapM hnetworks (List.mem_zipIdx_iff_getElem?.mpr hat)

/-- A candidate that was checked renders where an interface can carry it. -/
theorem candidateOn_decided (hnetworks : candidates subnets document hardware = .ok networks)
    {rank : Nat} {attachment : Attachment φ} (hat : document.attachments[rank]? = some attachment)
    (interface : String) :
    Decided (Carries hardware interface attachment)
      (candidateOn subnets hardware networks interface rank attachment) := by
  obtain ⟨files, hfiles⟩ := candidate_of_candidates hnetworks hat
  rw [checkedCandidate] at hfiles
  unfold candidateOn Carries
  cases hkind : attachment.kind with
  | wireless wireless => exact wirelessOn_decided hkind hfiles interface
  | wiredDynamic own => exact wiredOn_decided networks interface rank own
  | wiredStatic own addresses gateway => exact wiredOn_decided networks interface rank own

/-- Some links render where each is of a candidate its interface can carry, and none of one
placed before it. -/
theorem linkFiles_decided (hnetworks : candidates subnets document hardware = .ok networks)
    (placed : ExtTreeSet Nat) (links : List (String × Nat)) :
    Decided ((∀ link ∈ links, MayLink document hardware link.1 link.2 ∧ link.2 ∉ placed) ∧
        (links.map Prod.snd).Nodup)
      (linkFiles subnets document hardware networks placed links) := by
  induction links generalizing placed with
  | nil => exact .ok (by simp) []
  | cons link rest ih =>
      obtain ⟨interface, rank⟩ := link
      have hfirst {fits : Prop} (hlink : ¬ (MayLink document hardware interface rank ∧
          rank ∉ placed)) : ¬ ((∀ link ∈ (interface, rank) :: rest,
            MayLink document hardware link.1 link.2 ∧ link.2 ∉ placed) ∧ fits) := fun hall =>
        hlink (hall.1 (interface, rank) List.mem_cons_self)
      unfold linkFiles
      rcases hat : document.attachments[rank]? with _ | attachment
      · refine .selection (hfirst fun hlink => ?_) _
        obtain ⟨⟨attachment, hsome, -⟩, -⟩ := hlink
        rw [hat] at hsome
        cases hsome
      simp only
      split
      · rename_i hplaced
        exact .selection (hfirst fun hlink => hlink.2 hplaced) _
      split
      · rename_i hfresh hoff
        refine .selection (hfirst fun hlink => ?_) _
        obtain ⟨⟨other, hsome, hon, -⟩, -⟩ := hlink
        rw [hat] at hsome
        cases hsome
        simp [hon] at hoff
      · rename_i hfresh hon
        have hboth := (candidateOn_decided hnetworks hat interface).bind fun _ files =>
          (ih (placed.insert rank)).bind fun _ others =>
            (Decided.ok trivial (files ++ others) : Decided True _)
        refine hboth.congr ?_
        have henabled : attachment.enabled = true := by simpa using hon
        have hmay : MayLink document hardware interface rank ↔
            Carries hardware interface attachment := by
          simp [MayLink, hat, henabled]
        rw [List.forall_mem_cons, hmay, List.map_cons, List.nodup_cons, and_true]
        constructor
        · intro hsplit
          obtain ⟨hcarries, hrest, hnodup⟩ := hsplit
          have hapart : ∀ link ∈ rest, link.2 ≠ rank := by
            intro link hlink hsame
            exact (hrest link hlink).2 (by simp [hsame])
          refine ⟨⟨⟨hcarries, hfresh⟩, fun link hlink => ?_⟩, ?_, hnodup⟩
          · obtain ⟨hlinks, hout⟩ := hrest link hlink
            exact ⟨hlinks, fun hin => hout (ExtTreeSet.mem_insert.mpr (.inr hin))⟩
          · intro hin
            obtain ⟨link, hlink, hsame⟩ := List.mem_map.mp hin
            exact hapart link hlink hsame
        · intro hall
          obtain ⟨⟨⟨hcarries, -⟩, hrest⟩, hout, hnodup⟩ := hall
          refine ⟨hcarries, fun link hlink => ⟨(hrest link hlink).1, fun hin => ?_⟩, hnodup⟩
          rcases ExtTreeSet.mem_insert.mp hin with hsame | hplaced
          · have heq : rank = link.2 := Std.LawfulEqCmp.eq_of_compare hsame
            exact hout (List.mem_map.mpr ⟨link, hlink, heq.symm⟩)
          · exact (hrest link hlink).2 hplaced

/-- A hotspot that was checked renders on a radio that may host it. -/
theorem runHotspot_decided {spot : Hotspot}
    (hchecked : checkHotspot subnets hardware domain spot = .ok ()) :
    Decided (∀ station, selection.hotspot = some station → MayHost hardware spot station)
      (runHotspot subnets hardware selection domain spot) := by
  unfold checkHotspot at hchecked
  split at hchecked
  · cases hchecked
  rename_i checked hfirst
  obtain ⟨network, hnetwork, hchecked⟩ := Fallible.bind_ok.mp hchecked
  obtain ⟨conf, hconf, -⟩ := Fallible.bind_ok.mp hchecked
  unfold runHotspot
  cases hselected : selection.hotspot with
  | none => exact .ok (by simp) []
  | some station =>
      simp only [Option.some.injEq, forall_eq']
      split
      · rename_i hoff
        refine .selection (fun hhost => ?_) _
        simp [hhost.1] at hoff
      rename_i hon
      split
      · rename_i hnone
        refine .selection (fun hhost => ?_) _
        have hsome := hhost.2.1
        rw [hnone] at hsome
        cases hsome
      rename_i accessPoint hable
      split
      · rename_i pin hpin
        refine .selection (fun hhost => ?_) _
        rw [agrees_iff.mpr hhost.2.2] at hpin
        cases hpin
      · rename_i hpin
        obtain ⟨network, hnetwork⟩ :=
          Networkd.hotspot_of_checked hnetwork accessPoint.interface
        obtain ⟨conf, hconf⟩ := Hostapd.conf_of_own hconf accessPoint selection.channels[station]?
        rw [hnetwork, hconf]
        have hhost : MayHost hardware spot station :=
          ⟨by simpa using hon, by rw [hable]; rfl, agrees_iff.mp hpin⟩
        exact .ok hhost [network, conf]

/-- The hotspot of a document that was checked renders on a radio that may host it. -/
theorem hotspot_decided {spot : Option Hotspot} (selection : Selection)
    (hchecked : checkHotspots subnets hardware domain spot = .ok ()) :
    Decided (∀ hotspot, spot = some hotspot → ∀ station, selection.hotspot = some station →
        MayHost hardware hotspot station)
      (hotspot subnets hardware selection domain spot) := by
  cases spot with
  | none => exact .ok (by simp) []
  | some spot =>
      have hspot : checkHotspot subnets hardware domain spot = .ok () := hchecked
      simp only [hotspot, hspot, faulting, Fallible.ok_bind, Option.some.injEq, forall_eq']
      exact runHotspot_decided hspot

/-- The links of a selection fit where each is of a candidate its interface can carry, and
no two of one. -/
theorem links_fit_iff : ((∀ link ∈ selection.links.toList,
      MayLink document hardware link.1 link.2 ∧ link.2 ∉ (∅ : ExtTreeSet Nat)) ∧
      (selection.links.toList.map Prod.snd).Nodup) ↔
    (∀ (interface : String) (rank : Nat), selection.links[interface]? = some rank →
      MayLink document hardware interface rank) ∧
    ∀ (interface other : String) (rank : Nat), selection.links[interface]? = some rank →
      selection.links[other]? = some rank → interface = other := by
  have hmem (interface : String) (rank : Nat) :
      (interface, rank) ∈ selection.links.toList ↔ selection.links[interface]? = some rank :=
    ExtTreeMap.mem_toList_iff_getElem?_eq_some
  have hnodup : selection.links.toList.Nodup :=
    (OrderedMap.nodup_map_fst_toList selection.links).of_map _
  rw [List.nodup_map_iff_inj_on hnodup]
  constructor
  · intro hlinks
    refine ⟨fun interface rank hlink => (hlinks.1 _ ((hmem interface rank).mpr hlink)).1, ?_⟩
    intro interface other rank hlink hother
    have hsame := hlinks.2 _ ((hmem interface rank).mpr hlink) _ ((hmem other rank).mpr hother) rfl
    exact congrArg Prod.fst hsame
  · intro hfit
    refine ⟨fun link hlink => ⟨hfit.1 _ _ ((hmem link.1 link.2).mp hlink), by simp⟩, ?_⟩
    intro one hone two htwo hrank
    have hsame := hfit.2 one.1 two.1 one.2 ((hmem _ _).mp hone) (by
      rw [hrank]
      exact (hmem _ _).mp htwo)
    exact Prod.ext hsame hrank

/-! ## Rendering -/

variable [BEq φ]

/-- A document that fails a check does not render, with the check's fault. -/
theorem render_of_fault {fault : Invalid} (hfault : checks subnets document hardware = .error fault)
    (selection : Selection) :
    render subnets document hardware selection = .error (.invalid fault) := by
  unfold checks at hfault
  unfold render
  rcases hdomain : Regdom.domain document with e | domain
  · rw [hdomain] at hfault
    cases hfault
    rfl
  rcases hradios : radios document hardware with e | named
  · rw [hdomain, hradios] at hfault
    cases hfault
    rfl
  rcases hjoined : Iwd.networks document hardware with e | joined
  · rw [hdomain, hradios, hjoined] at hfault
    cases hfault
    rfl
  rcases hnetworks : candidates subnets document hardware with e | networks
  · rw [hdomain, hradios, hjoined, hnetworks] at hfault
    cases hfault
    rfl
  simp only [hdomain, hradios, hjoined, hnetworks, faulting, Fallible.ok_bind] at hfault ⊢
  rcases Fallible.bind_error.mp hfault with hhotspot | ⟨⟨⟩, -, hpure⟩
  · cases hspot : document.hotspot with
    | none =>
        rw [hspot] at hhotspot
        cases hhotspot
    | some spot =>
        rw [hspot, checkHotspots] at hhotspot
        simp only [hotspot, hhotspot, faulting, Fallible.error_bind]
  · cases hpure

/-- A document that passes the checks renders with the selections that fit it. -/
theorem render_decided {checked : Option String × List File × List (List File)}
    (hchecked : checks subnets document hardware = .ok checked) :
    Decided (Fits document hardware selection)
      (render subnets document hardware selection) := by
  unfold checks at hchecked
  obtain ⟨domain, hdomain, hchecked⟩ := Fallible.bind_ok.mp hchecked
  obtain ⟨⟨⟩, hradios, hchecked⟩ := Fallible.bind_ok.mp hchecked
  obtain ⟨joined, hjoined, hchecked⟩ := Fallible.bind_ok.mp hchecked
  obtain ⟨networks, hnetworks, hchecked⟩ := Fallible.bind_ok.mp hchecked
  obtain ⟨⟨⟩, hhotspot, -⟩ := Fallible.bind_ok.mp hchecked
  unfold render
  simp only [hdomain, hradios, hjoined, hnetworks, faulting, Fallible.ok_bind]
  have hhosted := hotspot_decided selection hhotspot
  have hlinked := linkFiles_decided hnetworks ∅ selection.links.toList
  have hboth := hhosted.bind fun _ hosted => hlinked.bind fun _ linked =>
    (Decided.ok trivial (sorted (joined ++ hosted ++ linked ++
      ((idleInterfaces document selection).map fun interface =>
        Networkd.idle interface hardware.paths) ++ radioFiles hardware domain)) : Decided True _)
  refine hboth.congr ?_
  rw [links_fit_iff, and_true]
  constructor
  · intro hsplit
    obtain ⟨hhost, hlinks, honce⟩ := hsplit
    exact ⟨honce, hlinks, fun spot station hspot => hhost spot hspot station⟩
  · intro hfits
    exact ⟨fun spot hspot station => hfits.hotspot spot station hspot, hfits.links, hfits.once⟩

/-- A render finds a fault exactly where the checks do, and the same, whatever is selected. -/
theorem render_invalid_iff (selection : Selection) (fault : Invalid) :
    render subnets document hardware selection = .error (.invalid fault) ↔
      checks subnets document hardware = .error fault := by
  constructor
  · intro hrender
    rcases hchecks : checks subnets document hardware with other | checked
    · rw [render_of_fault hchecks] at hrender
      cases hrender
      rfl
    · exact absurd hrender ((render_decided hchecks).ne_invalid fault)
  · intro hchecks
    exact render_of_fault hchecks selection

/-- A document renders with a selection where it passes the checks and the selection
fits. -/
theorem render_isOk_iff (selection : Selection) :
    (render subnets document hardware selection).isOk = true ↔
      (checks subnets document hardware).isOk = true ∧ Fits document hardware selection := by
  rcases hchecks : checks subnets document hardware with fault | checked
  · rw [render_of_fault hchecks]
    simp [Except.isOk, Except.toBool]
  · rw [(render_decided hchecks).isOk_iff]
    simp [Except.isOk, Except.toBool]

/-- A document that renders has a channel and width its hotspot takes by itself. -/
theorem operating_of_isOk {selection : Selection}
    (hrender : (render subnets document hardware selection).isOk = true) {spot : Hotspot}
    (hspot : document.hotspot = some spot) :
    ∃ channel width, Hostapd.operating spot false none = .ok (channel, width) := by
  obtain ⟨hchecks, -⟩ := (render_isOk_iff selection).mp hrender
  rcases hfound : checks subnets document hardware with fault | checked
  · rw [hfound] at hchecks
    cases hchecks
  · unfold checks at hfound
    obtain ⟨domain, -, hfound⟩ := Fallible.bind_ok.mp hfound
    obtain ⟨⟨⟩, -, hfound⟩ := Fallible.bind_ok.mp hfound
    obtain ⟨joined, -, hfound⟩ := Fallible.bind_ok.mp hfound
    obtain ⟨networks, -, hfound⟩ := Fallible.bind_ok.mp hfound
    obtain ⟨⟨⟩, hhotspot, -⟩ := Fallible.bind_ok.mp hfound
    rw [hspot, checkHotspots] at hhotspot
    unfold checkHotspot at hhotspot
    split at hhotspot
    · cases hhotspot
    · obtain ⟨network, -, hhotspot⟩ := Fallible.bind_ok.mp hhotspot
      obtain ⟨file, hconf, -⟩ := Fallible.bind_ok.mp hhotspot
      exact Hostapd.operating_of_conf hconf

end Bliti.Network.Render
