import Bliti.Network.Probe.Hardware
import Bliti.Network.Render.Fits
import Bliti.Network.Select.Hosting

/-!
# Rendering - a document accepted once

A document is accepted where it renders with nothing selected.  Whatever a
selector over it then selects fits it, so it renders in every state.

Main results:

- Theorem `accepted_renders`: a document that renders with nothing selected
  renders in every state.
-/

namespace Bliti.Network.Render

open Std (ExtTreeMap)
open Channel.Config Probe
open Select (Selector selecting)

variable {φ : Type}

theorem getElem?_selection_links {s : Selector φ} {interface : String} {rank : Nat} :
    s.selection.links[interface]? = some rank ↔
      ∃ link, s.decision.links[interface]? = some link ∧ link.candidate = rank := by
  simp [Selector.selection]

/-- The radio of a selection's hotspot is the one it is placed on. -/
theorem placed_of_selection_hotspot {s : Selector φ} {station : String}
    (hselected : s.selection.hotspot = some station) :
    ∃ placement, s.decision.hotspot = some placement ∧ placement.radio = station := by
  obtain ⟨placement, hfilter, hradio⟩ := Option.map_eq_some_iff.mp hselected
  exact ⟨placement, (Option.filter_eq_some_iff.mp hfilter).1, hradio⟩

variable [BEq φ]

/-- What a reachable selector over some probed radios selects fits its document. -/
theorem selection_fits {radios : List RadioInfo} (hdistinct : (radios.map RadioInfo.station).Nodup)
    {wired : List String} (paths : Paths) {s : Selector φ}
    (hreach : (selecting φ (selectHardware radios wired)).Reachable s) :
    Fits s.document (renderHardware radios wired paths) s.selection where
  once interface other rank hlink hother := by
    obtain ⟨first, hfirst, hrank⟩ := getElem?_selection_links.mp hlink
    obtain ⟨second, hsecond, hsame⟩ := getElem?_selection_links.mp hother
    exact (Select.selecting_settled _ s hreach).once interface other first second hfirst hsecond
      (hrank.trans hsame.symm)
  links interface rank hlink := by
    obtain ⟨link, hforce, rfl⟩ := getElem?_selection_links.mp hlink
    obtain ⟨attachment, hat, hon, -, hmay⟩ :=
      (Select.selecting_settled _ s hreach).mayLink interface link hforce
    refine ⟨attachment, hat, hon, ?_⟩
    unfold Selector.MayUse at hmay
    unfold Carries
    cases hkind : attachment.kind with
    | wireless wireless =>
        rw [hkind] at hmay
        obtain ⟨⟨radio, hradio, rfl⟩, hpin, -⟩ := hmay
        rw [(Select.selecting_current hreach).hardware] at hradio
        obtain ⟨found, hfound, -⟩ := radio_renderHardware hdistinct hradio paths
        exact ⟨by rw [hfound]; rfl, fun pin h => (hpin pin h).symm⟩
    | wiredDynamic own =>
        rw [hkind] at hmay
        exact hmay.1.symm
    | wiredStatic own addresses gateway =>
        rw [hkind] at hmay
        exact hmay.1.symm
  hotspot hotspot station hhotspot hselected := by
    have hcurrent := Select.selecting_current hreach
    obtain ⟨placement, hplacement, rfl⟩ := placed_of_selection_hotspot hselected
    obtain ⟨enabled, henabled, radio, hhost, -, rfl⟩ := hcurrent.placed hplacement
    obtain ⟨hsome, hon⟩ := Option.filter_eq_some_iff.mp henabled
    rw [hhotspot] at hsome
    cases hsome
    have hradio := Select.Hardware.mem_radios_of_mem_hosts hhost
    rw [hcurrent.hardware] at hradio
    obtain ⟨found, hfound, halongside⟩ := radio_renderHardware hdistinct hradio paths
    have hable := Select.Hardware.accessPoint_of_mem_hosts hhost
    refine ⟨hon, ?_, ?_⟩
    · rw [hfound]
      rw [← halongside, Option.isSome_map] at hable
      exact hable
    · intro pin hpin
      have hnamed := (List.mem_filter.mp (List.mem_of_mem_filter (List.mem_of_mem_filter hhost))).2
      rw [hpin] at hnamed
      have hstation : radio.station = pin := by simpa using hnamed
      exact hstation.symm

/-- A document that renders with nothing selected renders in every state of a selector over
it, and whatever is selected a render finds the same fault of a document, or none. -/
theorem accepted_renders (subnets : Subnets) {radios : List RadioInfo}
    (hdistinct : (radios.map RadioInfo.station).Nodup) (wired : List String) (paths : Paths) :
    (∀ s : Selector φ, (selecting φ (selectHardware radios wired)).Reachable s →
      (render subnets s.document (renderHardware radios wired paths) .empty).isOk = true →
        (render subnets s.document (renderHardware radios wired paths) s.selection).isOk =
          true) ∧
    ∀ (document : Document φ) (hardware : Hardware) (one other : Selection) (fault : Invalid),
      render subnets document hardware one = .error (.invalid fault) ↔
        render subnets document hardware other = .error (.invalid fault) := by
  constructor
  · intro s hreach haccepted
    have hchecks := ((render_isOk_iff _).mp haccepted).1
    exact (render_isOk_iff _).mpr ⟨hchecks, selection_fits hdistinct paths hreach⟩
  · intro document hardware one other fault
    rw [render_invalid_iff, render_invalid_iff]

/-! ### A radio, a port and a hotspot -/

/-- The length after a network's address. -/
def readLength (bound : Nat) (text : List Char) : Option Nat :=
  ((Address.readChar '/' text).bind (Address.readNumber 10 3 bound true)).bind fun length =>
    if length.2 = [] then some length.1 else none

/-- Networks read as an address, a slash and a length. -/
def slashed : Subnets where
  ipNet text :=
    match Address.readIpv4 text.toList with
    | some (addr, rest) => (readLength 33 rest).map fun length => ⟨toLex (false, addr), length⟩
    | none =>
        (Address.readIpv6 text.toList).bind fun found =>
          (readLength 129 found.2).map fun length => ⟨toLex (true, found.1), length⟩
  ipv4Net text := do
    let (addr, rest) ← Address.readIpv4 text.toList
    let length ← readLength 33 rest
    if hbounds : addr < 4294967296 ∧ length ≤ 32 then some ⟨addr, length, hbounds.1, hbounds.2⟩
    else none

/-- A radio that runs a hotspot beside its client. -/
def independentRadio : RadioInfo where
  station := "wlan0"
  model := "radio"
  bands := []
  alongside := some .independent
  sae := false
  scan := true
  survey := false

/-- A document of a network to join, a port and a hotspot. -/
def joinAndHost : Document Nat where
  attachments := [Select.anyRadio, {
    label := "port"
    enabled := true
    verify := true
    nameservers := ["192.0.2.1"]
    kind := .wiredStatic "eth0" ["192.0.2.7/24"] "192.0.2.1" }]
  hotspot := some Select.plainHotspot
  regulatoryDomain := some "NZ"

/-- The document renders with nothing selected, and so it does with its network heard and
its port up. -/
theorem accepted_renders_joinAndHost :
    ∃ s : Selector Nat, (selecting Nat (selectHardware [independentRadio] ["eth0"])).Reachable s ∧
      s.selection.links["wlan0"]? = some 0 ∧
      (render slashed s.document (renderHardware [independentRadio] ["eth0"] .system)
        s.selection).isOk = true := by
  obtain ⟨start, hnew⟩ : ∃ start : Selector Nat,
      Selector.new (selectHardware [independentRadio] ["eth0"]) joinAndHost = .ok start :=
    ⟨_, rfl⟩
  let heard : Select.Event := .inRange "wlan0" "network" (-40)
  have hreach : (selecting Nat (selectHardware [independentRadio] ["eth0"])).Reachable
      (start.handle heard).1 :=
    .next (a := .handle heard) (.start ⟨joinAndHost, hnew⟩) ⟨(start.handle heard).2, rfl⟩
  have hstart : start = (Selector.new (selectHardware [independentRadio] ["eth0"])
      joinAndHost).toOption.get (by decide) := by
    simp [hnew, Except.toOption]
  refine ⟨_, hreach, ?_, ?_⟩
  · rw [hstart]
    decide
  · have hdistinct : ([independentRadio].map RadioInfo.station).Nodup := by decide
    apply (accepted_renders slashed hdistinct ["eth0"] .system).1 _ hreach
    have hdocument : (start.handle heard).1.document = joinAndHost := by
      rw [hstart]
      rfl
    rw [hdocument]
    decide

end Bliti.Network.Render
