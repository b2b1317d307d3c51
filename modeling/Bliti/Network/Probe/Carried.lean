import Bliti.Channel.Messages.Typed
import Bliti.Channel.Messages.Written
import Bliti.Network.Probe.Capabilities

/-!
# Probing - capabilities a peer can read

The stations of the radios are names of members of the capabilities, and a message
gives the names of its members a meaning of its own: letters of one case, digits and
hyphens.  Capabilities come to a peer as they were sent exactly where every station is
such a name in lower case.

Main results:

- Theorem `read_capabilities_iff`: a message carrying capabilities is read as it was
  written, each radio under its own name, exactly where every station is a plain name.
-/

namespace Bliti.Network.Probe

open Channel.Config
open Channel.Envelope (AllPlain Kept Plain Raw kept_collect kept_nil kept_object
  kept_sublist written)
open Channel.Messages (Formats Message messages)

variable {φ Date : Type}

/-! ## Capabilities of plain names -/

/-- Texts have no member names. -/
@[simp]
theorem kept_texts (items : List String) : Kept (φ := φ) (texts items) := by
  simp [texts]

/-- Numbers have no member names. -/
@[simp]
theorem kept_numbers (items : List Nat) : Kept (φ := φ) (numbers items) := by
  simp [numbers]

/-- What a radio is keeps to plain names. -/
theorem kept_describe (radio : RadioInfo) : Kept (φ := φ) (.object (describe radio)) := by
  unfold describe
  apply kept_collect
  · have hnames : AllPlain ["model", "bands"] := by decide
    have hall : AllPlain ["model", "bands", "alongside"] := by decide
    cases radio.alongside with
    | none => exact hnames
    | some alongside => exact hall
  · cases radio.alongside <;> simp

/-- The security kinds keep to plain names. -/
theorem kept_security (radio : RadioInfo) (backend : Backend) :
    Kept (φ := φ) (.object (security radio backend)) := by
  have heap : Kept (φ := φ) (.object [("eap", texts backend.eap)]) :=
    kept_object ["eap"] rfl (by decide) (by simp)
  unfold security
  apply kept_collect
  · have hnames : AllPlain ["psk", "sae", "psk-sae", "enterprise"] := by decide
    intro name hname
    apply hnames
    split at hname <;> split at hname <;> simp at hname ⊢ <;> grind
  · cases radio.sae <;> cases backend.eap.isEmpty <;> simp [heap]

/-- What a hotspot on a band may carry keeps to plain names. -/
theorem kept_hotspotBand {radio : RadioInfo} {backend : Backend} {band : Band}
    {offered : String × Json φ} (hoffered : hotspotBand radio backend band = some offered) :
    Plain offered.1 ∧ Kept offered.2 := by
  have hband : Plain band.asStr := by cases band <;> decide
  unfold hotspotBand at hoffered
  obtain ⟨info, -, hoffered⟩ := Option.bind_eq_some_iff.mp hoffered
  obtain ⟨carried, -, hoffered⟩ := Option.bind_eq_some_iff.mp hoffered
  split at hoffered
  · cases hoffered
  · cases hoffered
    exact ⟨hband, kept_object ["channel", "channel-width"] rfl (by decide) (by simp)⟩

/-- What a hotspot on a radio may carry keeps to plain names. -/
theorem kept_hotspot {radio : RadioInfo} {backend : Backend} {offered : Json.Map φ}
    (hoffered : hotspot radio backend = some offered) : Kept (.object offered) := by
  have hbands : Kept (φ := φ) (.object (Json.collect (allBands.filterMap
      (hotspotBand radio backend)))) := by
    apply kept_collect
    · intro name hname
      obtain ⟨member, hmember, rfl⟩ := List.mem_map.mp hname
      obtain ⟨band, -, hband⟩ := List.mem_filterMap.mp hmember
      exact (kept_hotspotBand hband).1
    · intro member hmember
      obtain ⟨band, -, hband⟩ := List.mem_filterMap.mp hmember
      exact (kept_hotspotBand hband).2
  unfold hotspot at hoffered
  obtain ⟨alongside, -, hoffered⟩ := Option.bind_eq_some_iff.mp hoffered
  simp only at hoffered
  split at hoffered
  · cases hoffered
    exact kept_object ["band"] rfl (by decide) (by simpa using hbands)
  · split at hoffered
    · cases hoffered
      exact kept_nil
    · cases hoffered

variable {radios : List RadioInfo} {wired : List String} {backend : Backend}

/-- Members named by the stations of some radios keep to plain names where the stations do. -/
theorem kept_stations {f : RadioInfo → Json φ} (hplain : ∀ radio ∈ radios, Plain radio.station)
    (hvalues : ∀ radio ∈ radios, Kept (f radio)) :
    Kept (.object (Json.collect (radios.map fun radio => (radio.station, f radio)))) := by
  apply kept_collect
  · intro name hname
    obtain ⟨member, hmember, rfl⟩ := List.mem_map.mp hname
    obtain ⟨radio, hradio, rfl⟩ := List.mem_map.mp hmember
    exact hplain radio hradio
  · intro member hmember
    obtain ⟨radio, hradio, rfl⟩ := List.mem_map.mp hmember
    exact hvalues radio hradio

/-- The kinds of candidate keep to plain names where the stations are such names. -/
theorem kept_kinds (hplain : ∀ radio ∈ radios, Plain radio.station) :
    Kept (φ := φ) (.object (kinds radios wired backend)) := by
  have hradio : ∀ radio ∈ radios, Kept (φ := φ) (.object [
      ("hidden", .bool true),
      ("security", .object [("kind", .object (security radio backend))])]) := by
    intro radio _
    have hsecurity : Kept (φ := φ) (.object [("kind", .object (security radio backend))]) :=
      kept_object ["kind"] rfl (by decide) (by simpa using kept_security radio backend)
    exact kept_object ["hidden", "security"] rfl (by decide) (by simpa using hsecurity)
  have hinterfaces : Kept (φ := φ) (.object (Json.collect (radios.map fun radio =>
      (radio.station, .object [
        ("hidden", .bool true),
        ("security", .object [("kind", .object (security radio backend))])])))) :=
    kept_stations hplain hradio
  have hwireless : Kept (φ := φ) (.object [("interface", .object (Json.collect (radios.map
      fun radio => (radio.station, .object [
        ("hidden", .bool true),
        ("security", .object [("kind", .object (security radio backend))])])))),
      ("nameservers", .bool true)]) :=
    kept_object ["interface", "nameservers"] rfl (by decide) (by simpa using hinterfaces)
  have honWire : Kept (φ := φ) (.object [("interface", texts wired), ("nameservers", .bool true)]) :=
    kept_object ["interface", "nameservers"] rfl (by decide) (by simp)
  unfold kinds
  apply kept_collect
  · have hnames : AllPlain ["wireless", "wired-dynamic", "wired-static"] := by decide
    intro name hname
    apply hnames
    split at hname <;> split at hname <;> simp at hname ⊢ <;> grind
  · cases radios.isEmpty <;> cases wired.isEmpty <;> simp [hwireless, honWire]

/-- What a document may carry keeps to plain names where the stations are such names. -/
theorem kept_document (hplain : ∀ radio ∈ radios, Plain radio.station) :
    Kept (φ := φ) (.object (document radios wired backend)) := by
  have hkinds : Kept (φ := φ) (.object [("kind", .object (kinds radios wired backend))]) :=
    kept_object ["kind"] rfl (by decide) (by simpa using kept_kinds hplain)
  have hinterfaces : Kept (φ := φ) (.object (Json.collect (hotspots radios backend))) := by
    apply kept_collect
    · intro name hname
      obtain ⟨member, hmember, rfl⟩ := List.mem_map.mp hname
      obtain ⟨radio, hradio, hmember⟩ := List.mem_filterMap.mp hmember
      obtain ⟨offered, -, rfl⟩ := Option.map_eq_some_iff.mp hmember
      exact hplain radio hradio
    · intro member hmember
      obtain ⟨radio, hradio, hmember⟩ := List.mem_filterMap.mp hmember
      obtain ⟨offered, hoffered, rfl⟩ := Option.map_eq_some_iff.mp hmember
      exact kept_hotspot hoffered
  have hconstraints : Kept (φ := φ) (.object (hotspotConstraints radios backend)) :=
    kept_object ["dhcp-range", "interface", "isolate-clients", "share-upstream"] rfl (by decide)
      (by simpa [hotspotConstraints] using hinterfaces)
  have hwhole : Kept (φ := φ) (.object [
      ("attachments", .object [("kind", .object (kinds radios wired backend))]),
      ("hotspot", .object (hotspotConstraints radios backend)),
      ("regulatory-domain", .bool true)]) :=
    kept_object ["attachments", "hotspot", "regulatory-domain"] rfl (by decide)
      (by simpa using ⟨hkinds, hconstraints⟩)
  apply kept_sublist _ hwhole
  unfold document
  split <;> split <;> simp

/-- The acts keep to plain names where the stations are such names. -/
theorem kept_acts (hplain : ∀ radio ∈ radios, Plain radio.station) :
    Kept (φ := φ) (.object (acts radios)) := by
  have hone : ∀ offers : RadioInfo → Bool, Kept (φ := φ) (.object [("interface", .object
      (Json.collect ((radios.filter offers).map fun radio => (radio.station, .object []))))]) := by
    intro offers
    have hinterfaces : Kept (φ := φ) (.object (Json.collect ((radios.filter offers).map
        fun radio => (radio.station, .object [])))) :=
      kept_stations (fun radio hradio => hplain radio (List.mem_of_mem_filter hradio))
        fun _ _ => kept_nil
    exact kept_object ["interface"] rfl (by decide) (by simpa using hinterfaces)
  have hwhole : Kept (φ := φ) (.object [
      ("scan", .object [("interface", .object (Json.collect ((radios.filter RadioInfo.scan).map
        fun radio => (radio.station, .object []))))]),
      ("survey", .object [("interface", .object (Json.collect ((radios.filter
        RadioInfo.survey).map fun radio => (radio.station, .object []))))])]) :=
    kept_object ["scan", "survey"] rfl (by decide) (by simpa using ⟨hone _, hone _⟩)
  apply kept_sublist _ hwhole
  unfold acts act
  simp only
  split <;> split <;> simp

/-- The capabilities of stations of plain names keep to them. -/
theorem kept_capabilities (hplain : ∀ radio ∈ radios, Plain radio.station) :
    Kept (φ := φ) (.object (capabilities radios wired backend)) := by
  have hradios : Kept (φ := φ) (.object (Json.collect (radios.map fun radio =>
      (radio.station, .object (describe radio))))) :=
    kept_stations hplain fun radio _ => kept_describe radio
  unfold capabilities
  apply kept_collect
  · have hnames : AllPlain ["document", "radios", "acts"] := by decide
    intro name hname
    apply hnames
    split at hname <;> simp at hname ⊢ <;> grind
  · cases radios.isEmpty <;> simp [kept_document hplain, kept_acts hplain, hradios]

/-! ## Capabilities read -/

/-- The radio described under its own name. -/
def Named (offered : Json.Map φ) (radio : RadioInfo) : Prop :=
  ∃ described, Json.get offered "radios" = some (.object described) ∧
    Json.get described radio.station = some (.object (describe radio))

/-- Each radio is described under its own name, where no two share one. -/
theorem named_capabilities (hdistinct : (radios.map RadioInfo.station).Nodup)
    {radio : RadioInfo} (hradio : radio ∈ radios) :
    Named (φ := φ) (capabilities radios wired backend) radio := by
  have hsome : radios.isEmpty = false := by
    rw [List.isEmpty_eq_false_iff]
    intro hnil
    rw [hnil] at hradio
    cases hradio
  refine ⟨Json.collect (radios.map fun radio => (radio.station, .object (describe radio))), ?_, ?_⟩
  · unfold capabilities
    rw [hsome]
    apply Json.get_insertAll_of_mem
    · have hnames : ["document", "radios", "acts"].Nodup := by decide
      exact hnames
    · simp
  · apply Json.get_insertAll_of_mem
    · rw [List.map_map]
      exact hdistinct
    · exact List.mem_map.mpr ⟨radio, hradio, rfl⟩

/-- A station that is a name of a member of plain names is one. -/
theorem plain_of_capabilities (hdistinct : (radios.map RadioInfo.station).Nodup)
    (hplain : (Json.object (φ := φ) (capabilities radios wired backend)).EveryObject AllPlain) :
    ∀ radio ∈ radios, Plain radio.station := by
  intro radio hradio
  have hnamed : Named (φ := φ) (capabilities radios wired backend) radio :=
    named_capabilities hdistinct hradio
  obtain ⟨described, hradios, hstation⟩ := hnamed
  have hdescribed := (Json.everyObject_object.mp hplain).2 _ (Json.mem_of_get hradios)
  exact (Json.everyObject_object.mp hdescribed).1 _
    (List.mem_map.mpr ⟨_, Json.mem_of_get hstation, rfl⟩)

variable [ToString φ] {formats : Formats φ Date} {fromStr : String → Except String (Raw φ)}
  {message : Message φ Date}

/-- A message carrying capabilities of radios of stations of their own, the rest of it keeping to
plain names, is read as it was written, each radio described under its own name, exactly where
every station is a plain name. -/
theorem read_capabilities_iff (hdistinct : (radios.map RadioInfo.station).Nodup)
    (hoffered : message.capabilities = some (capabilities radios wired backend))
    (hothers : ∀ raw ∈ message.raws, raw = .object (capabilities radios wired backend) ∨ Kept raw)
    (hparsed : fromStr (written (messages formats) message).text =
      .ok (Raw.ofJson (written (messages formats) message))) :
    (Channel.Envelope.read (messages formats) fromStr
          (Channel.Envelope.write (messages formats) message) = .ok (.message message) ∧
        ∀ radio ∈ radios, Named (capabilities (φ := φ) radios wired backend) radio) ↔
      ∀ radio ∈ radios, Plain radio.station := by
  obtain ⟨hdoubles, hpayloads, hdates, hkinds⟩ := Message.carries_nothing_else hoffered
  have hcarried : message.Carried := ⟨by simp [hdoubles], by simp [hpayloads]⟩
  constructor
  · intro hread
    rw [Channel.Envelope.read_write hparsed] at hread
    exact plain_of_capabilities hdistinct (Message.plain_capabilities hread.1 hoffered)
  · intro hplain
    refine ⟨?_, fun radio hradio => named_capabilities hdistinct hradio⟩
    have hkept : ∀ raw ∈ message.raws, Kept raw := by
      intro raw hraw
      rcases hothers raw hraw with rfl | hkept
      · exact kept_capabilities hplain
      · exact hkept
    rw [Channel.Envelope.read_write hparsed]
    apply Message.readRaw_message
    · simp [hdates]
    · exact hkept
    · exact hcarried
    · simp [hkinds]

/-- A radio of a station that scans. -/
def scanningOn (station : String) : RadioInfo where
  station := station
  model := "MT7922"
  bands := [(.twoPointFour, { channels := [⟨1, 2412, 40, false, false⟩], widths := [20, 40] })]
  alongside := some .sharedChannel
  sae := true
  scan := true
  survey := false

/-- The capabilities of a radio, sent with the document a device holds. -/
def sentOf (station : String) : Message Int String :=
  .configuration [] (some (capabilities [scanningOn station] ["eth0"] Backend.stack))

/-- The capabilities of a radio on `wlan0` are read as they were written. -/
theorem read_capabilities_wlan0 :
    Channel.Envelope.read (messages Message.plainFormats) (Message.readerOf (sentOf "wlan0"))
        (Channel.Envelope.write (messages Message.plainFormats) (sentOf "wlan0")) =
      .ok (.message (sentOf "wlan0")) := by
  have hplain : ∀ radio ∈ [scanningOn "wlan0"], Plain radio.station := by decide
  exact ((read_capabilities_iff (by simp) rfl (by simp [sentOf, Message.raws])
    (Message.readerOf_text _)).mpr hplain).1

/-- Whether Linux takes a name for an interface's: up to fifteen bytes, none of them a slash or
white space. -/
def isInterfaceName (name : String) : Bool :=
  0 < name.utf8ByteSize && name.utf8ByteSize ≤ 15 && name ≠ "." && name ≠ ".." &&
    name.toList.all fun c => c ≠ '/' && c ≠ ':' && !c.isWhitespace

/-- The capabilities of radios on interfaces Linux allows are not all read as they were written:
those of a radio on `wlan_0` are not. -/
theorem not_read_capabilities :
    ¬ ∀ (radios : List RadioInfo) (wired : List String) (backend : Backend)
      (message : Message Int String) (fromStr : String → Except String (Raw Int)),
      (radios.map RadioInfo.station).Nodup →
      (∀ radio ∈ radios, isInterfaceName radio.station = true) →
      message.capabilities = some (capabilities radios wired backend) →
      (∀ raw ∈ message.raws, raw = .object (capabilities radios wired backend) ∨ Kept raw) →
      fromStr (written (messages Message.plainFormats) message).text =
        .ok (Raw.ofJson (written (messages Message.plainFormats) message)) →
      Channel.Envelope.read (messages Message.plainFormats) fromStr
          (Channel.Envelope.write (messages Message.plainFormats) message) =
          .ok (.message message) ∧
        ∀ radio ∈ radios, Named (capabilities (φ := Int) radios wired backend) radio := by
  intro hall
  have hdistinct : ([scanningOn "wlan_0"].map RadioInfo.station).Nodup := by simp
  have hread := (hall [scanningOn "wlan_0"] ["eth0"] Backend.stack (sentOf "wlan_0") _ hdistinct
    (by decide) rfl (by simp [sentOf, Message.raws]) (Message.readerOf_text _)).1
  rw [Channel.Envelope.read_write (Message.readerOf_text _)] at hread
  have hplain := plain_of_capabilities hdistinct (Message.plain_capabilities hread rfl)
  exact absurd (hplain (scanningOn "wlan_0") (by simp)) (by decide)

end Bliti.Network.Probe
