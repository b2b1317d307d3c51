import Bliti.Channel.Config.Write
import Bliti.Network.Stack.Offered

/-!
# The network stack - the interfaces an admitted document names

A document that the capabilities of some radios admit names only interfaces the
device has: its wireless candidates radios, its wired ones wired interfaces and its
hotspot a radio that can run one.  Selection refuses no such document.
-/

namespace Bliti.Network.Stack

open Channel.Config Channel.Capabilities Probe

variable {φ : Type} {backend : Backend} {radios : List RadioInfo} {wired : List String}

/-! ## What the mirror keys by kind -/

/-- What a wireless candidate may carry, by radio. -/
def byRadio (radios : List RadioInfo) (backend : Backend) : Json.Map φ :=
  Json.collect (radios.map fun radio =>
    (radio.station, .object [
      ("hidden", .bool true),
      ("security", .object [("kind", .object (security radio backend))])]))

/-- What a wireless candidate may carry. -/
def onAir (radios : List RadioInfo) (backend : Backend) : Json.Map φ :=
  [("interface", .object (byRadio radios backend)), ("nameservers", .bool true)]

/-- What a wired candidate may carry. -/
def onWire (wired : List String) : Json.Map φ :=
  [("interface", texts wired), ("nameservers", .bool true)]

/-- The kinds keyed are the wireless one, where there are radios, and the wired ones. -/
theorem mem_kinds {key : String} {value : Json φ} (hkey : (key, value) ∈ kinds radios wired backend) :
    key = "wireless" ∧ radios ≠ [] ∧ value = .object (onAir radios backend) ∨
      (key = "wired-dynamic" ∨ key = "wired-static") ∧ value = .object (onWire wired) := by
  have hmember := Json.mem_collect hkey
  rcases List.mem_append.mp hmember with hair | hwire
  · split at hair
    · cases hair
    · rename_i hradios
      cases List.mem_singleton.mp hair
      exact .inl ⟨rfl, by simpa using hradios, rfl⟩
  · split at hwire
    · cases hwire
    · right
      rcases List.mem_cons.mp hwire with hdynamic | hstatic
      · cases hdynamic
        exact ⟨.inl rfl, rfl⟩
      · cases List.mem_singleton.mp hstatic
        exact ⟨.inr rfl, rfl⟩

/-- A key of the radios is the station of one. -/
theorem mem_byRadio {key : String} {value : Json φ} (hkey : (key, value) ∈ byRadio radios backend) :
    ∃ radio ∈ radios, radio.station = key := by
  obtain ⟨radio, hradio, hentry⟩ := List.mem_map.mp (Json.mem_collect hkey)
  cases hentry
  exact ⟨radio, hradio, rfl⟩

/-- A key of the hotspot's radios is the station of one that can run a hotspot. -/
theorem mem_hotspots {key : String} {value : Json φ}
    (hkey : (key, value) ∈ Json.collect (hotspots radios backend)) :
    ∃ radio ∈ radios, radio.station = key ∧ radio.alongside.isSome = true := by
  obtain ⟨radio, hradio, hentry⟩ := List.mem_filterMap.mp (Json.mem_collect hkey)
  obtain ⟨offered, hoffered, hpair⟩ := Option.map_eq_some_iff.mp hentry
  cases hpair
  unfold hotspot at hoffered
  obtain ⟨alongside, halongside, -⟩ := Option.bind_eq_some_iff.mp hoffered
  exact ⟨radio, hradio, rfl, by rw [halongside]; rfl⟩

/-! ## The keys in turn -/

/-- The constraints of a candidate before any key is taken. -/
def ofAny (radios : List RadioInfo) (wired : List String) (backend : Backend) : Resolution φ :=
  ⟨[("kind", .object (kinds radios wired backend))], []⟩

/-- The kind is the first key taken. -/
theorem nextSelector_ofAny : nextSelector (ofAny (φ := φ) radios wired backend) =
    some ("kind", kinds radios wired backend) := by
  simp [nextSelector, selectors, ofAny, Json.get, Json.asObject]

/-- The radio is the second, of a wireless candidate. -/
theorem nextSelector_onAir :
    nextSelector ((ofAny (φ := φ) radios wired backend).under "kind" (onAir radios backend)) =
      some ("interface", byRadio radios backend) := by
  simp [nextSelector, selectors, ofAny, onAir, Resolution.under, merged, Json.get, Json.asObject]

/-- A wired candidate takes no second key. -/
theorem nextSelector_onWire :
    nextSelector ((ofAny (φ := φ) radios wired backend).under "kind" (onWire wired)) = none := by
  simp [nextSelector, selectors, ofAny, onWire, Resolution.under, merged, Json.get, Json.asObject,
    texts]

/-- A wired candidate is held to the wired interfaces. -/
theorem get_onWire :
    Json.get ((ofAny (φ := φ) radios wired backend).under "kind" (onWire wired)).constraints
      "interface" = some (texts wired) := by
  simp [ofAny, onWire, Resolution.under, merged]

/-! ## Candidates admitted -/

variable [ToString φ]

/-- The key a set selector is taken by is keyed. -/
theorem get_of_takes {object keyed laid : Json.Map φ} {selector text : String}
    (htakes : Takes object selector keyed laid)
    (hset : Json.get object selector = some (.string text)) :
    Json.get keyed text = some (.object laid) := by
  unfold Takes at htakes
  rw [hset] at htakes
  exact htakes

variable [BEq φ]

/-- A text listed is one of the texts. -/
theorem mem_of_listed {items : List String} {text : String}
    (hlisted : AdmitsValue (φ := φ) Live .other (texts items) (.string text)) :
    text ∈ items := by
  have hcontains := (admitsValue_listed (by simp)).mp hlisted
  obtain ⟨value, hvalue, hsame⟩ := List.contains_iff_exists_mem_beq.mp hcontains
  obtain ⟨item, hitem, rfl⟩ := List.mem_map.mp hvalue
  have hequal : Json.beq (φ := φ) (.string text) (.string item) = true := hsame
  rw [Json.beq] at hequal
  rw [eq_of_beq hequal]
  exact hitem

/-- A candidate admitted names an interface of its kind, and a wireless one has a radio. -/
theorem interface_of_admitsObject {attachment : Attachment φ}
    (hadmits : AdmitsObject Live .attachment [("kind", .object (kinds radios wired backend))]
      attachment.members) :
    match attachment.kind with
    | .wireless network => radios ≠ [] ∧ ∀ name, network.interface = some name →
        ∃ radio ∈ radios, radio.station = name
    | .wiredDynamic interface => interface ∈ wired
    | .wiredStatic interface _ _ => interface ∈ wired := by
  obtain ⟨hlive, r, ⟨hbranch, hclosed⟩, hmembers⟩ := admitsObject_iff.mp hadmits
  obtain ⟨⟨laid, htakes⟩, hbelow⟩ := (liveFrom_open nextSelector_ofAny).mp hlive
  have hkind := mem_kinds (Json.mem_of_get (get_of_takes htakes attachment.get_kind))
  -- A wired candidate's interface is held to the list by the one way its kind is taken.
  have honWire (interface : String) (hnamed : attachment.kind.interface = some interface)
      (hwired : attachment.kind.tag ≠ "wireless") : interface ∈ wired := by
    rcases (branch_open nextSelector_ofAny).mp hbranch with rfl | ⟨taken, htaken, hrest⟩
    · rw [show nextSelector _ = _ from nextSelector_ofAny] at hclosed
      cases hclosed
    rcases mem_kinds (Json.mem_of_get (get_of_takes htaken attachment.get_kind)) with
      ⟨hair, -, -⟩ | ⟨-, hwire⟩
    · exact absurd hair hwired
    · cases hwire
      rw [(branch_closed nextSelector_onWire).mp hrest] at hmembers
      have hget := attachment.get_interface
      rw [hnamed] at hget
      have hinterface := hmembers _ (Json.mem_of_get hget)
      exact mem_of_listed ((admitsMember_constrained (by simp [Json.isNull, Resolution.under, ofAny])
        get_onWire).mp hinterface)
  cases hof : attachment.kind with
  | wireless network =>
      rw [hof] at hkind
      rcases hkind with ⟨-, hradios, hlaid⟩ | ⟨hwire, -⟩
      · refine ⟨hradios, fun name hname => ?_⟩
        cases hlaid
        obtain ⟨⟨under, hradio⟩, -⟩ := (liveFrom_open nextSelector_onAir).mp (hbelow _ htakes)
        have hget := attachment.get_interface
        rw [hof] at hget
        change _ = network.interface.map Json.string at hget
        rw [hname] at hget
        exact mem_byRadio (Json.mem_of_get (get_of_takes hradio hget))
      · rcases hwire with hdynamic | hstatic
        · exact absurd hdynamic (by simp [AttachmentKind.tag])
        · exact absurd hstatic (by simp [AttachmentKind.tag])
  | wiredDynamic interface =>
      exact honWire interface (by rw [hof]; rfl) (by rw [hof]; simp [AttachmentKind.tag])
  | wiredStatic interface addresses gateway =>
      exact honWire interface (by rw [hof]; rfl) (by rw [hof]; simp [AttachmentKind.tag])

/-! ## Documents admitted -/

/-- A member of a document admitted is held to what the mirror says of it. -/
theorem constrained_of_check {json : Json.Map φ}
    (hcheck : check json (document radios wired backend) = .ok ()) {name : String}
    {value : Json φ} (hget : Json.get json name = some value) (hset : value.isNull = false)
    (hfree : required .document none name = false ∨
      (Json.get (document (φ := φ) radios wired backend) name).isSome = true) :
    ∃ constraint, Json.get (document (φ := φ) radios wired backend) name = some constraint ∧
      AdmitsValue Live (Context.document.child name) constraint value := by
  obtain ⟨-, r, ⟨hbranch, -⟩, hmembers⟩ := admitsObject_iff.mp ((check_ok _ _).mp hcheck)
  rw [(branch_closed nextSelector_document).mp hbranch] at hmembers
  have hmember := hmembers _ (Json.mem_of_get hget)
  cases hmember with
  | null => cases hset
  | selector _ hconsumed => cases hconsumed
  | plain hnone hrequired =>
      rcases hfree with hplain | hsome
      · exact absurd (hplain.symm.trans hrequired) (by simp)
      · rw [hnone] at hsome
        cases hsome
  | holding hnone hrequired =>
      rcases hfree with hplain | hsome
      · exact absurd (hplain.symm.trans hrequired) (by simp)
      · rw [hnone] at hsome
        cases hsome
  | constrained hconstraint hvalue => exact ⟨_, hconstraint, hvalue⟩

omit [ToString φ] [BEq φ] in
/-- The mirror holds candidates to their kinds. -/
theorem get_document_attachments :
    Json.get (document (φ := φ) radios wired backend) "attachments" =
      some (.object [("kind", .object (kinds radios wired backend))]) := by
  simp [document, Json.get]

omit [ToString φ] [BEq φ] in
/-- The mirror holds a hotspot to what radios offer one. -/
theorem get_document_hotspot_eq {constraint : Json φ}
    (hconstraint : Json.get (document (φ := φ) radios wired backend) "hotspot" =
      some constraint) : constraint = .object (hotspotConstraints radios backend) := by
  have hmember := Json.mem_of_get hconstraint
  unfold document at hmember
  rcases List.mem_append.mp hmember with hfirst | hdomain
  · rcases List.mem_append.mp hfirst with hattachments | hhotspot
    · simp at hattachments
    · split at hhotspot
      · cases hhotspot
      · cases List.mem_singleton.mp hhotspot
        rfl
  · split at hdomain
    · cases hdomain
    · simp at hdomain

variable {written : Document φ}

/-- A candidate of a document admitted names an interface of its kind, and a wireless one has
a radio. -/
theorem interface_of_admits
    (hcheck : check written.toJson (document radios wired backend) = .ok ())
    {attachment : Attachment φ} (hattachment : attachment ∈ written.attachments) :
    match attachment.kind with
    | .wireless network => radios ≠ [] ∧ ∀ name, network.interface = some name →
        ∃ radio ∈ radios, radio.station = name
    | .wiredDynamic interface => interface ∈ wired
    | .wiredStatic interface _ _ => interface ∈ wired := by
  obtain ⟨constraint, hconstraint, hvalue⟩ := constrained_of_check hcheck
    written.get_attachments rfl (.inr (by rw [get_document_attachments]; rfl))
  rw [get_document_attachments] at hconstraint
  cases hconstraint
  have hitems := (admitsValue_array (by simp)).mp hvalue
  have hitem := hitems _ (List.mem_map.mpr ⟨attachment, hattachment, rfl⟩)
  exact interface_of_admitsObject (admitsValue_object.mp hitem)

/-- The hotspot of a document admitted has a radio that can run one, the one it names where
it names one. -/
theorem host_of_admits
    (hcheck : check written.toJson (document radios wired backend) = .ok ())
    {spot : Hotspot} (hspot : written.hotspot = some spot) :
    ∃ radio ∈ radios, radio.alongside.isSome = true ∧
      radio.station ∈ (Json.collect (hotspots (φ := φ) radios backend)).map Prod.fst ∧
      ∀ name, spot.interface = some name → radio.station = name := by
  have hget := written.get_hotspot
  rw [hspot] at hget
  obtain ⟨constraint, hconstraint, hvalue⟩ := constrained_of_check hcheck hget rfl (.inl rfl)
  cases get_document_hotspot_eq hconstraint
  obtain ⟨hlive, -⟩ := admitsObject_iff.mp (admitsValue_object.mp hvalue)
  obtain ⟨⟨laid, htakes⟩, -⟩ := (liveFrom_open nextSelector_start).mp hlive
  rcases hnamed : spot.interface with _ | name
  · obtain ⟨key, hkey⟩ := key_of_takes htakes
    obtain ⟨radio, hradio, rfl, hable⟩ := mem_hotspots hkey
    exact ⟨radio, hradio, hable, List.mem_map.mpr ⟨_, hkey, rfl⟩, fun name hname => by
      cases hname⟩
  · have hset := spot.get_interface (φ := φ)
    rw [hnamed] at hset
    have hkey := Json.mem_of_get (get_of_takes htakes hset)
    obtain ⟨radio, hradio, hstation, hable⟩ := mem_hotspots hkey
    refine ⟨radio, hradio, hable, List.mem_map.mpr ⟨_, hkey, hstation.symm⟩, fun other hother => ?_⟩
    cases hother
    exact hstation

/-! ## Selection -/

omit [ToString φ] [BEq φ] in
/-- A radio probed is found among the hardware, where no two share a station. -/
theorem radio_selectHardware (hdistinct : (radios.map RadioInfo.station).Nodup)
    {radio : RadioInfo} (hradio : radio ∈ radios) :
    (selectHardware radios wired).radio radio.station = some (selectRadio radio) := by
  have hin : selectRadio radio ∈ (selectHardware radios wired).radios :=
    List.mem_map.mpr ⟨radio, hradio, rfl⟩
  rcases hfind : (selectHardware radios wired).radio radio.station with _ | found
  · have hnone := List.find?_eq_none.mp hfind _ hin
    simp [selectRadio] at hnone
  · obtain ⟨info, hinfo, rfl⟩ := List.mem_map.mp (List.mem_of_find?_eq_some hfind)
    have hstation : info.station = radio.station := by
      simpa [selectRadio] using List.find?_some hfind
    rw [List.inj_on_of_nodup_map hdistinct hinfo hradio hstation]

/-- The candidates of a document admitted pass selection. -/
theorem checkAttachment_of_admits (hdistinct : (radios.map RadioInfo.station).Nodup)
    (hcheck : check written.toJson (document radios wired backend) = .ok ())
    {attachment : Attachment φ} (hattachment : attachment ∈ written.attachments) (rank : Nat) :
    Select.checkAttachment (selectHardware radios wired) rank attachment = .ok () := by
  have hinterface := interface_of_admits hcheck hattachment
  unfold Select.checkAttachment
  cases hkind : attachment.kind with
  | wireless network =>
      rw [hkind] at hinterface
      obtain ⟨hradios, hnames⟩ := hinterface
      have hany : (selectHardware radios wired).radios.isEmpty = false := by
        rw [List.isEmpty_eq_false_iff]
        simpa [selectHardware] using hradios
      rcases hnamed : network.interface with _ | name
      · simp [hany, hnamed]
      · obtain ⟨radio, hradio, rfl⟩ := hnames name hnamed
        simp [hany, hnamed, radio_selectHardware hdistinct hradio]
  | wiredDynamic interface =>
      rw [hkind] at hinterface
      simpa [selectHardware] using hinterface
  | wiredStatic interface addresses gateway =>
      rw [hkind] at hinterface
      simpa [selectHardware] using hinterface

/-- The hotspot of a document admitted passes selection. -/
theorem checkHotspot_of_admits (hdistinct : (radios.map RadioInfo.station).Nodup)
    (hcheck : check written.toJson (document radios wired backend) = .ok ())
    {spot : Hotspot} (hspot : written.hotspot = some spot) :
    Select.checkHotspot (selectHardware radios wired) spot = .ok () := by
  obtain ⟨radio, hradio, hable, -, hnamed⟩ := host_of_admits hcheck hspot
  have hhost : selectRadio radio ∈ (selectHardware radios wired).hotspotRadios spot := by
    unfold Select.Hardware.hotspotRadios Select.Hardware.radiosFor
    rw [List.mem_filter, List.mem_filter]
    refine ⟨⟨List.mem_map.mpr ⟨radio, hradio, rfl⟩, ?_⟩, hable⟩
    rw [Option.all_eq_true]
    intro name hname
    rw [beq_iff_eq]
    exact hnamed name hname
  have hany : ((selectHardware radios wired).hotspotRadios spot).isEmpty = false :=
    List.isEmpty_eq_false_iff.mpr (List.ne_nil_of_mem hhost)
  unfold Select.checkHotspot
  rcases hname : spot.interface with _ | name
  · simp [hany, pure, Except.pure]
  · obtain rfl := hnamed name hname
    have hpoint : (selectRadio radio).accessPoint.isNone = false := by
      simpa [selectRadio] using hable
    simp [hany, radio_selectHardware hdistinct hradio, hpoint, pure, Except.pure]

/-- Selection accepts every document the mirror of its radios admits. -/
theorem selected_of_admits (hdistinct : (radios.map RadioInfo.station).Nodup)
    (hcheck : check written.toJson (document radios wired backend) = .ok ()) :
    Select.check written (selectHardware radios wired) = .ok () := by
  unfold Select.check
  have hattachments : (written.attachments.zipIdx.forM fun entry =>
      Select.checkAttachment (selectHardware radios wired) entry.2 entry.1) = .ok () := by
    apply Fallible.forM_ok.mpr
    intro entry hentry
    exact checkAttachment_of_admits hdistinct hcheck (List.fst_mem_of_mem_zipIdx hentry) entry.2
  rcases hspot : written.hotspot with _ | spot
  · simp [hattachments, pure, Except.pure]
  · simp [hattachments, checkHotspot_of_admits hdistinct hcheck hspot]

end Bliti.Network.Stack
