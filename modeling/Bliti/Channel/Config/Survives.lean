import Bliti.Channel.Config.Parts
import Bliti.Channel.Config.Write

/-!
# The network configuration document - a document read is read again as written

What is written of a part of a document that was read is read as that part: a client can
read a document, change it and write it back.
-/

namespace Bliti.Channel.Config

variable {φ : Type}

/-! ## Members -/

/-- A member written where there is a value for it is read as that. -/
theorem optionalMember_of_get {α : Type} {map : Json.Map φ} {member reason : String}
    {read : Json φ → Option α} {found : Option α} (write : α → Json φ)
    (hget : Json.get map member = found.map write)
    (hread : ∀ a, found = some a → (write a).isNull = false ∧ read (write a) = some a) :
    optionalMember map member reason read = .ok found := by
  unfold optionalMember
  cases found with
  | none => rw [hget, Option.map_none]
  | some a =>
      obtain ⟨hnull, ha⟩ := hread a rfl
      rw [hget, Option.map_some]
      cases hwritten : write a with
      | null =>
          rw [hwritten] at hnull
          cases hnull
      | _ =>
          rw [hwritten] at ha
          simp only [ha]

/-- An optional string written is read. -/
theorem optionalString_of_get {map : Json.Map φ} {member : String} {found : Option String}
    (hget : Json.get map member = found.map Json.string) :
    optionalString map member = .ok found :=
  optionalMember_of_get Json.string hget fun _ _ => ⟨rfl, rfl⟩

/-- An optional boolean written is read. -/
theorem boolMember_of_get {map : Json.Map φ} {member : String} {found : Option Bool}
    (hget : Json.get map member = found.map Json.bool) : boolMember map member = .ok found :=
  optionalMember_of_get Json.bool hget fun _ _ => ⟨rfl, rfl⟩

/-- A whole number written is read, where it was read of a member. -/
theorem u32Member_of_get {raw map : Json.Map φ} {member : String} {found : Option Nat}
    (hraw : u32Member raw member = .ok found)
    (hget : Json.get map member = found.map fun (n : Nat) => .number (.int n)) :
    u32Member map member = .ok found := by
  refine optionalMember_of_get (fun (n : Nat) => .number (.int n)) hget fun n hn => ⟨rfl, ?_⟩
  rcases optionalMember_cases hraw with ⟨hnone, -⟩ | ⟨value, a, -, -, hread, hsome⟩
  · rw [hnone] at hn
    cases hn
  · rw [hsome] at hn
    cases hn
    rw [eq_of_readU32 hread] at hread
    exact hread

@[simp]
theorem readStrings_map (items : List String) :
    readStrings (φ := φ) (.array (items.map Json.string)) = some items := by
  rw [readStrings, List.mapM_map]
  induction items with
  | nil => rfl
  | cons item rest ih =>
      rw [List.mapM_cons, ih]
      rfl

/-- Strings written as they are are read. -/
theorem stringArray_of_get {map : Json.Map φ} {member : String} {items : List String}
    (hget : Json.get map member = some (.array (items.map Json.string))) :
    stringArray map member = .ok items := by
  have hread : optionalMember map member ("`" ++ member ++ "` is an array of strings")
      readStrings = .ok (some items) :=
    optionalMember_of_get (fun items => .array (items.map Json.string))
      (by rw [hget, Option.map_some]) fun _ _ => ⟨rfl, readStrings_map _⟩
  rw [stringArray, hread]
  rfl

/-- Strings written where there are any are read. -/
theorem stringArray_of_textsOrAbsent {map : Json.Map φ} {member : String} {items : List String}
    (hget : Json.get map member = textsOrAbsent items) : stringArray map member = .ok items := by
  by_cases hempty : items = []
  · rw [hempty] at hget ⊢
    have hread : optionalMember map member ("`" ++ member ++ "` is an array of strings")
        readStrings = .ok none :=
      optionalMember_of_get (fun _ => .null) hget fun _ hnone => nomatch hnone
    rw [stringArray, hread]
    rfl
  · refine stringArray_of_get ?_
    rw [hget, textsOrAbsent, if_neg (by simpa using hempty)]

/-- A required string written is read. -/
theorem string_of_get {map : Json.Map φ} {member value : String}
    (hget : Json.get map member = some (.string value)) : string map member = .ok value := by
  rw [string, hget]
  rfl

/-- A required boolean written is read. -/
theorem requiredBool_of_get {map : Json.Map φ} {member reason : String} {value : Bool}
    (hget : Json.get map member = some (.bool value)) :
    requiredBool map member reason = .ok value := by
  rw [requiredBool, hget]
  rfl

/-! ## Candidates -/

/-- How a candidate authenticates is read again as it is written. -/
theorem Security.parse_toJson {raw : Json.Map φ} {index : Nat} {security : Security φ}
    (hparse : Security.parse raw index = .ok security) :
    Security.parse security.toJson index = .ok security := by
  unfold Security.parse at hparse
  simp only at hparse
  split at hparse
  · obtain ⟨passphrase, -, hparse⟩ := Fallible.bind_ok.mp hparse
    rw [← Fallible.pure_ok.mp hparse]
    simp [Security.parse, Security.toJson, Security.tag, Json.asStr, faultAt, pure, Except.pure]
  · obtain ⟨passphrase, -, hparse⟩ := Fallible.bind_ok.mp hparse
    rw [← Fallible.pure_ok.mp hparse]
    simp [Security.parse, Security.toJson, Security.tag, Json.asStr, faultAt, pure, Except.pure]
  · obtain ⟨passphrase, -, hparse⟩ := Fallible.bind_ok.mp hparse
    rw [← Fallible.pure_ok.mp hparse]
    simp [Security.parse, Security.toJson, Security.tag, Json.asStr, faultAt, pure, Except.pure]
  · rename_i hkind
    cases hparse
    simp only [Security.toJson, Security.parse, hkind]
  · cases hparse

/-- Bands read name none twice. -/
theorem Wireless.once_of_bandsOf {candidate : Json.Map φ} {index : Nat} {bands : List String}
    (hbands : bandsOf candidate index = .ok bands) : namedTwice [] bands = none := by
  unfold bandsOf at hbands
  obtain ⟨read, -, hbands⟩ := Fallible.bind_ok.mp hbands
  split at hbands
  · cases hbands
  · split at hbands
    · cases hbands
    · rename_i honce
      rw [← Fallible.pure_ok.mp hbands]
      exact honce

/-- Bands written where there are any are read, where none is named twice. -/
theorem Wireless.bandsOf_of_get {candidate : Json.Map φ} {index : Nat} {bands : List String}
    (hget : Json.get candidate "bands" = textsOrAbsent bands)
    (honce : namedTwice [] bands = none) : bandsOf candidate index = .ok bands := by
  have hsome : ((Json.get candidate "bands").isSome && bands.isEmpty) = false := by
    rw [hget, textsOrAbsent]
    cases bands <;> rfl
  rw [bandsOf, faultAt_ok.mpr (stringArray_of_textsOrAbsent hget), Fallible.ok_bind, hsome]
  simp only [honce]
  rfl

/-- What a wireless candidate read carries keeps the rules of its members. -/
structure Wireless.Ruled (wireless : Wireless φ) (index : Nat) : Prop where
  security : Security.parse wireless.security.toJson index = .ok wireless.security
  once : namedTwice [] wireless.bands = none

/-- A wireless candidate read keeps the rules of its members. -/
theorem Wireless.ruled_of_parse {raw : Json.Map φ} {index : Nat} {wireless : Wireless φ}
    (hparse : Wireless.parse raw index = .ok wireless) : wireless.Ruled index := by
  rw [Wireless.parse_eq] at hparse
  obtain ⟨ssid, -, hparse⟩ := Fallible.bind_ok.mp hparse
  obtain ⟨security, hsecurity, hparse⟩ := Fallible.bind_ok.mp hparse
  obtain ⟨hidden, -, hparse⟩ := Fallible.bind_ok.mp hparse
  obtain ⟨interface, -, hparse⟩ := Fallible.bind_ok.mp hparse
  obtain ⟨bands, hbands, hparse⟩ := Fallible.bind_ok.mp hparse
  rw [← Fallible.pure_ok.mp hparse]
  refine ⟨?_, once_of_bandsOf hbands⟩
  unfold securityOf at hsecurity
  split at hsecurity
  · exact Security.parse_toJson hsecurity
  · cases hsecurity

/-- A wireless candidate that keeps the rules of its members is read as it is written. -/
theorem Wireless.parse_writeInto {wireless : Wireless φ} {index : Nat} {map : Json.Map φ}
    (hruled : wireless.Ruled index) (hhidden : Json.get map "hidden" = none)
    (hinterface : Json.get map "interface" = none) (hbands : Json.get map "bands" = none) :
    Wireless.parse (wireless.writeInto map) index = .ok wireless := by
  have hssid : Json.get (wireless.writeInto map) "ssid" = some (.string wireless.ssid) := by
    simp [writeInto]
  have hsecurity : Json.get (wireless.writeInto map) "security" =
      some (.object wireless.security.toJson) := by
    simp [writeInto]
  have hidden : Json.get (wireless.writeInto map) "hidden" = wireless.hidden.map Json.bool := by
    simp [writeInto, hhidden]
  have interface : Json.get (wireless.writeInto map) "interface" =
      wireless.interface.map Json.string := by
    simp [writeInto, hinterface]
  have bands : Json.get (wireless.writeInto map) "bands" = textsOrAbsent wireless.bands := by
    simp [writeInto, hbands]
  rw [Wireless.parse_eq, faultAt_ok.mpr (string_of_get hssid), Fallible.ok_bind, securityOf,
    hsecurity]
  simp only [hruled.security, faultAt_ok.mpr (boolMember_of_get hidden),
    faultAt_ok.mpr (optionalString_of_get interface), bandsOf_of_get bands hruled.once,
    Fallible.ok_bind]
  rfl

/-- What a candidate read carries keeps the rules of its kind. -/
def AttachmentKind.Ruled (kind : AttachmentKind φ) (index : Nat) : Prop :=
  match kind with
  | .wireless network => network.Ruled index
  | .wiredDynamic _ => True
  | .wiredStatic _ addresses _ => addresses ≠ []

/-- A candidate read keeps the rules of its kind. -/
theorem AttachmentKind.ruled_of_parse {raw : Json.Map φ} {index : Nat} {kind : AttachmentKind φ}
    (hparse : AttachmentKind.parse raw index = .ok kind) : kind.Ruled index := by
  unfold AttachmentKind.parse at hparse
  simp only at hparse
  split at hparse
  · obtain ⟨wireless, hwireless, hparse⟩ := Fallible.bind_ok.mp hparse
    rw [← Fallible.pure_ok.mp hparse]
    exact Wireless.ruled_of_parse hwireless
  · obtain ⟨interface, -, hparse⟩ := Fallible.bind_ok.mp hparse
    rw [← Fallible.pure_ok.mp hparse]
    trivial
  · obtain ⟨interface, -, hparse⟩ := Fallible.bind_ok.mp hparse
    obtain ⟨addresses, -, hparse⟩ := Fallible.bind_ok.mp hparse
    split at hparse
    · cases hparse
    · rename_i hsome
      split at hparse
      · rw [← Fallible.pure_ok.mp hparse]
        exact fun hnone => hsome (by rw [hnone]; rfl)
      · cases hparse
  · cases hparse

/-- A candidate read keeps the rules of its kind. -/
theorem Attachment.ruled_of_parse {raw : Json.Map φ} {index : Nat} {attachment : Attachment φ}
    (hparse : Attachment.parse raw index = .ok attachment) : attachment.kind.Ruled index := by
  unfold Attachment.parse at hparse
  obtain ⟨label, -, hparse⟩ := Fallible.bind_ok.mp hparse
  obtain ⟨enabled, -, hparse⟩ := Fallible.bind_ok.mp hparse
  obtain ⟨verify, -, hparse⟩ := Fallible.bind_ok.mp hparse
  obtain ⟨nameservers, -, hparse⟩ := Fallible.bind_ok.mp hparse
  obtain ⟨kind, hkind, hparse⟩ := Fallible.bind_ok.mp hparse
  rw [← Fallible.pure_ok.mp hparse]
  exact AttachmentKind.ruled_of_parse hkind

/-- What the kind of a candidate carries is read as it is written, where it keeps the rules of
that kind. -/
theorem AttachmentKind.parse_members {attachment : Attachment φ} {index : Nat}
    (hruled : attachment.kind.Ruled index) :
    AttachmentKind.parse attachment.members index = .ok attachment.kind := by
  have htag := attachment.get_kind
  have hnamed := attachment.get_interface
  unfold AttachmentKind.parse
  rw [htag]
  cases hkind : attachment.kind with
  | wireless network =>
      rw [hkind] at hruled
      have hread : Wireless.parse attachment.members index = .ok network := by
        rw [Attachment.members, hkind]
        exact Wireless.parse_writeInto hruled (by simp [Attachment.common])
          (by simp [Attachment.common]) (by simp [Attachment.common])
      simp only [tag, Option.bind_some, Json.asStr, hread]
      rfl
  | wiredDynamic interface =>
      rw [hkind] at hnamed
      simp only [tag, Option.bind_some, Json.asStr, faultAt_ok.mpr (string_of_get hnamed)]
      rfl
  | wiredStatic interface addresses gateway =>
      rw [hkind] at hnamed hruled
      have haddresses : Json.get attachment.members "addresses" =
          some (.array (addresses.map Json.string)) := by
        simp [Attachment.members, hkind]
      have hgateway : Json.get attachment.members "gateway" = some (.string gateway) := by
        simp [Attachment.members, hkind]
      have hsome : ¬ addresses.isEmpty = true := fun hempty =>
        hruled (List.isEmpty_iff.mp hempty)
      simp only [tag, Option.bind_some, Json.asStr, faultAt_ok.mpr (string_of_get hnamed),
        faultAt_ok.mpr (stringArray_of_get haddresses), hgateway, Fallible.ok_bind, if_neg hsome]
      rfl

/-- A candidate that keeps the rules of its kind is read as it is written. -/
theorem Attachment.parse_members {attachment : Attachment φ} {index : Nat}
    (hruled : attachment.kind.Ruled index) :
    Attachment.parse attachment.members index = .ok attachment := by
  have hlabel : Json.get attachment.members "label" = some (.string attachment.label) := by
    cases hkind : attachment.kind <;>
      simp [members, Wireless.writeInto, common, hkind]
  have hverify : Json.get attachment.members "verify" = some (.bool attachment.verify) := by
    cases hkind : attachment.kind <;>
      simp [members, Wireless.writeInto, common, hkind]
  have hnameservers : Json.get attachment.members "nameservers" =
      textsOrAbsent attachment.nameservers := by
    cases hkind : attachment.kind <;>
      simp [members, Wireless.writeInto, common, hkind]
  have hkind := AttachmentKind.parse_members hruled
  rw [Attachment.parse, faultAt_ok.mpr (string_of_get hlabel),
    faultAt_ok.mpr (requiredBool_of_get attachment.get_enabled),
    faultAt_ok.mpr (requiredBool_of_get hverify),
    faultAt_ok.mpr (stringArray_of_textsOrAbsent hnameservers), hkind]
  rfl

theorem parseAttachments_map {items : List (Json φ)} {index : Nat}
    {dynamicInterfaces : List String} {attachments : List (Attachment φ)}
    (hparse : parseAttachments index dynamicInterfaces items = .ok attachments) :
    parseAttachments index dynamicInterfaces (attachments.map Attachment.toJson) =
      .ok attachments := by
  induction items generalizing index dynamicInterfaces attachments with
  | nil =>
      cases hparse
      rfl
  | cons item rest ih =>
      cases item with
      | object candidate =>
          rw [parseAttachments_cons] at hparse
          obtain ⟨attachment, hattachment, hparse⟩ := Fallible.bind_ok.mp hparse
          obtain ⟨after, hafter, hparse⟩ := Fallible.bind_ok.mp hparse
          obtain ⟨others, hothers, hparse⟩ := Fallible.bind_ok.mp hparse
          rw [← Fallible.pure_ok.mp hparse, List.map_cons, Attachment.toJson,
            parseAttachments_cons,
            Attachment.parse_members (Attachment.ruled_of_parse hattachment), Fallible.ok_bind,
            hafter, Fallible.ok_bind, ih hothers]
          rfl
      | _ => cases hparse

/-! ## The hotspot and the document -/

/-- A hotspot read is read again as it is written. -/
theorem Hotspot.parse_toJson {raw : Json.Map φ} {hotspot : Hotspot}
    (hparse : Hotspot.parse raw = .ok hotspot) :
    Hotspot.parse (φ := φ) hotspot.toJson = .ok hotspot := by
  obtain ⟨-, hchannel, hwidth⟩ := Hotspot.chosen_of_parse hparse
  obtain ⟨hband, hnumber, hspread⟩ := hotspot.get_chosen (φ := φ)
  have hssid : Json.get (φ := φ) hotspot.toJson "ssid" = some (.string hotspot.ssid) := by
    simp [toJson]
  have hpassphrase : Json.get (φ := φ) hotspot.toJson "passphrase" =
      some (.string hotspot.passphrase) := by
    simp [toJson]
  have hshare : Json.get (φ := φ) hotspot.toJson "share-upstream" =
      hotspot.shareUpstream.map Json.bool := by
    simp [toJson]
  have hisolate : Json.get (φ := φ) hotspot.toJson "isolate-clients" =
      hotspot.isolateClients.map Json.bool := by
    simp [toJson]
  have hrange : Json.get (φ := φ) hotspot.toJson "dhcp-range" =
      hotspot.dhcpRange.map Json.string := by
    simp [toJson]
  rw [Hotspot.parse, faultAt_ok.mpr (requiredBool_of_get hotspot.get_enabled),
    faultAt_ok.mpr (string_of_get hssid), faultAt_ok.mpr (string_of_get hpassphrase),
    faultAt_ok.mpr (optionalString_of_get hotspot.get_interface),
    faultAt_ok.mpr (boolMember_of_get hshare), faultAt_ok.mpr (boolMember_of_get hisolate),
    faultAt_ok.mpr (optionalMember_of_get Json.string hrange fun _ _ => ⟨rfl, rfl⟩),
    faultAt_ok.mpr (optionalMember_of_get Json.string hband fun _ _ => ⟨rfl, rfl⟩),
    faultAt_ok.mpr (u32Member_of_get hchannel hnumber),
    faultAt_ok.mpr (u32Member_of_get hwidth hspread)]
  rfl

/-- The hotspot of a document read is read again as it is written. -/
theorem Document.hotspotOf_toJson {raw : Json.Map φ} {document : Document φ}
    (hhotspot : hotspotOf raw = .ok document.hotspot) :
    hotspotOf document.toJson = .ok document.hotspot := by
  rw [hotspotOf, Document.get_hotspot]
  cases hheld : document.hotspot with
  | none => rfl
  | some hotspot =>
      rw [hheld] at hhotspot
      unfold hotspotOf at hhotspot
      split at hhotspot
      · cases hhotspot
      · cases hhotspot
      · obtain ⟨read, hread, hhotspot⟩ := Fallible.bind_ok.mp hhotspot
        cases Fallible.pure_ok.mp hhotspot
        simp only [Option.map_some, Hotspot.parse_toJson hread]
        rfl
      · cases hhotspot

/-- A document read is read again as it is written. -/
theorem Document.parse_toJson {raw : Json.Map φ} {document : Document φ}
    (hparse : Document.parse raw = .ok document) :
    Document.parse document.toJson = .ok document := by
  rw [Document.parse_eq] at hparse
  obtain ⟨items, -, hparse⟩ := Fallible.bind_ok.mp hparse
  obtain ⟨attachments, hattachments, hparse⟩ := Fallible.bind_ok.mp hparse
  obtain ⟨hotspot, hhotspot, hparse⟩ := Fallible.bind_ok.mp hparse
  obtain ⟨domain, -, hparse⟩ := Fallible.bind_ok.mp hparse
  have hitems : itemsOf document.toJson =
      .ok (document.attachments.map Attachment.toJson) := by
    rw [itemsOf, Document.get_attachments]
    rfl
  have hdomain : Json.get document.toJson "regulatory-domain" =
      document.regulatoryDomain.map Json.string := by
    simp [toJson]
  rw [← Fallible.pure_ok.mp hparse] at hitems hdomain ⊢
  rw [Document.parse_eq, hitems, Fallible.ok_bind, parseAttachments_map hattachments,
    Fallible.ok_bind, hotspotOf_toJson hhotspot, Fallible.ok_bind,
    faultAt_ok.mpr (optionalMember_of_get Json.string hdomain fun _ _ => ⟨rfl, rfl⟩)]
  rfl

end Bliti.Channel.Config
