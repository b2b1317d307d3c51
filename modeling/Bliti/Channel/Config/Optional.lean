import Bliti.Channel.Config.Faulted
import Bliti.Channel.Config.LeftOut
import Bliti.Channel.Config.Survives

/-!
# The network configuration document - optional members

A client that reads a document, changes it and writes it back can leave an optional member
out or set it to null.  Both are read the same, but for the bands of a wireless candidate.

Main results:

- Theorem `Document.survives_iff`: a document read is read again as it is written, and an
  optional member set to null is read as left out exactly where the reading does not come to
  the bands of a wireless candidate there.
-/

namespace Bliti.Channel.Config

variable {φ : Type}

/-! ## Places -/

/-- An object of a document that has members which may be left out. -/
inductive Place where
  | document
  | attachment (index : Nat)
  | hotspot
deriving DecidableEq, Repr

/-- The members that may be left out of the object at a place. -/
def Place.optional : Place → List String
  | .document => ["hotspot", "regulatory-domain"]
  | .attachment _ => ["nameservers", "hidden", "interface", "bands"]
  | .hotspot =>
      ["interface", "share-upstream", "isolate-clients", "dhcp-range", "band", "channel",
        "channel-width"]

/-- A value changed where it is an object. -/
def changeObject (f : Json.Map φ → Json.Map φ) : Json φ → Json φ
  | .object members => .object (f members)
  | value => value

/-- A document with the object at a place changed, where it has one there. -/
def Place.change (place : Place) (f : Json.Map φ → Json.Map φ) (document : Json.Map φ) :
    Json.Map φ :=
  match place with
  | .document => f document
  | .attachment index =>
      match Json.get document "attachments" with
      | some (.array items) =>
          Json.insert document "attachments" (.array (items.modify index (changeObject f)))
      | _ => document
  | .hotspot =>
      match Json.get document "hotspot" with
      | some (.object held) => Json.insert document "hotspot" (.object (f held))
      | _ => document

/-- A document with a member of the object at a place set to null. -/
def Place.null (place : Place) (member : String) (document : Json.Map φ) : Json.Map φ :=
  place.change (fun map => Json.insert map member .null) document

/-- A document with a member of the object at a place left out. -/
def Place.leftOut (place : Place) (member : String) (document : Json.Map φ) : Json.Map φ :=
  place.change (fun map => Json.remove map member) document

/-- Reading a document comes to the bands of its candidate at an index: that is a wireless one
with nothing else at fault, and so are those before it. -/
def comesToBands (document : Json.Map φ) (index : Nat) : Bool :=
  match Json.get document "attachments" with
  | some (.array items) =>
      match items[index]? with
      | some (.object candidate) =>
          (Json.get candidate "kind").bind Json.asStr == some "wireless" &&
            (parseAttachments 0 [] (items.take index)).isOk &&
            (Attachment.parse (Json.remove candidate "bands") index).isOk
      | _ => false
  | _ => false

/-! ## The object of the document and of the hotspot -/

/-- A member of the document set to null is read as left out. -/
theorem Document.parse_null_document (document : Json.Map φ) (member : String) :
    Document.parse (Place.document.null member document) =
      Document.parse (Place.document.leftOut member document) :=
  Document.parse_congr (sameTold_null document member)

/-- A member of the hotspot set to null is read as left out. -/
theorem Document.parse_null_hotspot (document : Json.Map φ) (member : String) :
    Document.parse (Place.hotspot.null member document) =
      Document.parse (Place.hotspot.leftOut member document) := by
  unfold Place.null Place.leftOut Place.change
  cases hget : Json.get document "hotspot" with
  | none => rfl
  | some value =>
      cases value with
      | object hotspot =>
          have hitems (held : Json φ) :
              itemsOf (Json.insert document "hotspot" held) = itemsOf document := by
            rw [itemsOf, itemsOf, Json.get_insert, if_neg (by decide)]
          have hdomain (held : Json φ) (reason : String) :
              optionalMember (Json.insert document "hotspot" held) "regulatory-domain" reason
                  Json.asStr =
                optionalMember document "regulatory-domain" reason Json.asStr := by
            rw [optionalMember, optionalMember, Json.get_insert, if_neg (by decide)]
          have hhotspot (held : Json.Map φ) :
              hotspotOf (Json.insert document "hotspot" (.object held)) =
                (Hotspot.parse held >>= fun read => pure (some read)) := by
            rw [hotspotOf, Json.get_insert, if_pos rfl]
          simp only [Document.parse_eq, hitems, hdomain, hhotspot,
            Hotspot.parse_congr (sameTold_null hotspot member)]
      | _ => rfl

/-! ## The object of a candidate -/

/-- A document of other candidates is read with those. -/
theorem Document.parse_insert_attachments (document : Json.Map φ) (items : List (Json φ)) :
    Document.parse (Json.insert document "attachments" (.array items)) =
      (parseAttachments 0 [] items >>= fun attachments =>
        hotspotOf document >>= fun hotspot =>
        faultAt [.name "regulatory-domain"]
          (optionalMember document "regulatory-domain" "the regulatory domain is a string"
            Json.asStr) >>= fun regulatoryDomain =>
        pure {
          attachments := attachments
          hotspot := hotspot
          regulatoryDomain := regulatoryDomain }) := by
  have hitems : itemsOf (Json.insert document "attachments" (.array items)) = .ok items := by
    rw [itemsOf, Json.get_insert, if_pos rfl]
    rfl
  have hhotspot : hotspotOf (Json.insert document "attachments" (.array items)) =
      hotspotOf document := by
    rw [hotspotOf, hotspotOf, Json.get_insert, if_neg (by decide)]
  have hdomain (reason : String) :
      optionalMember (Json.insert document "attachments" (.array items)) "regulatory-domain"
          reason Json.asStr =
        optionalMember document "regulatory-domain" reason Json.asStr := by
    rw [optionalMember, optionalMember, Json.get_insert, if_neg (by decide)]
  rw [Document.parse_eq, hitems, Fallible.ok_bind, hhotspot, hdomain]

theorem Document.parse_insert_congr {document : Json.Map φ} {one other : List (Json φ)}
    (hsame : parseAttachments 0 [] one = parseAttachments 0 [] other) :
    Document.parse (Json.insert document "attachments" (.array one)) =
      Document.parse (Json.insert document "attachments" (.array other)) := by
  rw [Document.parse_insert_attachments, Document.parse_insert_attachments, hsame]

/-- Candidates of which one is changed. -/
theorem modify_candidate {items : List (Json φ)} {index : Nat} {candidate : Json.Map φ}
    (hitem : items[index]? = some (.object candidate)) (f : Json.Map φ → Json.Map φ) :
    items.modify index (changeObject f) =
      items.take index ++ .object (f candidate) :: items.drop (index + 1) := by
  obtain ⟨hlong, hitem⟩ := List.getElem?_eq_some_iff.mp hitem
  rw [List.modify_eq_take_cons_drop hlong, hitem]
  rfl

/-- Where no candidate stands nothing is changed. -/
theorem modify_other {items : List (Json φ)} {index : Nat}
    (hitem : ∀ candidate, items[index]? ≠ some (.object candidate))
    (f : Json.Map φ → Json.Map φ) : items.modify index (changeObject f) = items := by
  refine List.ext_getElem? fun i => ?_
  by_cases hi : index = i
  · rw [← hi, List.getElem?_modify_eq]
    cases hvalue : items[index]? with
    | none => rfl
    | some value =>
        cases value with
        | object candidate => exact absurd hvalue (hitem candidate)
        | _ => rfl
  · rw [List.getElem?_modify_ne _ _ hi]

/-- A member of a candidate other than the bands of a wireless one is read as left out where it
is null. -/
theorem Attachment.parse_null {candidate : Json.Map φ} {member : String} (index : Nat)
    (hother : ¬ (member = "bands" ∧
      (Json.get candidate "kind").bind Json.asStr = some "wireless")) :
    Attachment.parse (Json.insert candidate member .null) index =
      Attachment.parse (Json.remove candidate member) index := by
  refine Attachment.parse_congr (sameTold_null candidate member) index fun hwireless => ?_
  have hmember : ¬ member = "bands" := by
    intro hbands
    refine hother ⟨hbands, ?_⟩
    rwa [hbands, Json.get_remove, if_neg (by decide)] at hwireless
  rw [Json.get_insert, Json.get_remove, if_neg hmember, if_neg hmember]

/-- A candidate after another is not refused for the other's bands. -/
theorem parseAttachments_ne_noBands (index : Nat) (dynamicInterfaces : List String)
    (items : List (Json φ)) :
    parseAttachments (index + 1) dynamicInterfaces items ≠ .error (noBands index) := by
  intro hfault
  obtain ⟨later, hlater, rest, hpath⟩ := parseAttachments_faults hfault
  have hsame : index = later := index_of_path hpath
  omega

/-- The hotspot is not refused for a candidate's bands. -/
theorem Document.hotspotOf_ne_noBands (index : Nat) (document : Json.Map φ) :
    hotspotOf document ≠ .error (noBands index) := by
  intro hfault
  obtain ⟨rest, hpath⟩ := Document.hotspot_faults document _ hfault
  exact path_attachments_ne (by decide) (by decide) hpath

/-- The regulatory domain is not refused for a candidate's bands. -/
theorem domain_ne_noBands (index : Nat) (result : Except String (Option String)) :
    faultAt [.name "regulatory-domain"] result ≠ .error (noBands index) := by
  intro hfault
  obtain ⟨rest, hpath⟩ := faultsBelow_faultAt [.name "regulatory-domain"] [] result _ hfault
  exact path_attachments_ne (by decide) (by decide) hpath

/-- What a wireless candidate carries is read as that of one. -/
theorem Attachment.wireless_of_parse {candidate : Json.Map φ} {index : Nat}
    {attachment : Attachment φ} (hparse : Attachment.parse candidate index = .ok attachment)
    (hkind : (Json.get candidate "kind").bind Json.asStr = some "wireless") :
    ∃ wireless, attachment.kind = .wireless wireless := by
  unfold Attachment.parse AttachmentKind.parse at hparse
  rw [hkind] at hparse
  obtain ⟨label, -, hparse⟩ := Fallible.bind_ok.mp hparse
  obtain ⟨enabled, -, hparse⟩ := Fallible.bind_ok.mp hparse
  obtain ⟨verify, -, hparse⟩ := Fallible.bind_ok.mp hparse
  obtain ⟨nameservers, -, hparse⟩ := Fallible.bind_ok.mp hparse
  obtain ⟨kind, hread, hparse⟩ := Fallible.bind_ok.mp hparse
  obtain ⟨wireless, -, hwireless⟩ := Fallible.bind_ok.mp hread
  rw [← Fallible.pure_ok.mp hparse, ← Fallible.pure_ok.mp hwireless]
  exact ⟨wireless, rfl⟩

/-- A document whose bands are come to is not refused for them where they are left out. -/
theorem Document.parse_ne_noBands {document : Json.Map φ} {before after : List (Json φ)}
    {candidate : Json.Map φ} {earlier : List (Attachment φ)} {attachment : Attachment φ}
    (hearlier : parseAttachments 0 [] before = .ok earlier)
    (hread : Attachment.parse candidate before.length = .ok attachment)
    (hkind : (Json.get candidate "kind").bind Json.asStr = some "wireless") :
    Document.parse
        (Json.insert document "attachments" (.array (before ++ .object candidate :: after))) ≠
      .error (noBands before.length) := by
  intro hfault
  obtain ⟨between, hbetween⟩ := parseAttachments_append_ok hearlier
  obtain ⟨wireless, hwireless⟩ := Attachment.wireless_of_parse hread hkind
  rw [Document.parse_insert_attachments, hbetween, Nat.zero_add, parseAttachments_cons, hread,
    Fallible.ok_bind, hwireless] at hfault
  rcases Fallible.bind_error.mp hfault with hlater | ⟨attachments, -, hfault⟩
  · rcases Fallible.bind_error.mp hlater with hlater | ⟨others, -, hlater⟩
    · rcases Fallible.bind_error.mp hlater with hafter | ⟨same, -, hlater⟩
      · cases hafter
      rcases Fallible.bind_error.mp hlater with hothers | ⟨others, -, hlater⟩
      · exact parseAttachments_ne_noBands _ _ _ hothers
      · cases hlater
    · cases hlater
  rcases Fallible.bind_error.mp hfault with hhotspot | ⟨hotspot, -, hfault⟩
  · exact hotspotOf_ne_noBands _ _ hhotspot
  rcases Fallible.bind_error.mp hfault with hdomain | ⟨domain, -, hfault⟩
  · exact domain_ne_noBands _ _ hdomain
  · cases hfault

/-- Null bands of a wireless candidate are read as left out exactly where something before them
is at fault. -/
theorem Document.parse_null_bands {document : Json.Map φ} {before after : List (Json φ)}
    {candidate : Json.Map φ}
    (hkind : (Json.get candidate "kind").bind Json.asStr = some "wireless") :
    Document.parse (Json.insert document "attachments"
          (.array (before ++ .object (Json.insert candidate "bands" .null) :: after))) =
        Document.parse (Json.insert document "attachments"
          (.array (before ++ .object (Json.remove candidate "bands") :: after))) ↔
      ¬ ((parseAttachments 0 [] before).isOk = true ∧
        (Attachment.parse (Json.remove candidate "bands") before.length).isOk = true) := by
  have hnull := Attachment.parse_bands_null before.length hkind
  cases hearlier : parseAttachments 0 [] before with
  | error invalid =>
      refine iff_of_true (Document.parse_insert_congr ?_) fun hbands => nomatch hbands.1
      rw [parseAttachments_append_error _ hearlier, parseAttachments_append_error _ hearlier]
  | ok earlier =>
      cases hread : Attachment.parse (Json.remove candidate "bands") before.length with
      | error invalid =>
          rw [hread, Fallible.error_bind] at hnull
          refine iff_of_true (Document.parse_insert_congr ?_) fun hbands => nomatch hbands.2
          refine parseAttachments_replace ?_
          rw [Nat.zero_add, hnull, hread]
      | ok attachment =>
          rw [hread, Fallible.ok_bind] at hnull
          refine iff_of_false (fun hsame => ?_) fun hnot => hnot ⟨rfl, rfl⟩
          have hleft : (Json.get (Json.remove candidate "bands") "kind").bind Json.asStr =
              some "wireless" := by
            rw [Json.get_remove, if_neg (by decide), hkind]
          obtain ⟨between, hbetween⟩ := parseAttachments_append_ok hearlier
          refine Document.parse_ne_noBands hearlier hread hleft (hsame.symm.trans ?_)
          rw [Document.parse_insert_attachments, hbetween, Nat.zero_add, parseAttachments_cons,
            hnull]
          rfl

/-- A member of a candidate set to null is read as left out, but for the bands of a wireless one
that the reading comes to. -/
theorem Document.parse_null_attachment (document : Json.Map φ) (index : Nat) (member : String) :
    Document.parse ((Place.attachment index).null member document) =
        Document.parse ((Place.attachment index).leftOut member document) ↔
      ¬ (member = "bands" ∧ comesToBands document index = true) := by
  unfold Place.null Place.leftOut Place.change comesToBands
  cases hget : Json.get document "attachments" with
  | none => simp
  | some value =>
  cases value with
  | array items =>
      simp only
      by_cases hcandidate : ∃ candidate, items[index]? = some (.object candidate)
      · obtain ⟨candidate, hitem⟩ := hcandidate
        have hlength : (items.take index).length = index :=
          List.length_take_of_le (Nat.le_of_lt (List.getElem?_eq_some_iff.mp hitem).1)
        rw [modify_candidate hitem, modify_candidate hitem]
        simp only [hitem, Bool.and_eq_true, beq_iff_eq]
        by_cases hbands : member = "bands" ∧
            (Json.get candidate "kind").bind Json.asStr = some "wireless"
        · rw [hbands.1, Document.parse_null_bands hbands.2, hlength]
          simp only [hbands.2, true_and]
        · refine iff_of_true (Document.parse_insert_congr (parseAttachments_replace ?_))
            fun hcome => hbands ⟨hcome.1, hcome.2.1.1⟩
          exact Attachment.parse_null _ hbands
      · have hother : ∀ candidate, items[index]? ≠ some (.object candidate) :=
          fun candidate hitem => hcandidate ⟨candidate, hitem⟩
        rw [modify_other hother, modify_other hother]
        refine iff_of_true rfl fun hcome => ?_
        split at hcome
        · rename_i candidate hitem
          exact hother candidate hitem
        · cases hcome.2
  | _ => simp

/-! ## Reading what was written -/

/-- A document read is read again as it is written, and an optional member set to null is read
as left out exactly where the reading does not come to the bands of a wireless candidate
there. -/
theorem Document.survives_iff (raw : Json.Map φ) :
    (∀ document, Document.parse raw = .ok document →
      Document.parse document.toJson = .ok document) ∧
    ∀ place : Place, ∀ member ∈ place.optional,
      Document.parse (place.null member raw) = Document.parse (place.leftOut member raw) ↔
        ¬ ∃ index, place = .attachment index ∧ member = "bands" ∧
          comesToBands raw index = true := by
  refine ⟨fun document hparse => Document.parse_toJson hparse, fun place member _ => ?_⟩
  cases place with
  | document =>
      refine iff_of_true (Document.parse_null_document raw member) fun hcome => ?_
      obtain ⟨index, hplace, -⟩ := hcome
      cases hplace
  | attachment index =>
      rw [Document.parse_null_attachment]
      simp
  | hotspot =>
      refine iff_of_true (Document.parse_null_hotspot raw member) fun hcome => ?_
      obtain ⟨index, hplace, -⟩ := hcome
      cases hplace

/-- A document of one wireless candidate. -/
def clinicDocument : Json.Map Unit :=
  [("attachments", .array [.object [
    ("enabled", .bool true),
    ("kind", .string "wireless"),
    ("label", .string "clinic"),
    ("security", .object [("kind", .string "psk"), ("passphrase", .string "correct horse")]),
    ("ssid", .string "Clinic"),
    ("verify", .bool true)]])]

/-- What is read of the document of one wireless candidate. -/
def clinic : Document Unit where
  attachments := [{
    label := "clinic"
    enabled := true
    verify := true
    nameservers := []
    kind := .wireless {
      ssid := "Clinic"
      security := .psk "correct horse"
      hidden := none
      interface := none
      bands := [] } }]
  hotspot := none
  regulatoryDomain := none

/-- The document of one wireless candidate survives being written, and may leave its bands out or
whether it is hidden, which may also be null. -/
theorem clinic_survives :
    Document.parse clinic.toJson = .ok clinic ∧
      Document.parse ((Place.attachment 0).null "hidden" clinicDocument) =
        Document.parse ((Place.attachment 0).leftOut "hidden" clinicDocument) :=
  ⟨(Document.survives_iff clinicDocument).1 clinic rfl,
    ((Document.survives_iff clinicDocument).2 (.attachment 0) "hidden" (by decide)).mpr
      fun hcome => by
        obtain ⟨index, -, hbands, -⟩ := hcome
        exact absurd hbands (by decide)⟩

/-- Null bands are refused where bands left out are read. -/
theorem not_survives :
    ¬ ∀ raw : Json.Map Unit,
      (∀ document, Document.parse raw = .ok document →
        Document.parse document.toJson = .ok document) ∧
      ∀ place : Place, ∀ member ∈ place.optional,
        Document.parse (place.null member raw) = Document.parse (place.leftOut member raw) := by
  intro hall
  have hsame := (hall clinicDocument).2 (.attachment 0) "bands" (by decide)
  have hok : (Document.parse ((Place.attachment 0).leftOut "bands" clinicDocument)).isOk = true := by
    decide
  have hfault : (Document.parse ((Place.attachment 0).null "bands" clinicDocument)).isOk =
      false := by
    decide
  rw [hsame, hok] at hfault
  cases hfault

end Bliti.Channel.Config
