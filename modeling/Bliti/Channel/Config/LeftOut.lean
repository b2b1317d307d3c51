import Bliti.Channel.Config.Parts

/-!
# The network configuration document - null members

A member of an object is read as left out where it is null.  Everything but the bands of a
wireless candidate is read of what an object tells, whatever the member that tells nothing
looks like.
-/

namespace Bliti.Channel.Config

variable {φ : Type}

/-! ## What an object tells -/

/-- The member of an object by its name, unless it is null. -/
def told (map : Json.Map φ) (name : String) : Option (Json φ) :=
  (Json.get map name).filter fun value => !value.isNull

/-- Two objects tell the same: a member is in both, or null or left out in both. -/
def SameTold (one other : Json.Map φ) : Prop :=
  ∀ name, told one name = told other name

/-- A member set to null tells what it does left out. -/
theorem sameTold_null (map : Json.Map φ) (name : String) :
    SameTold (Json.insert map name .null) (Json.remove map name) := by
  intro other
  rw [told, told, Json.get_insert, Json.get_remove]
  by_cases hname : name = other
  · rw [if_pos hname, if_pos hname]
    rfl
  · rw [if_neg hname, if_neg hname]

/-- What does not read null reads what an object tells. -/
theorem bind_told {α : Type} {read : Json φ → Option α} (hnull : read .null = none)
    (map : Json.Map φ) (name : String) :
    (Json.get map name).bind read = (told map name).bind read := by
  rw [told]
  cases Json.get map name with
  | none => rfl
  | some value =>
      cases value with
      | null => exact hnull
      | _ => rfl

/-- An optional member is read of what an object tells. -/
theorem optionalMember_told {α : Type} (map : Json.Map φ) (member reason : String)
    (read : Json φ → Option α) :
    optionalMember map member reason read =
      match told map member with
      | none => .ok none
      | some value =>
          match read value with
          | some a => .ok (some a)
          | none => .error reason := by
  rw [optionalMember, told]
  cases Json.get map member with
  | none => rfl
  | some value => cases value <;> rfl

namespace SameTold

variable {one other : Json.Map φ}

/-- An optional member is read the same of objects that tell the same. -/
theorem optionalMember (htold : SameTold one other) {α : Type} (member reason : String)
    (read : Json φ → Option α) :
    Config.optionalMember one member reason read =
      Config.optionalMember other member reason read := by
  rw [optionalMember_told, optionalMember_told, htold member]

/-- What does not read null is read the same of objects that tell the same. -/
theorem bind (htold : SameTold one other) {α : Type} {read : Json φ → Option α}
    (hnull : read .null = none) (name : String) :
    (Json.get one name).bind read = (Json.get other name).bind read := by
  rw [bind_told hnull, bind_told hnull, htold name]

/-- A required string is read the same of objects that tell the same. -/
theorem string (htold : SameTold one other) (member : String) :
    Config.string one member = Config.string other member := by
  rw [Config.string, Config.string, htold.bind rfl]

/-- A required boolean is read the same of objects that tell the same. -/
theorem requiredBool (htold : SameTold one other) (member reason : String) :
    Config.requiredBool one member reason = Config.requiredBool other member reason := by
  rw [Config.requiredBool, Config.requiredBool, htold.bind rfl]

/-- An array of strings is read the same of objects that tell the same. -/
theorem stringArray (htold : SameTold one other) (member : String) :
    Config.stringArray one member = Config.stringArray other member := by
  rw [Config.stringArray, Config.stringArray, htold.optionalMember]

end SameTold

/-! ## Candidates -/

/-- The security of a wireless candidate is read where it is an object. -/
theorem Wireless.securityOf_eq (candidate : Json.Map φ) (index : Nat) :
    securityOf candidate index =
      match (Json.get candidate "security").bind Json.asObject with
      | some security => Security.parse security index
      | none =>
          refuse (attachmentAt index "security")
            "a wireless candidate carries a `security` object" := by
  rw [securityOf]
  cases Json.get candidate "security" with
  | none => rfl
  | some value => cases value <;> rfl

section

variable {one other : Json.Map φ} (htold : SameTold one other) (index : Nat)
include htold

theorem Wireless.securityOf_congr : securityOf one index = securityOf other index := by
  have hobject : (Json.get one "security").bind Json.asObject =
      (Json.get other "security").bind Json.asObject := htold.bind rfl "security"
  rw [securityOf_eq, securityOf_eq, hobject]

/-- The bands of a wireless candidate are read of what it tells, and of whether it carries
any. -/
theorem Wireless.bandsOf_congr
    (hbands : (Json.get one "bands").isSome = (Json.get other "bands").isSome) :
    bandsOf one index = bandsOf other index := by
  rw [bandsOf, bandsOf, htold.stringArray, hbands]

/-- What a candidate's kind carries is read of what it tells, and for a wireless one of whether
it carries bands. -/
theorem AttachmentKind.parse_congr
    (hbands : (Json.get other "kind").bind Json.asStr = some "wireless" →
      (Json.get one "bands").isSome = (Json.get other "bands").isSome) :
    AttachmentKind.parse one index = AttachmentKind.parse other index := by
  have hkind : (Json.get one "kind").bind Json.asStr = (Json.get other "kind").bind Json.asStr :=
    htold.bind rfl "kind"
  have hgateway : (Json.get one "gateway").bind Json.asStr =
      (Json.get other "gateway").bind Json.asStr := htold.bind rfl "gateway"
  unfold AttachmentKind.parse
  rw [hkind, hgateway, htold.string, htold.stringArray]
  by_cases hwireless : (Json.get other "kind").bind Json.asStr = some "wireless"
  · rw [hwireless]
    simp only [Wireless.parse_eq, htold.string, Wireless.securityOf_congr htold, boolMember,
      optionalString, htold.optionalMember, Wireless.bandsOf_congr htold index (hbands hwireless)]
  · split
    · rename_i hnamed
      exact absurd hnamed hwireless
    · rfl
    · rfl
    · rfl

theorem Attachment.parse_congr
    (hbands : (Json.get other "kind").bind Json.asStr = some "wireless" →
      (Json.get one "bands").isSome = (Json.get other "bands").isSome) :
    Attachment.parse one index = Attachment.parse other index := by
  simp only [Attachment.parse, htold.string, htold.requiredBool, htold.stringArray,
    AttachmentKind.parse_congr htold index hbands]

end

/-- Why null bands are refused, and bands of none. -/
def noBands (index : Nat) : Invalid where
  atPath := path (attachmentAt index "bands")
  reason := "`bands` names at least one band"

/-- Null bands are refused. -/
theorem Wireless.bandsOf_null (candidate : Json.Map φ) (index : Nat) :
    bandsOf (Json.insert candidate "bands" .null) index = .error (noBands index) := by
  simp only [bandsOf, stringArray, optionalMember, Json.get_insert, if_pos]
  rfl

/-- Bands left out are none. -/
theorem Wireless.bandsOf_leftOut (candidate : Json.Map φ) (index : Nat) :
    bandsOf (Json.remove candidate "bands") index = .ok [] := by
  simp only [bandsOf, stringArray, optionalMember, Json.get_remove, if_pos]
  rfl

/-- A wireless candidate of null bands is read as far as those, and then refused. -/
theorem Attachment.parse_bands_null {candidate : Json.Map φ} (index : Nat)
    (hkind : (Json.get candidate "kind").bind Json.asStr = some "wireless") :
    Attachment.parse (Json.insert candidate "bands" .null) index =
      (Attachment.parse (Json.remove candidate "bands") index >>= fun _ =>
        .error (noBands index)) := by
  have htold := sameTold_null candidate "bands"
  have hnull : (Json.get (Json.insert candidate "bands" .null) "kind").bind Json.asStr =
      some "wireless" := by
    rw [Json.get_insert, if_neg (by decide), hkind]
  have hleft : (Json.get (Json.remove candidate "bands") "kind").bind Json.asStr =
      some "wireless" := by
    rw [Json.get_remove, if_neg (by decide), hkind]
  simp only [Attachment.parse, AttachmentKind.parse, hnull, hleft, Wireless.parse_eq,
    htold.string, htold.requiredBool, htold.stringArray, Wireless.securityOf_congr htold,
    boolMember, optionalString, htold.optionalMember, Wireless.bandsOf_null,
    Wireless.bandsOf_leftOut, bind_assoc, Fallible.ok_bind, Fallible.error_bind, pure_bind]

/-! ## The candidates -/

/-- Candidates after some that are at fault are not read. -/
theorem parseAttachments_append_error {items : List (Json φ)} {index : Nat}
    {dynamicInterfaces : List String} {invalid : Invalid} (rest : List (Json φ))
    (hfault : parseAttachments index dynamicInterfaces items = .error invalid) :
    parseAttachments index dynamicInterfaces (items ++ rest) = .error invalid := by
  induction items generalizing index dynamicInterfaces with
  | nil => cases hfault
  | cons item others ih =>
      cases item with
      | object candidate =>
          rw [List.cons_append, parseAttachments_cons]
          rw [parseAttachments_cons] at hfault
          rcases Fallible.bind_error.mp hfault with hfirst | ⟨attachment, hfirst, hfault⟩
          · rw [hfirst, Fallible.error_bind]
          rcases Fallible.bind_error.mp hfault with hafter | ⟨after, hafter, hfault⟩
          · rw [hfirst, Fallible.ok_bind, hafter, Fallible.error_bind]
          rcases Fallible.bind_error.mp hfault with hothers | ⟨read, hothers, hfault⟩
          · rw [hfirst, Fallible.ok_bind, hafter, Fallible.ok_bind, ih hothers,
              Fallible.error_bind]
          · cases hfault
      | _ => exact hfault

/-- Candidates after some that are read are read on from there. -/
theorem parseAttachments_append_ok {items : List (Json φ)} {index : Nat}
    {dynamicInterfaces : List String} {attachments : List (Attachment φ)}
    (hread : parseAttachments index dynamicInterfaces items = .ok attachments) :
    ∃ after, ∀ rest, parseAttachments index dynamicInterfaces (items ++ rest) =
      (parseAttachments (index + items.length) after rest >>= fun others =>
        pure (attachments ++ others)) := by
  induction items generalizing index dynamicInterfaces attachments with
  | nil =>
      cases hread
      refine ⟨dynamicInterfaces, fun rest => ?_⟩
      exact (bind_pure _).symm
  | cons item others ih =>
      cases item with
      | object candidate =>
          rw [parseAttachments_cons] at hread
          obtain ⟨attachment, hfirst, hread⟩ := Fallible.bind_ok.mp hread
          obtain ⟨between, hbetween, hread⟩ := Fallible.bind_ok.mp hread
          obtain ⟨read, hothers, hread⟩ := Fallible.bind_ok.mp hread
          obtain ⟨after, hafter⟩ := ih hothers
          refine ⟨after, fun rest => ?_⟩
          rw [List.cons_append, parseAttachments_cons, hfirst, Fallible.ok_bind, hbetween,
            Fallible.ok_bind, hafter rest, ← Fallible.pure_ok.mp hread, List.length_cons,
            Nat.add_right_comm]
          simp only [bind_assoc, pure_bind, List.cons_append, Nat.add_assoc]
      | _ => cases hread

/-- Candidates are read the same where one of them is replaced by one that is. -/
theorem parseAttachments_replace {before after : List (Json φ)} {index : Nat}
    {dynamicInterfaces : List String} {one other : Json.Map φ}
    (hsame : Attachment.parse one (index + before.length) =
      Attachment.parse other (index + before.length)) :
    parseAttachments index dynamicInterfaces (before ++ .object one :: after) =
      parseAttachments index dynamicInterfaces (before ++ .object other :: after) := by
  cases hbefore : parseAttachments index dynamicInterfaces before with
  | error invalid =>
      rw [parseAttachments_append_error _ hbefore, parseAttachments_append_error _ hbefore]
  | ok attachments =>
      obtain ⟨between, hbetween⟩ := parseAttachments_append_ok hbefore
      rw [hbetween, hbetween, parseAttachments_cons, parseAttachments_cons, hsame]

/-! ## The hotspot and the document -/

theorem Hotspot.parse_congr {one other : Json.Map φ} (htold : SameTold one other) :
    Hotspot.parse one = Hotspot.parse other := by
  simp only [Hotspot.parse, htold.requiredBool, htold.string, boolMember, optionalString,
    u32Member, htold.optionalMember]

/-- The candidates of a document are those of the array it tells. -/
theorem Document.itemsOf_told (document : Json.Map φ) :
    itemsOf document =
      match told document "attachments" with
      | some (.array items) => pure items
      | _ => refuse [.name "attachments"] "the document carries an array `attachments`" := by
  rw [itemsOf, told]
  cases Json.get document "attachments" with
  | none => rfl
  | some value => cases value <;> rfl

/-- The hotspot of a document is read of the one it tells. -/
theorem Document.hotspotOf_told (document : Json.Map φ) :
    hotspotOf document =
      match told document "hotspot" with
      | none => pure none
      | some (.object hotspot) => do pure (some (← Hotspot.parse hotspot))
      | some _ => refuse [.name "hotspot"] "the hotspot is an object" := by
  rw [hotspotOf, told]
  cases Json.get document "hotspot" with
  | none => rfl
  | some value => cases value <;> rfl

theorem Document.parse_congr {one other : Json.Map φ} (htold : SameTold one other) :
    Document.parse one = Document.parse other := by
  simp only [Document.parse_eq, itemsOf_told, hotspotOf_told, htold "attachments",
    htold "hotspot", htold.optionalMember]

end Bliti.Channel.Config
