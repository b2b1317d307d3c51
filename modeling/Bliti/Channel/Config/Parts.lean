import Bliti.Channel.Config.Parse

/-!
# The network configuration document - parsing part by part

The parts a candidate and a document are read from, each on its own, in the order they are
read.
-/

namespace Bliti.Channel.Config

variable {φ : Type}

/-! ## Candidates -/

/-- The security of a wireless candidate, as it is read. -/
def Wireless.securityOf (candidate : Json.Map φ) (index : Nat) : Except Invalid (Security φ) :=
  match Json.get candidate "security" with
  | some (.object security) => Security.parse security index
  | _ =>
      refuse (attachmentAt index "security") "a wireless candidate carries a `security` object"

/-- The bands of a wireless candidate, as they are read and checked. -/
def Wireless.bandsOf (candidate : Json.Map φ) (index : Nat) : Except Invalid (List String) := do
  let bands ← faultAt (attachmentAt index "bands") (stringArray candidate "bands")
  if (Json.get candidate "bands").isSome && bands.isEmpty then
    refuse (attachmentAt index "bands") "`bands` names at least one band"
  else
    match namedTwice [] bands with
    | some twice => refuse (attachmentAt index "bands") (Text.debug twice ++ " is named twice")
    | none => pure bands

/-- A wireless candidate is read member by member, its bands last. -/
theorem Wireless.parse_eq (candidate : Json.Map φ) (index : Nat) :
    Wireless.parse candidate index =
      (do
        let ssid ← faultAt (attachmentAt index "ssid") (string candidate "ssid")
        let security ← securityOf candidate index
        let hidden ← faultAt (attachmentAt index "hidden") (boolMember candidate "hidden")
        let interface ← faultAt (attachmentAt index "interface")
          (optionalString candidate "interface")
        let bands ← bandsOf candidate index
        pure {
          ssid := ssid
          security := security
          hidden := hidden
          interface := interface
          bands := bands }) := by
  unfold Wireless.parse
  refine congrArg _ (funext fun ssid => ?_)
  have hbands (security : Security φ) (hidden : Option Bool) (interface : Option String) :
      (do
        let bands ← faultAt (attachmentAt index "bands") (stringArray candidate "bands")
        if (Json.get candidate "bands").isSome && bands.isEmpty then
          refuse (attachmentAt index "bands") "`bands` names at least one band"
        match namedTwice [] bands with
        | some twice =>
            refuse (attachmentAt index "bands") (Text.debug twice ++ " is named twice")
        | none => pure ()
        pure (Wireless.mk ssid security hidden interface bands)) =
      (bandsOf candidate index >>= fun bands =>
        pure (Wireless.mk ssid security hidden interface bands)) := by
    rw [bandsOf]
    cases faultAt (attachmentAt index "bands") (stringArray candidate "bands") with
    | error invalid => rfl
    | ok bands =>
        simp only [Fallible.ok_bind]
        split
        · rfl
        · split <;> rfl
  have hrest (security : Security φ) := congrArg
    (faultAt (attachmentAt index "hidden") (boolMember candidate "hidden") >>= ·)
    (funext fun hidden => congrArg
      (faultAt (attachmentAt index "interface") (optionalString candidate "interface") >>= ·)
      (funext fun interface => hbands security hidden interface))
  rw [securityOf]
  cases Json.get candidate "security" with
  | none => rfl
  | some value =>
      cases value with
      | object security =>
          exact congrArg (Security.parse security index >>= ·) (funext fun read => hrest read)
      | _ => rfl

/-- The interfaces that have a dynamic candidate after one more, which is at fault where its own
has one already. -/
def dynamicAfter (index : Nat) (dynamicInterfaces : List String) (kind : AttachmentKind φ) :
    Except Invalid (List String) :=
  match kind with
  | .wiredDynamic interface =>
      if interface ∈ dynamicInterfaces then
        refuse (attachmentAt index "interface")
          ("interface " ++ Text.debug interface ++ " already has a dynamic candidate")
      else pure (dynamicInterfaces ++ [interface])
  | _ => pure dynamicInterfaces

/-- The first of the candidates is read before the others. -/
theorem parseAttachments_cons (index : Nat) (dynamicInterfaces : List String)
    (candidate : Json.Map φ) (rest : List (Json φ)) :
    parseAttachments index dynamicInterfaces (.object candidate :: rest) =
      (do
        let attachment ← Attachment.parse candidate index
        let dynamicInterfaces ← dynamicAfter index dynamicInterfaces attachment.kind
        let others ← parseAttachments (index + 1) dynamicInterfaces rest
        pure (attachment :: others)) := by
  rw [parseAttachments]
  refine congrArg _ (funext fun attachment => ?_)
  cases attachment.kind with
  | wiredDynamic interface =>
      by_cases htaken : interface ∈ dynamicInterfaces
      · simp only [dynamicAfter, if_pos htaken]
      · simp only [dynamicAfter, if_neg htaken]
  | _ => rfl

/-! ## The document -/

/-- The candidates of a document, as it carries them. -/
def Document.itemsOf (document : Json.Map φ) : Except Invalid (List (Json φ)) :=
  match Json.get document "attachments" with
  | some (.array items) => pure items
  | _ => refuse [.name "attachments"] "the document carries an array `attachments`"

/-- The hotspot of a document, as it is read. -/
def Document.hotspotOf (document : Json.Map φ) : Except Invalid (Option Hotspot) :=
  match Json.get document "hotspot" with
  | none | some .null => pure none
  | some (.object hotspot) => do pure (some (← Hotspot.parse hotspot))
  | some _ => refuse [.name "hotspot"] "the hotspot is an object"

/-- A document is read part by part. -/
theorem Document.parse_eq (document : Json.Map φ) :
    Document.parse document =
      (do
        let items ← itemsOf document
        let attachments ← parseAttachments 0 [] items
        let hotspot ← hotspotOf document
        let regulatoryDomain ← faultAt [.name "regulatory-domain"]
          (optionalMember document "regulatory-domain" "the regulatory domain is a string"
            Json.asStr)
        pure {
          attachments := attachments
          hotspot := hotspot
          regulatoryDomain := regulatoryDomain }) := by
  have hhotspot (attachments : List (Attachment φ)) :
      (do
        let hotspot ←
          match Json.get document "hotspot" with
          | none | some .null => pure none
          | some (.object hotspot) => do pure (some (← Hotspot.parse hotspot))
          | some _ => refuse [.name "hotspot"] "the hotspot is an object"
        let regulatoryDomain ← faultAt [.name "regulatory-domain"]
          (optionalMember document "regulatory-domain" "the regulatory domain is a string"
            Json.asStr)
        pure (Document.mk attachments hotspot regulatoryDomain)) =
      (hotspotOf document >>= fun hotspot => do
        let regulatoryDomain ← faultAt [.name "regulatory-domain"]
          (optionalMember document "regulatory-domain" "the regulatory domain is a string"
            Json.asStr)
        pure (Document.mk attachments hotspot regulatoryDomain)) := by
    rw [hotspotOf]
    cases Json.get document "hotspot" with
    | none => rfl
    | some value =>
        cases value with
        | object hotspot =>
            cases hread : Hotspot.parse hotspot <;> simp only [hread] <;> rfl
        | _ => rfl
  unfold Document.parse
  rw [itemsOf]
  cases Json.get document "attachments" with
  | none => rfl
  | some value =>
      cases value with
      | array items => exact congrArg (parseAttachments 0 [] items >>= ·) (funext hhotspot)
      | _ => rfl

end Bliti.Channel.Config
