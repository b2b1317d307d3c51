import Bliti.Channel.Config
import Bliti.Library.Fallible

/-!
# The network configuration document - parsing

Reading a document from the raw JSON a message carries, with the structural
rules every device holds a document to.
-/

namespace Bliti.Channel.Config

variable {φ : Type}

/-! ## Members -/

/-- An object's member that may be left out or null, read where it is neither. -/
def optionalMember {α : Type} (map : Json.Map φ) (member reason : String)
    (read : Json φ → Option α) : Except String (Option α) :=
  match Json.get map member with
  | none | some .null => .ok none
  | some value =>
      match read value with
      | some a => .ok (some a)
      | none => .error reason

/-- A member that may be left out is left out or null, or is read. -/
theorem optionalMember_cases {α : Type} {map : Json.Map φ} {member reason : String}
    {read : Json φ → Option α} {found : Option α}
    (hfound : optionalMember map member reason read = .ok found) :
    (found = none ∧ (Json.get map member).filter (fun value => !value.isNull) = none) ∨
      ∃ value a, Json.get map member = some value ∧ value.isNull = false ∧
        read value = some a ∧ found = some a := by
  unfold optionalMember at hfound
  split at hfound
  · rename_i hget
    cases hfound
    exact .inl ⟨rfl, by rw [hget]; rfl⟩
  · rename_i hget
    cases hfound
    exact .inl ⟨rfl, by rw [hget]; rfl⟩
  · rename_i value hnull hget
    split at hfound
    · rename_i a hread
      cases hfound
      refine .inr ⟨value, a, hget, ?_, hread, rfl⟩
      cases value with
      | null => exact absurd rfl hnull
      | _ => rfl
    · cases hfound

/-- The truth value of a boolean. -/
def readBool : Json φ → Option Bool
  | .bool b => some b
  | _ => none

/-- The whole number of a number below `2 ^ 32`. -/
def readU32 : Json φ → Option Nat
  | .number (.int i) => if 0 ≤ i ∧ i < 4294967296 then some i.toNat else none
  | _ => none

/-- A whole number read is the value's. -/
theorem eq_of_readU32 {value : Json φ} {n : Nat} (hread : readU32 value = some n) :
    value = .number (.int n) := by
  unfold readU32 at hread
  split at hread
  · rename_i i
    split at hread
    · rename_i hbounds
      cases hread
      rw [Int.toNat_of_nonneg hbounds.1]
    · cases hread
  · cases hread

/-- A string read is the value's. -/
theorem eq_of_asStr {value : Json φ} {s : String} (hread : value.asStr = some s) :
    value = .string s := by
  cases value with
  | string held =>
      cases hread
      rfl
  | _ => cases hread

/-- The strings of an array of strings. -/
def readStrings : Json φ → Option (List String)
  | .array items => items.mapM Json.asStr
  | _ => none

/-- A required string member. -/
def string (map : Json.Map φ) (member : String) : Except String String :=
  match (Json.get map member).bind Json.asStr with
  | some value => .ok value
  | none => .error ("a string `" ++ member ++ "`")

/-- An optional string member. -/
def optionalString (map : Json.Map φ) (member : String) : Except String (Option String) :=
  optionalMember map member ("`" ++ member ++ "` is a string") Json.asStr

/-- An optional array of strings, empty where the member is absent. -/
def stringArray (map : Json.Map φ) (member : String) : Except String (List String) := do
  let strings ← optionalMember map member ("`" ++ member ++ "` is an array of strings")
    readStrings
  pure (strings.getD [])

/-- An optional boolean member. -/
def boolMember (map : Json.Map φ) (member : String) : Except String (Option Bool) :=
  optionalMember map member ("`" ++ member ++ "` is a boolean") readBool

/-- An optional non-negative integer member. -/
def u32Member (map : Json.Map φ) (member : String) : Except String (Option Nat) :=
  optionalMember map member ("`" ++ member ++ "` is a whole number") readU32

/-- Refuse a document at the path of a part of it. -/
def refuse {α : Type} (segments : List Segment) (reason : String) : Except Invalid α :=
  .error { atPath := path segments, reason := reason }

/-- A member's fault, at the path of the member. -/
def faultAt {α : Type} (segments : List Segment) (result : Except String α) :
    Except Invalid α :=
  match result with
  | .ok value => .ok value
  | .error reason => refuse segments reason

/-- What is read is what was read of the member. -/
theorem faultAt_ok {α : Type} {segments : List Segment} {result : Except String α} {value : α} :
    faultAt segments result = .ok value ↔ result = .ok value := by
  cases result with
  | ok read => simp [faultAt]
  | error reason => simp [faultAt, refuse]

/-- A required boolean member. -/
def requiredBool (map : Json.Map φ) (member reason : String) : Except String Bool :=
  match (Json.get map member).bind readBool with
  | some value => .ok value
  | none => .error reason

/-! ## Candidates -/

/-- The path of a member of a candidate. -/
def attachmentAt (index : Nat) (member : String) : List Segment :=
  [.name "attachments", .index index, .name member]

/-- The path of a member of a candidate's security. -/
def securityAt (index : Nat) (member : String) : List Segment :=
  [.name "attachments", .index index, .name "security", .name member]

/-- The path of a member of the hotspot. -/
def hotspotAt (member : String) : List Segment :=
  [.name "hotspot", .name member]

/-- Read how a candidate authenticates. -/
def Security.parse (security : Json.Map φ) (index : Nat) : Except Invalid (Security φ) :=
  let passphrase (kind : String) : Except Invalid String :=
    faultAt (securityAt index "passphrase")
      (match (Json.get security "passphrase").bind Json.asStr with
      | some value => .ok value
      | none => .error ("a " ++ kind ++ " network carries a passphrase"))
  match (Json.get security "kind").bind Json.asStr with
  | some "psk" => do pure (.psk (← passphrase "psk"))
  | some "sae" => do pure (.sae (← passphrase "sae"))
  | some "psk-sae" => do pure (.pskSae (← passphrase "psk-sae"))
  | some "enterprise" => .ok (.enterprise security)
  | _ =>
      refuse (securityAt index "kind")
        "security is one of `psk`, `sae`, `psk-sae` or `enterprise`"

/-- The first of some names that comes a second time. -/
def namedTwice : List String → List String → Option String
  | _, [] => none
  | before, name :: rest =>
      if name ∈ before then some name else namedTwice (before ++ [name]) rest

/-- Read what a wireless candidate carries. -/
def Wireless.parse (candidate : Json.Map φ) (index : Nat) : Except Invalid (Wireless φ) := do
  let ssid ← faultAt (attachmentAt index "ssid") (string candidate "ssid")
  let security ←
    match Json.get candidate "security" with
    | some (.object security) => Security.parse security index
    | _ =>
        refuse (attachmentAt index "security")
          "a wireless candidate carries a `security` object"
  let hidden ← faultAt (attachmentAt index "hidden") (boolMember candidate "hidden")
  let interface ← faultAt (attachmentAt index "interface") (optionalString candidate "interface")
  let bands ← faultAt (attachmentAt index "bands") (stringArray candidate "bands")
  if (Json.get candidate "bands").isSome && bands.isEmpty then
    refuse (attachmentAt index "bands") "`bands` names at least one band"
  match namedTwice [] bands with
  | some twice => refuse (attachmentAt index "bands") (Text.debug twice ++ " is named twice")
  | none => pure ()
  pure {
    ssid := ssid
    security := security
    hidden := hidden
    interface := interface
    bands := bands }

/-- Read what a candidate's kind carries. -/
def AttachmentKind.parse (candidate : Json.Map φ) (index : Nat) :
    Except Invalid (AttachmentKind φ) :=
  let interface := faultAt (attachmentAt index "interface") (string candidate "interface")
  match (Json.get candidate "kind").bind Json.asStr with
  | some "wireless" => do pure (.wireless (← Wireless.parse candidate index))
  | some "wired-dynamic" => do pure (.wiredDynamic (← interface))
  | some "wired-static" => do
      let interface ← interface
      let addresses ← faultAt (attachmentAt index "addresses") (stringArray candidate "addresses")
      if addresses.isEmpty then
        refuse (attachmentAt index "addresses")
          "a static candidate carries at least one address"
      let gateway ←
        match (Json.get candidate "gateway").bind Json.asStr with
        | some gateway => pure gateway
        | none =>
            refuse (attachmentAt index "gateway") "a static candidate carries a gateway"
      pure (.wiredStatic interface addresses gateway)
  | _ =>
      refuse (attachmentAt index "kind")
        "a candidate's kind is `wireless`, `wired-dynamic` or `wired-static`"

/-- Read a candidate. -/
def Attachment.parse (candidate : Json.Map φ) (index : Nat) :
    Except Invalid (Attachment φ) := do
  let label ← faultAt (attachmentAt index "label") (string candidate "label")
  let enabled ← faultAt (attachmentAt index "enabled")
    (requiredBool candidate "enabled" "a candidate carries `enabled`, a boolean")
  let verify ← faultAt (attachmentAt index "verify")
    (requiredBool candidate "verify" "a candidate carries `verify`, a boolean")
  let nameservers ← faultAt (attachmentAt index "nameservers")
    (stringArray candidate "nameservers")
  let kind ← AttachmentKind.parse candidate index
  pure {
    label := label
    enabled := enabled
    verify := verify
    nameservers := nameservers
    kind := kind }

/-! ## The hotspot and the document -/

/-- Read the hotspot. -/
def Hotspot.parse (hotspot : Json.Map φ) : Except Invalid Hotspot := do
  let enabled ← faultAt (hotspotAt "enabled")
    (requiredBool hotspot "enabled" "the hotspot carries `enabled`, a boolean")
  let ssid ← faultAt (hotspotAt "ssid") (string hotspot "ssid")
  let passphrase ← faultAt (hotspotAt "passphrase") (string hotspot "passphrase")
  let interface ← faultAt (hotspotAt "interface") (optionalString hotspot "interface")
  let shareUpstream ← faultAt (hotspotAt "share-upstream") (boolMember hotspot "share-upstream")
  let isolateClients ← faultAt (hotspotAt "isolate-clients")
    (boolMember hotspot "isolate-clients")
  let dhcpRange ← faultAt (hotspotAt "dhcp-range")
    (optionalMember hotspot "dhcp-range" "the DHCP range is a string" Json.asStr)
  let band ← faultAt (hotspotAt "band")
    (optionalMember hotspot "band" "the band is a string" Json.asStr)
  let channel ← faultAt (hotspotAt "channel") (u32Member hotspot "channel")
  let channelWidth ← faultAt (hotspotAt "channel-width") (u32Member hotspot "channel-width")
  pure {
    enabled := enabled
    ssid := ssid
    passphrase := passphrase
    interface := interface
    shareUpstream := shareUpstream
    isolateClients := isolateClients
    dhcpRange := dhcpRange
    band := band
    channel := channel
    channelWidth := channelWidth }

/-- Read the candidates from a position on, given the interfaces that already
have a dynamic one. -/
def parseAttachments (index : Nat) (dynamicInterfaces : List String) :
    List (Json φ) → Except Invalid (List (Attachment φ))
  | [] => .ok []
  | .object candidate :: rest => do
      let attachment ← Attachment.parse candidate index
      -- At most one wired-dynamic per interface.
      let dynamicInterfaces ←
        match attachment.kind with
        | .wiredDynamic interface =>
            if interface ∈ dynamicInterfaces then
              refuse (attachmentAt index "interface")
                ("interface " ++ Text.debug interface ++ " already has a dynamic candidate")
            else pure (dynamicInterfaces ++ [interface])
        | _ => pure dynamicInterfaces
      let others ← parseAttachments (index + 1) dynamicInterfaces rest
      pure (attachment :: others)
  | _ :: _ => refuse [.name "attachments", .index index] "a candidate is an object"

/-- Read a document from the raw JSON a message carried. -/
def Document.parse (document : Json.Map φ) : Except Invalid (Document φ) := do
  let items ←
    match Json.get document "attachments" with
    | some (.array items) => pure items
    | _ => refuse [.name "attachments"] "the document carries an array `attachments`"
  let attachments ← parseAttachments 0 [] items
  let hotspot ←
    match Json.get document "hotspot" with
    | none | some .null => pure none
    | some (.object hotspot) => do pure (some (← Hotspot.parse hotspot))
    | some _ => refuse [.name "hotspot"] "the hotspot is an object"
  let regulatoryDomain ← faultAt [.name "regulatory-domain"]
    (optionalMember document "regulatory-domain" "the regulatory domain is a string" Json.asStr)
  pure {
    attachments := attachments
    hotspot := hotspot
    regulatoryDomain := regulatoryDomain }

/-- The channel a hotspot chooses is read of its members. -/
theorem Hotspot.chosen_of_parse {map : Json.Map φ} {hotspot : Hotspot}
    (hparse : Hotspot.parse map = .ok hotspot) :
    optionalMember map "band" "the band is a string" Json.asStr = .ok hotspot.band ∧
      u32Member map "channel" = .ok hotspot.channel ∧
      u32Member map "channel-width" = .ok hotspot.channelWidth := by
  unfold Hotspot.parse at hparse
  obtain ⟨enabled, -, hparse⟩ := Fallible.bind_ok.mp hparse
  obtain ⟨ssid, -, hparse⟩ := Fallible.bind_ok.mp hparse
  obtain ⟨passphrase, -, hparse⟩ := Fallible.bind_ok.mp hparse
  obtain ⟨interface, -, hparse⟩ := Fallible.bind_ok.mp hparse
  obtain ⟨shareUpstream, -, hparse⟩ := Fallible.bind_ok.mp hparse
  obtain ⟨isolateClients, -, hparse⟩ := Fallible.bind_ok.mp hparse
  obtain ⟨dhcpRange, -, hparse⟩ := Fallible.bind_ok.mp hparse
  obtain ⟨band, hband, hparse⟩ := Fallible.bind_ok.mp hparse
  obtain ⟨channel, hchannel, hparse⟩ := Fallible.bind_ok.mp hparse
  obtain ⟨channelWidth, hwidth, hparse⟩ := Fallible.bind_ok.mp hparse
  rw [← Fallible.pure_ok.mp hparse]
  exact ⟨faultAt_ok.mp hband, faultAt_ok.mp hchannel, faultAt_ok.mp hwidth⟩

/-- The hotspot of a document read is the one read of its object. -/
theorem Document.hotspot_of_parse {json : Json.Map φ} {document : Document φ}
    (hparse : Document.parse json = .ok document) {hotspot : Hotspot}
    (hhotspot : document.hotspot = some hotspot) :
    ∃ map, Json.get json "hotspot" = some (.object map) ∧ Hotspot.parse map = .ok hotspot := by
  unfold Document.parse at hparse
  simp only at hparse
  split at hparse
  · obtain ⟨items, -, hparse⟩ := Fallible.bind_ok.mp hparse
    obtain ⟨attachments, -, hparse⟩ := Fallible.bind_ok.mp hparse
    split at hparse
    · obtain ⟨found, hfound, hparse⟩ := Fallible.bind_ok.mp hparse
      obtain ⟨domain, -, hparse⟩ := Fallible.bind_ok.mp hparse
      rw [← Fallible.pure_ok.mp hparse, ← Fallible.pure_ok.mp hfound] at hhotspot
      cases hhotspot
    · obtain ⟨found, hfound, hparse⟩ := Fallible.bind_ok.mp hparse
      obtain ⟨domain, -, hparse⟩ := Fallible.bind_ok.mp hparse
      rw [← Fallible.pure_ok.mp hparse, ← Fallible.pure_ok.mp hfound] at hhotspot
      cases hhotspot
    · rename_i map hget
      obtain ⟨read, hread, hparse⟩ := Fallible.bind_ok.mp hparse
      obtain ⟨found, hfound, hparse⟩ := Fallible.bind_ok.mp hparse
      obtain ⟨domain, -, hparse⟩ := Fallible.bind_ok.mp hparse
      rw [← Fallible.pure_ok.mp hparse, ← Fallible.pure_ok.mp hfound] at hhotspot
      cases hhotspot
      exact ⟨map, hget, hread⟩
    · obtain ⟨found, hfound, -⟩ := Fallible.bind_ok.mp hparse
      cases hfound
  · obtain ⟨items, hitems, -⟩ := Fallible.bind_ok.mp hparse
    cases hitems

end Bliti.Channel.Config
