import Bliti.Channel.Config

/-!
# The network configuration document - its JSON

A document as the raw JSON a message carries.  An optional member that is absent
is left out.
-/

namespace Bliti.Channel.Config

variable {φ : Type}

/-- A list of texts, where there are any. -/
def textsOrAbsent (items : List String) : Option (Json φ) :=
  if items.isEmpty then none else some (.array (items.map Json.string))

/-! ## Candidates -/

/-- The kind of an authentication, as the document names it. -/
def Security.tag : Security φ → String
  | .psk _ => "psk"
  | .sae _ => "sae"
  | .pskSae _ => "psk-sae"
  | .enterprise _ => "enterprise"

/-- The raw JSON of an authentication: enterprise keeps the members it arrived with. -/
def Security.toJson (security : Security φ) : Json.Map φ :=
  let withPassphrase (passphrase : String) : Json.Map φ :=
    Json.insert (Json.insert [] "kind" (.string security.tag)) "passphrase" (.string passphrase)
  match security with
  | .psk passphrase => withPassphrase passphrase
  | .sae passphrase => withPassphrase passphrase
  | .pskSae passphrase => withPassphrase passphrase
  | .enterprise members => members

/-- The kind of a candidate, as the document names it. -/
def AttachmentKind.tag : AttachmentKind φ → String
  | .wireless _ => "wireless"
  | .wiredDynamic _ => "wired-dynamic"
  | .wiredStatic _ _ _ => "wired-static"

/-- The members of a wireless candidate, written into its object. -/
def Wireless.writeInto (wireless : Wireless φ) (map : Json.Map φ) : Json.Map φ :=
  let map := Json.insert map "ssid" (.string wireless.ssid)
  let map := Json.insert map "security" (.object wireless.security.toJson)
  let map := Json.insertSome map "hidden" (wireless.hidden.map Json.bool)
  let map := Json.insertSome map "interface" (wireless.interface.map Json.string)
  Json.insertSome map "bands" (textsOrAbsent wireless.bands)

/-- The members a candidate of any kind carries. -/
def Attachment.common (attachment : Attachment φ) : Json.Map φ :=
  let map := Json.insert [] "kind" (.string attachment.kind.tag)
  let map := Json.insert map "label" (.string attachment.label)
  let map := Json.insert map "enabled" (.bool attachment.enabled)
  let map := Json.insert map "verify" (.bool attachment.verify)
  Json.insertSome map "nameservers" (textsOrAbsent attachment.nameservers)

/-- The members of a candidate. -/
def Attachment.members (attachment : Attachment φ) : Json.Map φ :=
  match attachment.kind with
  | .wireless wireless => wireless.writeInto attachment.common
  | .wiredDynamic interface => Json.insert attachment.common "interface" (.string interface)
  | .wiredStatic interface addresses gateway =>
      let map := Json.insert attachment.common "interface" (.string interface)
      let map := Json.insert map "addresses" (.array (addresses.map Json.string))
      Json.insert map "gateway" (.string gateway)

/-- The raw JSON of a candidate. -/
def Attachment.toJson (attachment : Attachment φ) : Json φ :=
  .object attachment.members

/-! ## The hotspot and the document -/

/-- The raw JSON of a hotspot. -/
def Hotspot.toJson (hotspot : Hotspot) : Json.Map φ :=
  let map := Json.insert [] "enabled" (.bool hotspot.enabled)
  let map := Json.insert map "ssid" (.string hotspot.ssid)
  let map := Json.insert map "passphrase" (.string hotspot.passphrase)
  let map := Json.insertSome map "interface" (hotspot.interface.map Json.string)
  let map := Json.insertSome map "share-upstream" (hotspot.shareUpstream.map Json.bool)
  let map := Json.insertSome map "isolate-clients" (hotspot.isolateClients.map Json.bool)
  let map := Json.insertSome map "dhcp-range" (hotspot.dhcpRange.map Json.string)
  let map := Json.insertSome map "band" (hotspot.band.map Json.string)
  let map := Json.insertSome map "channel" (hotspot.channel.map fun (n : Nat) => .number (.int n))
  Json.insertSome map "channel-width" (hotspot.channelWidth.map fun (n : Nat) => .number (.int n))

/-- The raw JSON of a document. -/
def Document.toJson (document : Document φ) : Json.Map φ :=
  let map := Json.insert [] "attachments" (.array (document.attachments.map Attachment.toJson))
  let map := Json.insertSome map "hotspot" (document.hotspot.map fun hotspot => .object hotspot.toJson)
  Json.insertSome map "regulatory-domain" (document.regulatoryDomain.map Json.string)

/-! ## What a reader finds -/

/-- The candidates of a document are found in its JSON. -/
theorem Document.get_attachments (document : Document φ) :
    Json.get document.toJson "attachments" =
      some (.array (document.attachments.map Attachment.toJson)) := by
  simp [Document.toJson]

/-- The hotspot of a document is found in its JSON, where it has one. -/
theorem Document.get_hotspot (document : Document φ) :
    Json.get document.toJson "hotspot" =
      document.hotspot.map fun hotspot => .object hotspot.toJson := by
  simp [Document.toJson, Json.get]

/-- A hotspot is found turned on or off. -/
theorem Hotspot.get_enabled (hotspot : Hotspot) :
    Json.get hotspot.toJson "enabled" = some (Json.bool (φ := φ) hotspot.enabled) := by
  simp [Hotspot.toJson]

/-- The radio a hotspot names is found in its JSON. -/
theorem Hotspot.get_interface (hotspot : Hotspot) :
    Json.get (φ := φ) hotspot.toJson "interface" = hotspot.interface.map Json.string := by
  simp [Hotspot.toJson, Json.get]

/-- What a hotspot chooses of its channel is found in its JSON. -/
theorem Hotspot.get_chosen (hotspot : Hotspot) :
    Json.get (φ := φ) hotspot.toJson "band" = hotspot.band.map Json.string ∧
      Json.get (φ := φ) hotspot.toJson "channel" =
        (hotspot.channel.map fun (n : Nat) => .number (.int n)) ∧
      Json.get (φ := φ) hotspot.toJson "channel-width" =
        hotspot.channelWidth.map fun (n : Nat) => .number (.int n) := by
  simp [Hotspot.toJson, Json.get]

/-- The kind of a candidate is found in its JSON. -/
theorem Attachment.get_kind (attachment : Attachment φ) :
    Json.get attachment.members "kind" = some (.string attachment.kind.tag) := by
  cases hkind : attachment.kind <;>
    simp [Attachment.members, Wireless.writeInto, Attachment.common, hkind]

/-- A candidate is found turned on or off. -/
theorem Attachment.get_enabled (attachment : Attachment φ) :
    Json.get attachment.members "enabled" = some (.bool attachment.enabled) := by
  cases hkind : attachment.kind <;>
    simp [Attachment.members, Wireless.writeInto, Attachment.common, hkind]

/-- The interface a candidate names, where it names one. -/
def AttachmentKind.interface : AttachmentKind φ → Option String
  | .wireless network => network.interface
  | .wiredDynamic interface => some interface
  | .wiredStatic interface _ _ => some interface

/-- The interface a candidate names is found in its JSON. -/
theorem Attachment.get_interface (attachment : Attachment φ) :
    Json.get attachment.members "interface" = attachment.kind.interface.map Json.string := by
  cases hkind : attachment.kind <;>
    simp [Attachment.members, Wireless.writeInto, Attachment.common, hkind, Json.get,
      AttachmentKind.interface]

end Bliti.Channel.Config
