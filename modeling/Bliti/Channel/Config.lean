import Bliti.Json
import Bliti.Text

/-!
# The network configuration document

The declarative configuration a client sends: the ordered candidates, the
hotspot and the regulatory domain, with the shape of what an answer names as
being at fault.
-/

namespace Bliti.Channel.Config

variable {φ : Type}

/-! ## What an answer says of a document -/

/-- One step of a path into a document. -/
inductive Segment where
  | name (name : String)
  | index (index : Nat)
deriving DecidableEq, Repr

/-- Why a document, or a part of it, cannot be accepted. -/
structure Invalid where
  atPath : String
  reason : String
deriving DecidableEq, Repr

/-- The outcome of the configuration a device holds. -/
inductive Outcome where
  | verifying
  | applied
  | failed
deriving DecidableEq, Repr

/-- Why the configuration a device holds failed. -/
structure Failure where
  atPath : String
  reason : String
  reached : Option String
deriving DecidableEq, Repr

/-- `From<Invalid> for Failure`. -/
def Failure.ofInvalid (invalid : Invalid) : Failure where
  atPath := invalid.atPath
  reason := invalid.reason
  reached := none

/-- The outcome's name on the wire. -/
def Outcome.asStr : Outcome → String
  | .verifying => "verifying"
  | .applied => "applied"
  | .failed => "failed"

/-- The outcome a wire name stands for. -/
def Outcome.read (name : String) : Except String Outcome :=
  match name with
  | "verifying" => .ok .verifying
  | "applied" => .ok .applied
  | "failed" => .ok .failed
  | other => .error ("unknown outcome " ++ Text.debug other)

/-- An outcome is read back from its name. -/
@[simp]
theorem Outcome.read_asStr (outcome : Outcome) : read outcome.asStr = .ok outcome := by
  cases outcome <;> rfl

/-- The failure as the `failure` member of a state carries it. -/
def Failure.toMap (failure : Failure) : Json.Map φ :=
  let map := Json.insert [] "at" (.string failure.atPath)
  let map := Json.insert map "reason" (.string failure.reason)
  match failure.reached with
  | some reached => Json.insert map "reached" (.string reached)
  | none => map

/-- A required string member of a failure. -/
def Failure.readString (map : Json.Map φ) (member : String) : Except String String :=
  match Json.get map member with
  | some (.string value) => .ok value
  | _ => .error ("a failure carries a string `" ++ member ++ "`")

/-- The failure a `failure` member carries. -/
def Failure.read (map : Json.Map φ) : Except String Failure := do
  let atPath ← readString map "at"
  let reason ← readString map "reason"
  let reached ←
    match Json.get map "reached" with
    | none | some .null => pure none
    | some (.string reached) => pure (some reached)
    | some _ => .error "`reached` is a string"
  pure { atPath := atPath, reason := reason, reached := reached }

/-- A failure is read back as it was written. -/
@[simp]
theorem Failure.read_toMap (failure : Failure) :
    read (φ := φ) failure.toMap = .ok failure := by
  obtain ⟨atPath, reason, reached⟩ := failure
  cases reached <;>
    simp [read, readString, toMap, Json.get, bind, Except.bind, pure, Except.pure]

/-- A character of a member's name as a normalized path writes it. -/
def pathChar (c : Char) : String :=
  if c.toNat = 0x8 then "\\b"
  else if c.toNat = 0xc then "\\f"
  else
    match c with
    | '\n' => "\\n"
    | '\r' => "\\r"
    | '\t' => "\\t"
    | '\'' => "\\'"
    | '\\' => "\\\\"
    | c => if c < ' ' then "\\u" ++ Text.hexPadded 4 c.toNat else c.toString

/-- One segment of a normalized path. -/
def Segment.text : Segment → String
  | .index i => "[" ++ toString i ++ "]"
  | .name member => "['" ++ String.join (member.toList.map pathChar) ++ "']"

/-- The normalized path of a node. -/
def path (segments : List Segment) : String :=
  segments.foldl (fun out segment => out ++ segment.text) "$"

/-! ## The document -/

/-- How a device authenticates to a wireless network. -/
inductive Security (φ : Type) where
  | psk (passphrase : String)
  | sae (passphrase : String)
  | pskSae (passphrase : String)
  | enterprise (members : Json.Map φ)
deriving BEq

/-- A wireless network to join, and what is needed to join it. -/
structure Wireless (φ : Type) where
  ssid : String
  security : Security φ
  hidden : Option Bool
  interface : Option String
  bands : List String
deriving BEq

/-- The three kinds of candidate. -/
inductive AttachmentKind (φ : Type) where
  | wireless (wireless : Wireless φ)
  | wiredDynamic (interface : String)
  | wiredStatic (interface : String) (addresses : List String) (gateway : String)
deriving BEq

/-- One way a device might attach to a network. -/
structure Attachment (φ : Type) where
  label : String
  enabled : Bool
  verify : Bool
  nameservers : List String
  kind : AttachmentKind φ
deriving BEq

/-- The wireless access point a device runs for clients to join directly. -/
structure Hotspot where
  enabled : Bool
  ssid : String
  passphrase : String
  interface : Option String
  shareUpstream : Option Bool
  isolateClients : Option Bool
  dhcpRange : Option String
  band : Option String
  channel : Option Nat
  channelWidth : Option Nat
deriving DecidableEq, BEq

/-- A device's whole network configuration. -/
structure Document (φ : Type) where
  attachments : List (Attachment φ)
  hotspot : Option Hotspot
  regulatoryDomain : Option String
deriving BEq

/-- Equal documents carry as many candidates. -/
theorem Document.length_of_beq [BEq φ] {one other : Document φ}
    (hequal : (one == other) = true) :
    one.attachments.length = other.attachments.length := by
  cases one
  cases other
  simp only [BEq.beq, instBEqDocument.beq, Bool.and_eq_true] at hequal
  exact List.length_eq_of_beq hequal.1

/-- The hotspot the device runs: the one the document carries, where it is
turned on. -/
def Document.enabledHotspot (document : Document φ) : Option Hotspot :=
  document.hotspot.filter (·.enabled)

end Bliti.Channel.Config
