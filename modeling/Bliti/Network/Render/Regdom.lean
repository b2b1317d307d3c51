import Bliti.Channel.Config
import Bliti.Network.Render.Files

/-!
# Rendering - faults, headers and the regulatory domain

What every part of the renderer shares: why a state could not be rendered, the
line a file starts with, and the regulatory domain the radios operate under.
-/

namespace Bliti.Network.Render

open Channel.Config

variable {φ : Type}

/-! ## Faults -/

/-- Why a state could not be rendered: the document cannot be carried out on this
hardware, or the selection does not fit it. -/
inductive Error where
  | invalid (invalid : Invalid)
  | selection (reason : String)
deriving DecidableEq, Repr

/-- A fault of the document as the renderer answers it: `From<Invalid> for Error`. -/
def faulting {α : Type} : Except Invalid α → Except Error α
  | .ok value => .ok value
  | .error invalid => .error (.invalid invalid)

/-- A fault of the document at the node some segments name. -/
def invalid (segments : List Segment) (reason : String) : Invalid where
  atPath := path segments
  reason := reason

/-- The path of the candidate at a rank. -/
def candidatePath (rank : Nat) : String :=
  path [.name "attachments", .index rank]

/-- A fault in a member of the candidate at a rank. -/
def invalidIn (rank : Nat) (below : List Segment) (reason : String) : Invalid :=
  invalid ([.name "attachments", .index rank] ++ below) reason

/-- The first line of every file rendered. -/
def header (origin : String) : String :=
  "# Written by bliti from " ++ origin ++
    ". bliti owns this file and overwrites any change to it.\n"

/-! ## What several parts hold a document to -/

/-- Whether an SSID is 1 to 32 bytes. -/
def isSsid (ssid : String) : Bool :=
  0 < ssid.utf8ByteSize && ssid.utf8ByteSize ≤ 32

/-- Whether a passphrase is 8 to 63 printable ASCII characters. -/
def isPassphrase (passphrase : String) : Bool :=
  8 ≤ passphrase.utf8ByteSize && passphrase.utf8ByteSize ≤ 63 &&
    passphrase.toList.all Text.isPrintable

/-! ## The regulatory domain -/

namespace Regdom

/-- The kernel's world domain. -/
def WORLD : String := "00"

/-- The document's regulatory domain, where it sets one. -/
def domain (document : Document φ) : Except Invalid (Option String) :=
  match document.regulatoryDomain with
  | none => .ok none
  | some code =>
      if code.utf8ByteSize = 2 ∧ code.toList.all Char.isUpper then .ok (some code)
      else .error (invalid [.name "regulatory-domain"]
        (Text.debug code ++ " is not an ISO 3166-1 alpha-2 code such as \"NZ\""))

/-- The domain the kernel's module starts under. -/
def modprobe (paths : Paths) (domain : Option String) : File where
  path := paths.modprobe
  contents := header "the document" ++ "options cfg80211 ieee80211_regdom=" ++
    domain.getD WORLD ++ "\n"
  mode := PUBLIC

end Regdom

end Bliti.Network.Render
