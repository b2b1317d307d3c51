import Bliti.Library.Fallible
import Bliti.Network.Render.Regdom

/-!
# Rendering - known networks

iwd's files: one network file for each wireless network the device may join, and
the main configuration that leaves addressing to networkd.
-/

namespace Bliti.Network.Render.Iwd

open Channel.Config

variable {φ : Type}

/-! ## Values -/

/-- A character of a value, after only blanks or after anything else. -/
def escapeChar (leading : Bool) (c : Char) : String :=
  match c with
  | ' ' => if leading then "\\s" else " "
  | '\t' => if leading then "\\t" else "\t"
  | '\n' => "\\n"
  | '\r' => "\\r"
  | '\\' => "\\\\"
  | c => c.toString

/-- Whether only blanks were seen so far, one character on. -/
def stillLeading (leading : Bool) (c : Char) : Bool :=
  leading && (c == ' ' || c == '\t')

/-- A value as ell reads it back: backslashes, line breaks and leading blanks escaped. -/
def escapeFrom (leading : Bool) : List Char → String
  | [] => ""
  | c :: rest => escapeChar leading c ++ escapeFrom (stillLeading leading c) rest

/-- A value as ell reads it back. -/
def escape (value : String) : String :=
  escapeFrom true value.toList

/-- The name iwd gives an SSID's file. -/
def encodeSsid (ssid : String) : String :=
  if ssid.toList.all fun c => c.isAlphanum || c == ' ' || c == '_' || c == '-' then ssid
  else "=" ++ Text.hexBytes ssid

/-! ## Enterprise credentials -/

namespace Enterprise

/-- An EAP method. -/
inductive Method where
  | peap
  | ttls
  | tls
  | pwd
deriving DecidableEq, Repr

namespace Method

/-- The method as iwd names it. -/
def iwd : Method → String
  | .peap => "PEAP"
  | .ttls => "TTLS"
  | .tls => "TLS"
  | .pwd => "PWD"

/-- The method a document names. -/
def ofName (name : String) : Option Method :=
  if name = "peap" then some .peap
  else if name = "ttls" then some .ttls
  else if name = "tls" then some .tls
  else if name = "pwd" then some .pwd
  else none

/-- Whether a member is one a method uses. -/
def uses (method : Method) (member : String) : Bool :=
  if member = "kind" ∨ member = "eap" ∨ member = "identity" then true
  else if member = "anonymous-identity" ∨ member = "phase2" then
    method == .peap || method == .ttls
  else if member = "password" then method == .peap || method == .ttls || method == .pwd
  else if member = "ca-certificate" ∨ member = "domain" then
    method == .peap || method == .ttls || method == .tls
  else if member = "client-certificate" ∨ member = "client-key" ∨
      member = "client-key-passphrase" then
    method == .tls
  else false

/-- The inner method a document names, as iwd names it. -/
def inner (method : Method) (phase2 : String) : Option String :=
  match method with
  | .peap =>
      if phase2 = "mschapv2" then some "MSCHAPV2"
      else if phase2 = "gtc" then some "GTC"
      else if phase2 = "md5" then some "MD5"
      else none
  | .ttls =>
      if phase2 = "mschapv2" then some "Tunneled-MSCHAPv2"
      else if phase2 = "mschap" then some "Tunneled-MSCHAP"
      else if phase2 = "chap" then some "Tunneled-CHAP"
      else if phase2 = "pap" then some "Tunneled-PAP"
      else none
  | .tls | .pwd => none

end Method

/-- A fault in a member of an enterprise candidate's security. -/
def faultIn (rank : Nat) (member reason : String) : Invalid :=
  invalidIn rank [.name "security", .name member] reason

/-- A member that may be left out. -/
def optional (members : Json.Map φ) (rank : Nat) (member : String) :
    Except Invalid (Option String) :=
  match Json.get members member with
  | none | some .null => .ok none
  | some (.string value) =>
      if value.isEmpty then
        .error (faultIn rank member ("`" ++ member ++ "` is a non-empty string"))
      else .ok (some value)
  | some _ => .error (faultIn rank member ("`" ++ member ++ "` is a non-empty string"))

/-- A member that may not. -/
def required (members : Json.Map φ) (rank : Nat) (member why : String) :
    Except Invalid String := do
  match ← optional members rank member with
  | some value => pure value
  | none => .error (faultIn rank member ("`" ++ member ++ "` is required " ++ why))

/-- Whether a text is a PEM block, no line of which starts a group. -/
def isPem (value : String) : Bool :=
  Text.startsWith value "-----BEGIN " && Text.endsWith value "-----" &&
    Text.contains value "-----END " &&
    !(Text.lines value).any fun line => Text.startsWith (Text.trimStart line) "["

/-- A member that is a PEM block. -/
def pem (members : Json.Map φ) (rank : Nat) (member why : String) : Except Invalid String := do
  let value ← required members rank member why
  let value := Text.trim (String.ofList (value.toList.filter fun c => c ≠ '\r'))
  if isPem value then pure (value ++ "\n")
  else .error (faultIn rank member ("`" ++ member ++ "` is a PEM block"))

/-- The keys of the client's own certificate, with what is embedded for them. -/
def clientCertificate (members : Json.Map φ) (rank : Nat) : Except Invalid (String × String) := do
  let certificate ← pem members rank "client-certificate" "by `tls`"
  let key ← pem members rank "client-key" "by `tls`"
  let passphrase ← optional members rank "client-key-passphrase"
  pure ("EAP-TLS-ClientCert=embed:client-certificate\nEAP-TLS-ClientKey=embed:client-key\n" ++
      (match passphrase with
        | some passphrase => "EAP-TLS-ClientKeyPassphrase=" ++ escape passphrase ++ "\n"
        | none => ""),
    "\n[@pem@client-certificate]\n" ++ certificate ++ "\n[@pem@client-key]\n" ++ key)

/-- The keys of the inner method. -/
def innerMethod (members : Json.Map φ) (rank : Nat) (method : Method) (identity : String) :
    Except Invalid String := do
  let phase2 ← required members rank "phase2" "to choose the inner method"
  match method.inner phase2 with
  | none => .error (faultIn rank "phase2" (Text.debug phase2 ++ " is not an inner method of `" ++
      method.iwd.toLower ++ "`"))
  | some inner => do
      let password ← required members rank "password" "by the inner method"
      pure ("EAP-" ++ method.iwd ++ "-Phase2-Method=" ++ inner ++ "\nEAP-" ++ method.iwd ++
        "-Phase2-Identity=" ++ escape identity ++ "\nEAP-" ++ method.iwd ++
        "-Phase2-Password=" ++ escape password ++ "\n")

/-- What a method answers beyond its name: the keys, with what is embedded for them. -/
def answers (members : Json.Map φ) (rank : Nat) (method : Method) (identity : String) :
    Except Invalid (String × String) :=
  match method with
  | .tls => clientCertificate members rank
  | method => do
      let keys ← innerMethod members rank method identity
      pure (keys, "")

/-- The identity told to the access point. -/
def outerIdentity (members : Json.Map φ) (rank : Nat) (method : Method) (identity : String) :
    Except Invalid String :=
  match method with
  | .tls => .ok identity
  | _ => do
      let anonymous ← optional members rank "anonymous-identity"
      pure (anonymous.getD identity)

/-- The group of a method authenticated by password alone. -/
def byPassword (members : Json.Map φ) (rank : Nat) (identity : String) :
    Except Invalid String := do
  let password ← required members rank "password" "by `pwd`"
  pure ("[Security]\nEAP-Method=PWD\nEAP-Identity=" ++ escape identity ++ "\nEAP-Password=" ++
    escape password ++ "\n")

/-- The group of a method authenticated by the server's certificate. -/
def byCertificate (members : Json.Map φ) (rank : Nat) (method : Method) (identity : String) :
    Except Invalid String := do
  let ca ← pem members rank "ca-certificate" "to authenticate the access point"
  let domain ← required members rank "domain" "to authenticate the access point"
  if domain.toList.all fun c => c.isAlphanum || c == '.' || c == '-' || c == '*' then do
    let outer ← outerIdentity members rank method identity
    let (keys, embedded) ← answers members rank method identity
    pure ("[Security]\nEAP-Method=" ++ method.iwd ++ "\nEAP-Identity=" ++ escape outer ++
      "\nEAP-" ++ method.iwd ++ "-CACert=embed:ca\nEAP-" ++ method.iwd ++
      "-ServerDomainMask=" ++ domain ++ "\n" ++ keys ++ "\n[@pem@ca]\n" ++ ca ++ embedded)
  else .error (faultIn rank "domain" (Text.debug domain ++ " is not a server name"))

/-- The security group of an enterprise candidate, with what is embedded after it. -/
def security (members : Json.Map φ) (rank : Nat) : Except Invalid String := do
  let name ← required members rank "eap" "to choose the EAP method"
  match Method.ofName name with
  | none => .error (faultIn rank "eap"
      (Text.debug name ++ " is not one of `peap`, `ttls`, `tls` or `pwd`"))
  | some method =>
      match members.find? fun member => !method.uses member.1 with
      | some (member, _) => .error (faultIn rank member
          ("`" ++ member ++ "` is not used by `" ++ method.iwd.toLower ++ "`"))
      | none => do
          let identity ← required members rank "identity" "to authenticate"
          match method with
          | .pwd => byPassword members rank identity
          | method => byCertificate members rank method identity

end Enterprise

/-! ## Networks -/

/-- The security group of a network joined by passphrase. -/
def psk (passphrase : String) (rank : Nat) : Except Invalid String :=
  if isPassphrase passphrase then
    .ok ("[Security]\nPassphrase=" ++ escape passphrase ++ "\n")
  else
    .error (invalidIn rank [.name "security", .name "passphrase"]
      "a passphrase is 8 to 63 printable ASCII characters")

/-- What ends the name of a network's file. -/
def suffix (wireless : Wireless φ) : String :=
  match wireless.security with
  | .psk _ | .pskSae _ | .sae _ => ".psk"
  | .enterprise _ => ".8021x"

/-- The settings of a network. -/
def settings (wireless : Wireless φ) : String :=
  "[Settings]\nAutoConnect=false\nHidden=" ++ toString (wireless.hidden.getD false) ++ "\n" ++
    match wireless.security with
    -- Without this iwd falls back to WPA2 on an access point that offers both.
    | .sae _ => "TransitionDisable=true\nDisabledTransitionModes=personal\n"
    | _ => ""

/-- The security of a network. -/
def security (wireless : Wireless φ) (rank : Nat) : Except Invalid String :=
  match wireless.security with
  | .psk passphrase | .pskSae passphrase | .sae passphrase => psk passphrase rank
  | .enterprise members => Enterprise.security members rank

/-- Where the file of a network is. -/
def networkPath (hardware : Hardware) (wireless : Wireless φ) : Path :=
  hardware.paths.iwdState.join (encodeSsid wireless.ssid ++ suffix wireless)

/-- A network's file, with the candidate it is of. -/
structure Known (φ : Type) where
  rank : Nat
  wireless : Wireless φ
  file : File

/-- The member two candidates for one network differ in, where they do. -/
def differs [BEq φ] (first wireless : Wireless φ) : Option String :=
  if first.security != wireless.security then some "security"
  else if first.hidden.getD false != wireless.hidden.getD false then some "hidden"
  else none

/-- Add the file of a candidate's network to those of the candidates before it. -/
def addNetwork [BEq φ] (hardware : Hardware) (networks : List (Known φ)) :
    Attachment φ × Nat → Except Invalid (List (Known φ))
  | (attachment, rank) =>
      match attachment.kind with
      | .wireless wireless =>
          if hardware.radios.isEmpty then
            .error (invalidIn rank [] "this device has no wireless client")
          else if !isSsid wireless.ssid then
            .error (invalidIn rank [.name "ssid"] "an SSID is 1 to 32 bytes")
          else do
            let security ← security wireless rank
            if !attachment.enabled then pure networks
            else
              let path := networkPath hardware wireless
              match networks.find? fun network => network.file.path == path with
              | some earlier =>
                  match differs earlier.wireless wireless with
                  | none => pure networks
                  | some member => .error (invalidIn rank [.name "ssid"]
                      ("candidate " ++ toString earlier.rank ++ " joins " ++
                        Text.debug wireless.ssid ++ " with a different " ++ member ++
                        ", and iwd holds one such network per SSID, so every candidate " ++
                        "for it has to carry the same"))
              | none =>
                  pure (networks ++ [{
                    rank := rank
                    wireless := wireless
                    file := {
                      path := path
                      contents := header (candidatePath rank) ++ "\n" ++ settings wireless ++
                        "\n" ++ security
                      mode := SECRET } }])
      | .wiredDynamic _ | .wiredStatic _ _ _ => .ok networks

/-- The network files of a document, one for each wireless network turned on. -/
def networks [BEq φ] (document : Document φ) (hardware : Hardware) :
    Except Invalid (List File) := do
  let networks ← document.attachments.zipIdx.foldlM (addNetwork hardware) []
  pure (networks.map Known.file)

/-- The drivers iwd is told not to run SAE on. -/
def SAE_DISABLED : List String := ["brcmfmac"]

/-- iwd's main configuration. -/
def mainConf (paths : Paths) (domain : Option String) : File where
  path := paths.iwdConfig
  contents := header "the document" ++ "\n[General]\nEnableNetworkConfiguration=false\n" ++
    (match domain with
      | some domain => "Country=" ++ domain ++ "\n"
      | none => "") ++
    "\n[DriverQuirks]\nSaeDisable=" ++ ",".intercalate SAE_DISABLED ++ "\n"
  mode := PUBLIC

end Bliti.Network.Render.Iwd
