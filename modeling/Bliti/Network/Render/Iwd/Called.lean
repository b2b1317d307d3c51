import Bliti.Library.Fallible
import Bliti.Network.Render.Iwd.Read

/-!
# Known networks - what a candidate calls for

The keys and the embedded texts that the kind of a candidate calls for, with the
document's own strings for their values; and the file that is written for them,
line by line.
-/

namespace Bliti.Network.Render.Iwd

open Channel.Config Fallible

variable {φ : Type}

/-! ## What is called for -/

/-- What a network's file is to carry: its settings and its security, each key with its value,
and the texts embedded under names of their own. -/
structure Called where
  settings : List (String × String)
  security : List (String × String)
  embedded : List (String × String)
deriving DecidableEq, Repr

namespace Enterprise

/-- The string a member holds. -/
def textOf (members : Json.Map φ) (member : String) : Option String :=
  match Json.get members member with
  | some (.string value) => some value
  | _ => none

/-- The string a member holds, or nothing. -/
def told (members : Json.Map φ) (member : String) : String :=
  (textOf members member).getD ""

/-- The text of a PEM member as it is embedded: less its carriage returns, and the white space
around it. -/
def pemText (value : String) : String :=
  Text.trim (String.ofList (value.toList.filter fun c => c ≠ '\r'))

/-- The identity told to the access point. -/
def outer (members : Json.Map φ) (method : Method) : String :=
  match method with
  | .tls => told members "identity"
  | _ => (textOf members "anonymous-identity").getD (told members "identity")

/-- The keys of a method's own. -/
def methodKeys (members : Json.Map φ) (method : Method) : List (String × String) :=
  match method with
  | .tls =>
      [("EAP-TLS-ClientCert", "embed:client-certificate"),
        ("EAP-TLS-ClientKey", "embed:client-key")] ++
        ((textOf members "client-key-passphrase").map fun passphrase =>
          ("EAP-TLS-ClientKeyPassphrase", passphrase)).toList
  | method =>
      [("EAP-" ++ method.iwd ++ "-Phase2-Method",
          (method.inner (told members "phase2")).getD ""),
        ("EAP-" ++ method.iwd ++ "-Phase2-Identity", told members "identity"),
        ("EAP-" ++ method.iwd ++ "-Phase2-Password", told members "password")]

/-- The keys a method calls for. -/
def keysCalled (members : Json.Map φ) (method : Method) : List (String × String) :=
  match method with
  | .pwd => [("EAP-Method", "PWD"), ("EAP-Identity", told members "identity"),
      ("EAP-Password", told members "password")]
  | method =>
      [("EAP-Method", method.iwd), ("EAP-Identity", outer members method),
        ("EAP-" ++ method.iwd ++ "-CACert", "embed:ca"),
        ("EAP-" ++ method.iwd ++ "-ServerDomainMask", told members "domain")] ++
        methodKeys members method

/-- The texts a method has embedded. -/
def embeddedCalled (members : Json.Map φ) (method : Method) : List (String × String) :=
  match method with
  | .pwd => []
  | .tls => [("@pem@ca", pemText (told members "ca-certificate")),
      ("@pem@client-certificate", pemText (told members "client-certificate")),
      ("@pem@client-key", pemText (told members "client-key"))]
  | _ => [("@pem@ca", pemText (told members "ca-certificate"))]

/-- The strings of the document a method gives as values, the server's name apart. -/
def values (members : Json.Map φ) (method : Method) : List String :=
  match method with
  | .pwd => [told members "identity", told members "password"]
  | .tls => told members "identity" :: (textOf members "client-key-passphrase").toList
  | method => [outer members method, told members "identity", told members "password"]

end Enterprise

/-- The security a candidate calls for, with what is embedded after it. -/
def securityCalled (security : Security φ) : List (String × String) × List (String × String) :=
  match security with
  | .psk passphrase | .pskSae passphrase | .sae passphrase => ([("Passphrase", passphrase)], [])
  | .enterprise members =>
      match Enterprise.Method.ofName (Enterprise.told members "eap") with
      | some method =>
          (Enterprise.keysCalled members method, Enterprise.embeddedCalled members method)
      | none => ([], [])

/-- The settings a kind of security calls for of its own. -/
def modes (security : Security φ) : List (String × String) :=
  match security with
  | .sae _ => [("TransitionDisable", "true"), ("DisabledTransitionModes", "personal")]
  | _ => []

/-- What a candidate's file is to carry. -/
def called (wireless : Wireless φ) : Called where
  settings := [("AutoConnect", "false"), ("Hidden", toString (wireless.hidden.getD false))] ++
    modes wireless.security
  security := (securityCalled wireless.security).1
  embedded := (securityCalled wireless.security).2

/-- The strings of the document a candidate's file gives as values. -/
def values (security : Security φ) : List String :=
  match security with
  | .psk passphrase | .pskSae passphrase | .sae passphrase => [passphrase]
  | .enterprise members =>
      match Enterprise.Method.ofName (Enterprise.told members "eap") with
      | some method => Enterprise.values members method
      | none => []

/-! ## What is written -/

/-- The line of a key and its value. -/
def entry (setting : String × String) : String :=
  setting.1 ++ "=" ++ escape setting.2

/-- The lines of the texts embedded, each after a blank one and its name. -/
def embeddedLines : List (String × String) → List String
  | [] => []
  | (name, text) :: rest => "" :: ("[" ++ name ++ "]") :: Text.pieces text ++ embeddedLines rest

/-- The text of the lines of what is embedded. -/
theorem unlines_embeddedLines_cons (name text : String) (rest : List (String × String)) :
    Text.unlines (embeddedLines ((name, text) :: rest)) =
      "\n[" ++ name ++ "]\n" ++ text ++ "\n" ++ Text.unlines (embeddedLines rest) := by
  rw [embeddedLines, Text.unlines_append, Text.unlines_cons,
    Text.unlines_cons, Text.unlines_pieces]
  apply String.toList_injective
  simp

/-- A text of letters, digits and marks that are not escaped is written as it is. -/
theorem escape_eq_self {value : String} (hplain : ∀ c ∈ value.toList,
    c ≠ ' ' ∧ c ≠ '\t' ∧ c ≠ '\n' ∧ c ≠ '\r' ∧ c ≠ '\\') : escape value = value := by
  have hchars : ∀ (leading : Bool) (chars : List Char), (∀ c ∈ chars,
      c ≠ ' ' ∧ c ≠ '\t' ∧ c ≠ '\n' ∧ c ≠ '\r' ∧ c ≠ '\\') →
      (escapeFrom leading chars).toList = chars := by
    intro leading chars hchars
    induction chars generalizing leading with
    | nil => rfl
    | cons c rest ih =>
        have hc := hchars c List.mem_cons_self
        have hrest := ih (stillLeading leading c) fun other hother =>
          hchars other (List.mem_cons_of_mem _ hother)
        rw [escapeFrom, String.toList_append, hrest]
        unfold escapeChar
        split <;> simp_all
  apply String.toList_injective
  exact hchars true value.toList hplain

namespace Enterprise

variable {members : Json.Map φ} {rank : Nat} {member why : String}

/-- A member that may be left out is read as its text. -/
theorem textOf_of_optional {value : Option String}
    (hread : optional members rank member = .ok value) : textOf members member = value := by
  unfold optional at hread
  unfold textOf
  split at hread
  · rename_i hnone
    rw [hnone]
    cases hread
    rfl
  · rename_i hnull
    rw [hnull]
    cases hread
    rfl
  · rename_i text htext
    rw [htext]
    split at hread
    · cases hread
    · cases hread
      rfl
  · cases hread

/-- A member that may not is read as its text. -/
theorem textOf_of_required {value : String}
    (hread : required members rank member why = .ok value) :
    textOf members member = some value := by
  obtain ⟨held, hheld, hvalue⟩ := bind_ok.mp hread
  rw [textOf_of_optional hheld]
  cases held with
  | none => cases hvalue
  | some text =>
      cases hvalue
      rfl

/-- A member that may not be left out is told. -/
theorem told_of_required {value : String}
    (hread : required members rank member why = .ok value) : told members member = value := by
  rw [told, textOf_of_required hread, Option.getD_some]

/-- A PEM member is read as the text that is embedded, which holds no line of a group. -/
theorem pemText_of_pem {value : String} (hread : pem members rank member why = .ok value) :
    value = pemText (told members member) ++ "\n" ∧
      isPem (pemText (told members member)) = true := by
  obtain ⟨text, htext, hvalue⟩ := bind_ok.mp hread
  rw [told_of_required htext, pemText]
  simp only at hvalue
  split at hvalue
  · rename_i hpem
    exact ⟨(pure_ok.mp hvalue).symm, hpem⟩
  · simp at hvalue

/-- The identity told to the access point is the one called for. -/
theorem outer_of_outerIdentity {method : Method} {identity value : String}
    (hidentity : told members "identity" = identity)
    (hread : outerIdentity members rank method identity = .ok value) :
    outer members method = value := by
  by_cases htls : method = .tls
  · subst htls
    cases hread
    exact hidentity
  · have hread : (do
        let anonymous ← optional members rank "anonymous-identity"
        pure (anonymous.getD identity)) = Except.ok value := by
      cases method with
      | tls => exact absurd rfl htls
      | _ => exact hread
    have houter : outer members method =
        (textOf members "anonymous-identity").getD (told members "identity") := by
      cases method with
      | tls => exact absurd rfl htls
      | _ => rfl
    obtain ⟨anonymous, hanonymous, hvalue⟩ := bind_ok.mp hread
    rw [houter, textOf_of_optional hanonymous, hidentity]
    exact pure_ok.mp hvalue

/-- An inner method is told as it is written. -/
theorem escape_inner {method : Method} {phase2 inner : String}
    (hinner : method.inner phase2 = some inner) : escape inner = inner := by
  unfold Method.inner at hinner
  split at hinner
  · repeat' split at hinner
    all_goals cases hinner <;> rfl
  · repeat' split at hinner
    all_goals cases hinner <;> rfl
  · cases hinner
  · cases hinner

/-- A server's name is told as it is written. -/
theorem escape_domain {domain : String} (hdomain : (domain.toList.all fun c =>
    c.isAlphanum || c == '.' || c == '-' || c == '*') = true) : escape domain = domain := by
  apply escape_eq_self
  intro c hc
  have hplain := List.all_eq_true.mp hdomain c hc
  refine ⟨?_, ?_, ?_, ?_, ?_⟩ <;> rintro rfl <;> exact absurd hplain (by decide)

/-- What is checked of the members a method uses: each text embedded is a PEM block, and a
server's name is of letters, digits and the marks of one. -/
structure Sound (members : Json.Map φ) (method : Method) : Prop where
  pem : ∀ held ∈ embeddedCalled members method, isPem held.2
  domain : method ≠ .pwd → ((told members "domain").toList.all fun c =>
    c.isAlphanum || c == '.' || c == '-' || c == '*') = true

/-- What a method authenticated by password alone has written. -/
theorem byPassword_eq_unlines {identity text : String}
    (hidentity : told members "identity" = identity)
    (hread : byPassword members rank identity = .ok text) :
    text = Text.unlines ("[Security]" :: (keysCalled members .pwd).map entry ++
      embeddedLines (embeddedCalled members .pwd)) := by
  obtain ⟨password, hpassword, htext⟩ := bind_ok.mp hread
  rw [← pure_ok.mp htext]
  have hmethod : escape "PWD" = "PWD" := rfl
  apply String.toList_injective
  simp [keysCalled, embeddedCalled, embeddedLines, entry, Text.unlines, hidentity,
    told_of_required hpassword, hmethod]

/-- What a method has written of its own. -/
theorem answers_eq_unlines {method : Method} (hmethod : method ≠ .pwd) {identity : String}
    {answered : String × String} (hidentity : told members "identity" = identity)
    (hread : answers members rank method identity = .ok answered) :
    answered.1 = Text.unlines ((methodKeys members method).map entry) ∧
      "\n[@pem@ca]\n" ++ pemText (told members "ca-certificate") ++ "\n" ++ answered.2 =
        Text.unlines (embeddedLines (embeddedCalled members method)) ∧
      (isPem (pemText (told members "ca-certificate")) →
        ∀ held ∈ embeddedCalled members method, isPem held.2) := by
  unfold answers at hread
  split at hread
  · obtain ⟨certificate, hcertificate, hread⟩ := bind_ok.mp hread
    obtain ⟨key, hkey, hread⟩ := bind_ok.mp hread
    obtain ⟨passphrase, hpassphrase, hread⟩ := bind_ok.mp hread
    have hcertificate := pemText_of_pem hcertificate
    have hkeyText := pemText_of_pem hkey
    rw [← pure_ok.mp hread, hcertificate.1, hkeyText.1]
    refine ⟨?_, ?_, ?_⟩
    · have hembedded : escape "embed:client-certificate" = "embed:client-certificate" := rfl
      have hkey : escape "embed:client-key" = "embed:client-key" := rfl
      apply String.toList_injective
      cases passphrase with
      | none => simp [methodKeys, entry, Text.unlines, textOf_of_optional hpassphrase, hembedded,
          hkey]
      | some passphrase => simp [methodKeys, entry, Text.unlines,
          textOf_of_optional hpassphrase, hembedded, hkey]
    · simp only [embeddedCalled, unlines_embeddedLines_cons]
      apply String.toList_injective
      simp [embeddedLines]
    · intro hca
      simp [embeddedCalled, hca, hcertificate.2, hkeyText.2]
  · rename_i htls
    obtain ⟨keys, hkeys, hread⟩ := bind_ok.mp hread
    obtain ⟨phase2, hphase2, hkeys⟩ := bind_ok.mp hkeys
    rw [← pure_ok.mp hread]
    split at hkeys
    · cases hkeys
    · rename_i inner hinner
      obtain ⟨password, hpassword, hkeys⟩ := bind_ok.mp hkeys
      rw [← pure_ok.mp hkeys]
      cases method with
      | tls => exact absurd rfl htls
      | pwd => exact absurd rfl hmethod
      | peap | ttls =>
          refine ⟨?_, ?_, ?_⟩
          · apply String.toList_injective
            simp [methodKeys, entry, Text.unlines, told_of_required hphase2, hinner, hidentity,
              told_of_required hpassword, escape_inner hinner]
          · simp only [embeddedCalled, unlines_embeddedLines_cons]
            apply String.toList_injective
            simp [embeddedLines]
          · intro hca
            simpa [embeddedCalled] using hca

/-- What a method authenticated by the server's certificate has written. -/
theorem byCertificate_eq_unlines {method : Method} (hmethod : method ≠ .pwd)
    {identity text : String} (hidentity : told members "identity" = identity)
    (hread : byCertificate members rank method identity = .ok text) :
    text = Text.unlines ("[Security]" :: (keysCalled members method).map entry ++
      embeddedLines (embeddedCalled members method)) ∧ Sound members method := by
  obtain ⟨ca, hca, hread⟩ := bind_ok.mp hread
  obtain ⟨domain, hdomain, hread⟩ := bind_ok.mp hread
  split at hread
  · rename_i hplain
    obtain ⟨outward, houtward, hread⟩ := bind_ok.mp hread
    obtain ⟨answered, hanswered, hread⟩ := bind_ok.mp hread
    obtain ⟨hkeys, hembedded, hpem⟩ := answers_eq_unlines hmethod hidentity hanswered
    have hsound : Sound members method := by
      refine ⟨hpem (pemText_of_pem hca).2, fun _ => ?_⟩
      rw [told_of_required hdomain]
      exact hplain
    refine ⟨?_, hsound⟩
    have hname : escape method.iwd = method.iwd := by cases method <;> rfl
    have hca' : escape "embed:ca" = "embed:ca" := rfl
    have hcalled : keysCalled members method =
        [("EAP-Method", method.iwd), ("EAP-Identity", outer members method),
          ("EAP-" ++ method.iwd ++ "-CACert", "embed:ca"),
          ("EAP-" ++ method.iwd ++ "-ServerDomainMask", told members "domain")] ++
          methodKeys members method := by
      cases method with
      | pwd => exact absurd rfl hmethod
      | peap | ttls | tls => rfl
    have hhead : Text.unlines ("[Security]" :: (keysCalled members method).map entry) =
        "[Security]\nEAP-Method=" ++ method.iwd ++ "\nEAP-Identity=" ++ escape outward ++
          "\nEAP-" ++ method.iwd ++ "-CACert=embed:ca\nEAP-" ++ method.iwd ++
          "-ServerDomainMask=" ++ domain ++ "\n" ++ answered.1 := by
      rw [hcalled, hkeys, List.map_append, ← List.cons_append, Text.unlines_append]
      apply String.toList_injective
      simp [entry, Text.unlines, hname, hca', outer_of_outerIdentity hidentity houtward,
        told_of_required hdomain, escape_domain hplain]
    rw [List.cons_append, ← List.cons_append, Text.unlines_append, hhead, ← hembedded,
      ← pure_ok.mp hread, (pemText_of_pem hca).1]
    apply String.toList_injective
    simp
  · cases hread

/-- What is written of an enterprise candidate's security. -/
theorem security_eq_unlines {text : String} (hread : security members rank = .ok text) :
    ∃ method, Method.ofName (told members "eap") = some method ∧ Sound members method ∧
      text = Text.unlines ("[Security]" :: (keysCalled members method).map entry ++
        embeddedLines (embeddedCalled members method)) := by
  obtain ⟨name, hname, hread⟩ := bind_ok.mp hread
  split at hread
  · cases hread
  · rename_i method hmethod
    split at hread
    · cases hread
    · obtain ⟨identity, hidentity, hread⟩ := bind_ok.mp hread
      have htold := told_of_required hidentity
      refine ⟨method, told_of_required hname ▸ hmethod, ?_⟩
      split at hread
      · exact ⟨⟨fun _ hheld => (nomatch hheld), fun hpwd => absurd rfl hpwd⟩,
          byPassword_eq_unlines htold hread⟩
      · rename_i hpwd
        obtain ⟨htext, hsound⟩ := byCertificate_eq_unlines hpwd htold hread
        exact ⟨hsound, htext⟩

end Enterprise

/-- What is written of a candidate's security. -/
theorem security_eq_unlines {wireless : Wireless φ} {rank : Nat} {text : String}
    (hread : security wireless rank = .ok text) :
    text = Text.unlines ("[Security]" :: (called wireless).security.map entry ++
      embeddedLines (called wireless).embedded) := by
  have hpsk : ∀ passphrase : String, psk passphrase rank = .ok text →
      text = Text.unlines ("[Security]" :: [("Passphrase", passphrase)].map entry ++
        embeddedLines []) := by
    intro passphrase hread
    unfold psk at hread
    split at hread
    · cases hread
      apply String.toList_injective
      simp [entry, Text.unlines, embeddedLines]
    · cases hread
  obtain ⟨ssid, security, hidden, interface, bands⟩ := wireless
  cases security with
  | psk passphrase | pskSae passphrase | sae passphrase =>
      rw [called, securityCalled]
      exact hpsk passphrase hread
  | enterprise members =>
      simp only [Iwd.security] at hread
      obtain ⟨method, hmethod, -, htext⟩ := Enterprise.security_eq_unlines hread
      rw [htext, called, securityCalled]
      simp only [hmethod]

/-- What is written of a candidate's settings. -/
theorem settings_eq_unlines (wireless : Wireless φ) :
    settings wireless = Text.unlines ("[Settings]" :: (called wireless).settings.map entry) := by
  have hfalse : escape "false" = "false" := rfl
  have htrue : escape "true" = "true" := rfl
  have hpersonal : escape "personal" = "personal" := rfl
  have hhidden : escape (toString (wireless.hidden.getD false)) =
      toString (wireless.hidden.getD false) := by
    cases wireless.hidden.getD false <;> rfl
  obtain ⟨ssid, security, hidden, interface, bands⟩ := wireless
  unfold settings called
  generalize toString (hidden.getD false) = flag at hhidden ⊢
  apply String.toList_injective
  cases security with
  | psk | pskSae | enterprise => simp [modes, entry, Text.unlines, hfalse, hhidden]
  | sae => simp [modes, entry, Text.unlines, hfalse, htrue, hpersonal, hhidden]

end Bliti.Network.Render.Iwd
