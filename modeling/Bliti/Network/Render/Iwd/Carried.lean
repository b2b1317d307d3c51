import Mathlib
import Bliti.Network.Render.Iwd.Lines

/-!
# Known networks - what a file carries

A network's file, read back the way its passphrase is, gives the settings and the
security its candidate calls for, each once and with the document's own strings,
and nothing else; but for a value that ends in white space, which is dropped as
the file is read and was not escaped as it was written.

Main results:

- Theorem `networks_carry_iff`: the file of a candidate carries what it calls for exactly
  where no value of it ends in white space left bare.
-/

namespace Bliti.Network.Render.Iwd

open Channel.Config Fallible

variable {φ : Type}

/-! ## What a file carries -/

/-- The passphrase a candidate is joined by, where it is joined by one. -/
def passphraseOf (security : Security φ) : Option String :=
  match security with
  | .psk passphrase | .pskSae passphrase | .sae passphrase => some passphrase
  | .enterprise _ => none

/-- Lines less the blank ones. -/
def written (lines : List String) : List String :=
  lines.filter fun line => line ≠ ""

/-- A network's file read back says what its candidate calls for, and nothing else: only
comments stand before its groups, its groups are the settings, the security and the texts
embedded, a line of the first two is blank or a key, each key stands once with the document's
own string, and each text embedded is the document's, line by line. -/
structure Carries (wireless : Wireless φ) (contents : String) : Prop where
  comments : ∀ line ∈ preamble contents, line = "" ∨ line.toList.head? = some '#'
  groups : (groups contents).map Group.name =
    "Settings" :: "Security" :: (called wireless).embedded.map Prod.fst
  settings : keys "Settings" contents = (called wireless).settings
  security : keys "Security" contents = (called wireless).security
  once : ((Iwd.groups contents).map Group.name).Nodup ∧
    ((keys "Settings" contents).map Prod.fst).Nodup ∧
    ((keys "Security" contents).map Prod.fst).Nodup
  nothingElse : ∀ group ∈ Iwd.groups contents, group.name = "Settings" ∨ group.name = "Security" →
    ∀ line ∈ written group.body, (key line).isSome
  embedded : ∀ held ∈ (called wireless).embedded, ∃ group ∈ Iwd.groups contents,
    group.name = held.1 ∧
      written group.body = written ((Text.pieces held.2).map Text.trimEnd)
  passphrase : Iwd.passphrase contents = passphraseOf wireless.security

/-! ## Values that are kept -/

namespace Enterprise

/-- A letter or a digit is no white space. -/
theorem not_isWhitespace_of_isAlphanum {c : Char} (hc : c.isAlphanum) :
    ¬ Text.isWhitespace c := by
  simp only [Char.isAlphanum, Char.isAlpha, Char.isUpper, Char.isLower, Char.isDigit,
    Bool.or_eq_true, Bool.and_eq_true, decide_eq_true_eq, ge_iff_le, UInt32.le_iff_toNat_le] at hc
  simp only [Text.isWhitespace, decide_eq_true_eq, Char.toNat]
  have hletters : 'A'.val.toNat = 65 ∧ 'Z'.val.toNat = 90 ∧ 'a'.val.toNat = 97 ∧
      'z'.val.toNat = 122 := by decide
  have hdigits : '0'.val.toNat = 48 ∧ '9'.val.toNat = 57 := by decide
  omega

/-- The name of an inner method is kept. -/
theorem kept_inner (method : Method) (phase2 : String) :
    Kept ((method.inner phase2).getD "") := by
  unfold Method.inner
  split
  · repeat' split
    all_goals decide
  · repeat' split
    all_goals decide
  · decide
  · decide

/-- The values a method's keys carry are kept where the document's strings among them are. -/
theorem kept_keysCalled_iff {members : Json.Map φ} {method : Method}
    (hsound : Sound members method) :
    (∀ setting ∈ keysCalled members method, Kept setting.2) ↔
      ∀ value ∈ Enterprise.values members method, Kept value := by
  have hname : Kept method.iwd := by cases method <;> decide
  have hca : Kept "embed:ca" := by decide
  have hcertificate : Kept "embed:client-certificate" := by decide
  have hkey : Kept "embed:client-key" := by decide
  have hdomain : method ≠ .pwd → Kept (told members "domain") := by
    intro hmethod last hlast hwhite
    have hplain := List.all_eq_true.mp (hsound.domain hmethod) last (List.mem_of_getLast? hlast)
    simp only [Bool.or_eq_true, beq_iff_eq] at hplain
    rcases hplain with ((hletter | rfl) | rfl) | rfl
    · exact absurd hwhite (not_isWhitespace_of_isAlphanum hletter)
    · exact absurd hwhite (by decide)
    · exact absurd hwhite (by decide)
    · exact absurd hwhite (by decide)
  have hinner := kept_inner method (told members "phase2")
  cases method with
  | pwd => simp [keysCalled, Enterprise.values, show Kept "PWD" from hname]
  | tls =>
      have hdomain := hdomain (by decide)
      cases hpassphrase : textOf members "client-key-passphrase" <;>
        simp [keysCalled, methodKeys, Enterprise.values, outer, hname, hca, hcertificate, hkey,
          hdomain, hpassphrase]
  | peap | ttls =>
      have hdomain := hdomain (by decide)
      simp [keysCalled, methodKeys, Enterprise.values, hname, hca, hdomain, hinner]

end Enterprise

/-- The values a candidate's security carries are kept where the document's strings among them
are. -/
theorem kept_security_iff {wireless : Wireless φ} {rank : Nat} {text : String}
    (htext : security wireless rank = .ok text) :
    (∀ setting ∈ (called wireless).security, Kept setting.2) ↔
      ∀ value ∈ values wireless.security, Kept value := by
  obtain ⟨ssid, security, hidden, interface, bands⟩ := wireless
  cases security with
  | psk | pskSae | sae => simp [called, securityCalled, values]
  | enterprise members =>
      simp only [Iwd.security] at htext
      obtain ⟨method, hmethod, hsound, -⟩ := Enterprise.security_eq_unlines htext
      simp only [called, securityCalled, values, hmethod]
      exact Enterprise.kept_keysCalled_iff hsound

/-! ## A file read back -/

/-- Keys are read as they were written where each value is kept, and only there. -/
theorem map_readBack_eq_self_iff {settings : List (String × String)} :
    settings.map (fun setting => (setting.1, readBack setting.2)) = settings ↔
      ∀ setting ∈ settings, Kept setting.2 := by
  induction settings with
  | nil => simp
  | cons setting settings ih =>
      rw [List.map_cons, List.cons.injEq, ih, List.forall_mem_cons, Prod.ext_iff, readBack,
        unescape_trimEnd_escape_iff]
      simp

theorem keysOf_eq_nil {name : String} {groups : List Group}
    (hother : ∀ group ∈ groups, group.name ≠ name) : keysOf name groups = [] := by
  rw [keysOf, List.filter_eq_nil_iff.mpr fun group hgroup => by simpa using hother group hgroup]
  rfl

/-- The groups of the texts embedded are named for them. -/
theorem map_name_embeddedGroups (embedded : List (String × String)) :
    (embeddedGroups embedded).map Group.name = embedded.map Prod.fst := by
  induction embedded with
  | nil => rfl
  | cons held rest ih => rw [embeddedGroups, List.map_cons, List.map_cons, ih]

/-- A line that is blank is left out. -/
theorem written_append_lead (lines : List String) (embedded : List (String × String)) :
    written (lines ++ lead embedded) = written lines := by
  unfold written lead
  split <;> simp

/-- Each text embedded has its group. -/
theorem exists_embeddedGroup {embedded : List (String × String)} {held : String × String}
    (hheld : held ∈ embedded) : ∃ group ∈ embeddedGroups embedded, group.name = held.1 ∧
      written group.body = written ((Text.pieces held.2).map Text.trimEnd) := by
  induction embedded with
  | nil => cases hheld
  | cons first rest ih =>
      rcases List.mem_cons.mp hheld with rfl | hlater
      · exact ⟨_, List.mem_cons_self, rfl, written_append_lead _ _⟩
      · obtain ⟨group, hgroup, hsays⟩ := ih hlater
        exact ⟨group, List.mem_cons_of_mem _ hgroup, hsays⟩

section

variable {wireless : Wireless φ} {rank : Nat} {text : String} {hardware : Hardware}

/-- The groups of a network's file. -/
theorem groups_networkFile (htext : security wireless rank = .ok text) :
    groups (networkFile hardware wireless rank text).contents =
      ⟨"Settings", ((called wireless).settings.map entry).map Text.trimEnd ++ [""]⟩ ::
      ⟨"Security", ((called wireless).security.map entry).map Text.trimEnd ++
        lead (called wireless).embedded⟩ ::
      embeddedGroups (called wireless).embedded := by
  obtain ⟨comment, -, hgrouped⟩ :=
    grouped_fileLines (writable_called htext) (candidatePath rank)
  rw [groups, lines_networkFile htext, hgrouped]

/-- The names of the groups of a network's file. -/
theorem map_name_groups (htext : security wireless rank = .ok text) :
    (groups (networkFile hardware wireless rank text).contents).map Group.name =
      "Settings" :: "Security" :: (called wireless).embedded.map Prod.fst := by
  rw [groups_networkFile htext, List.map_cons, List.map_cons, map_name_embeddedGroups]

/-- No text embedded is under the name of the settings or the security. -/
theorem name_ne_of_mem_embeddedGroups (htext : security wireless rank = .ok text) {group : Group}
    (hgroup : group ∈ embeddedGroups (called wireless).embedded) :
    group.name ≠ "Settings" ∧ group.name ≠ "Security" := by
  have hname : group.name ∈ (called wireless).embedded.map Prod.fst := by
    rw [← map_name_embeddedGroups]
    exact List.mem_map_of_mem hgroup
  have hapart := (writable_called htext).apart
  simp only [List.nodup_cons, List.mem_cons, not_or] at hapart
  constructor
  · intro hsame
    exact hapart.1.2 (hsame ▸ hname)
  · intro hsame
    exact hapart.2.1 (hsame ▸ hname)

/-- The settings read of a network's file. -/
theorem keys_settings (htext : security wireless rank = .ok text) :
    keys "Settings" (networkFile hardware wireless rank text).contents =
      (called wireless).settings := by
  have hwritable := writable_called htext
  have hnames : ∀ setting ∈ (called wireless).settings, IsName setting.1 :=
    fun setting hsetting => hwritable.names setting (List.mem_append_left _ hsetting)
  have hother : "Security" ≠ "Settings" := by decide
  have hblank : [""].filterMap key = [] := rfl
  rw [keys, groups_networkFile htext, keysOf_cons, keysOf_cons, if_pos rfl, if_neg hother,
    keysOf_eq_nil fun group hgroup => (name_ne_of_mem_embeddedGroups htext hgroup).1,
    List.filterMap_append, filterMap_key_entries hnames, hblank,
    map_readBack_eq_self_iff.mpr hwritable.plain]
  simp

/-- The security read of a network's file, each value as it is read back. -/
theorem keys_security (htext : security wireless rank = .ok text) :
    keys "Security" (networkFile hardware wireless rank text).contents =
      (called wireless).security.map fun setting => (setting.1, readBack setting.2) := by
  have hnames : ∀ setting ∈ (called wireless).security, IsName setting.1 :=
    fun setting hsetting => (writable_called htext).names setting (List.mem_append_right _ hsetting)
  have hother : "Settings" ≠ "Security" := by decide
  have hblank : (lead (called wireless).embedded).filterMap key = [] := by
    unfold lead
    split <;> rfl
  rw [keys, groups_networkFile htext, keysOf_cons, keysOf_cons, if_neg hother, if_pos rfl,
    keysOf_eq_nil fun group hgroup => (name_ne_of_mem_embeddedGroups htext hgroup).2,
    List.filterMap_append, filterMap_key_entries hnames, hblank]
  simp

/-- A line of the settings or the security that is not blank is a key. -/
theorem isSome_key_of_mem_written (htext : security wireless rank = .ok text) {group : Group}
    (hgroup : group ∈ groups (networkFile hardware wireless rank text).contents)
    (hname : group.name = "Settings" ∨ group.name = "Security") {line : String}
    (hline : line ∈ written group.body) : (key line).isSome := by
  have hentry : ∀ {settings : List (String × String)} {blank : List String},
      (∀ setting ∈ settings, IsName setting.1) → (∀ line ∈ blank, line = "") →
      line ∈ written ((settings.map entry).map Text.trimEnd ++ blank) → (key line).isSome := by
    intro settings blank hnames hblank hline
    obtain ⟨hmem, hne⟩ := List.mem_filter.mp hline
    rcases List.mem_append.mp hmem with hread | hempty
    · obtain ⟨whole, hwhole, rfl⟩ := List.mem_map.mp hread
      obtain ⟨setting, hsetting, rfl⟩ := List.mem_map.mp hwhole
      rw [key_trimEnd_entry (hnames setting hsetting)]
      rfl
    · exact absurd (hblank line hempty) (by simpa using hne)
  have hnames := (writable_called htext).names
  rw [groups_networkFile htext] at hgroup
  rcases List.mem_cons.mp hgroup with rfl | hgroup
  · exact hentry (fun setting hsetting => hnames setting (List.mem_append_left _ hsetting))
      (fun line hline => List.mem_singleton.mp hline) hline
  · rcases List.mem_cons.mp hgroup with rfl | hgroup
    · refine hentry (fun setting hsetting => hnames setting (List.mem_append_right _ hsetting))
        (fun line hline => ?_) hline
      unfold lead at hline
      split at hline
      · cases hline
      · exact List.mem_singleton.mp hline
    · obtain ⟨hsettings, hsecurity⟩ := name_ne_of_mem_embeddedGroups htext hgroup
      exact absurd hname (by simp [hsettings, hsecurity])

/-- The passphrase among the keys a candidate's security calls for. -/
theorem lookup_passphrase (security : Security φ) :
    (securityCalled security).1.lookup "Passphrase" = passphraseOf security := by
  cases security with
  | psk | pskSae | sae => simp [securityCalled, passphraseOf]
  | enterprise members =>
      simp only [securityCalled, passphraseOf]
      split
      · rename_i method hmethod
        rw [List.lookup_eq_none_iff]
        intro setting hsetting
        have hnone := (Enterprise.keysCalled_names members method).2.2
        rw [bne_iff_ne]
        intro hsame
        exact hnone (hsame ▸ List.mem_map_of_mem hsetting)
      · rfl

/-- A network's file carries what its candidate calls for where each value of its security is
kept, and only there. -/
theorem carries_networkFile_iff (htext : security wireless rank = .ok text) :
    Carries wireless (networkFile hardware wireless rank text).contents ↔
      ∀ setting ∈ (called wireless).security, Kept setting.2 := by
  have hsecurity : keys "Security" (networkFile hardware wireless rank text).contents = _ :=
    keys_security htext
  have hwritable := writable_called htext
  constructor
  · intro hcarries
    exact map_readBack_eq_self_iff.mp (hsecurity.symm.trans hcarries.security)
  · intro hkept
    rw [map_readBack_eq_self_iff.mpr hkept] at hsecurity
    exact {
      comments := by
        obtain ⟨comment, hcomment, hgrouped⟩ :=
          grouped_fileLines hwritable (candidatePath rank)
        rw [preamble, lines_networkFile htext, hgrouped]
        intro line hline
        rcases List.mem_pair.mp hline with rfl | rfl
        · exact .inr hcomment
        · exact .inl rfl
      groups := map_name_groups htext
      settings := keys_settings htext
      security := hsecurity
      once := by
        rw [map_name_groups htext, keys_settings htext, hsecurity]
        exact ⟨hwritable.apart, hwritable.once⟩
      nothingElse := fun group hgroup hname line hline =>
        isSome_key_of_mem_written htext hgroup hname hline
      embedded := by
        intro held hheld
        obtain ⟨group, hgroup, hsays⟩ := exists_embeddedGroup hheld
        rw [groups_networkFile htext]
        exact ⟨group, List.mem_cons_of_mem _ (List.mem_cons_of_mem _ hgroup), hsays⟩
      passphrase := by
        rw [passphrase_eq_lookup, hsecurity]
        exact lookup_passphrase wireless.security }

end

/-! ## The files of a document -/

/-- What is said of one candidate is said of another that calls for the same. -/
theorem Carries.of_called {first wireless : Wireless φ} {contents : String}
    (hcarries : Carries first contents) (hcalled : called first = called wireless) :
    Carries wireless contents where
  comments := hcarries.comments
  groups := hcalled ▸ hcarries.groups
  settings := hcalled ▸ hcarries.settings
  security := hcalled ▸ hcarries.security
  once := hcarries.once
  nothingElse := hcarries.nothingElse
  embedded := hcalled ▸ hcarries.embedded
  passphrase := by
    rw [hcarries.passphrase, ← lookup_passphrase, ← lookup_passphrase]
    exact congrArg (fun called => called.security.lookup "Passphrase") hcalled

/-- Every wireless candidate that is accepted and turned on has one file, and it carries what the
candidate calls for exactly where none of the document's strings it gives as values ends in white
space that is written bare. -/
theorem networks_carry_iff [BEq φ] {document : Document φ} {hardware : Hardware}
    {files : List File} (hfiles : networks document hardware = .ok files)
    {attachment : Attachment φ} {rank : Nat} {wireless : Wireless φ}
    (hcandidate : (attachment, rank) ∈ document.attachments.zipIdx)
    (henabled : attachment.enabled) (hkind : attachment.kind = .wireless wireless) :
    ∃ file ∈ files, file.path = networkPath hardware wireless ∧
      (∀ other ∈ files, other.path = networkPath hardware wireless → other = file) ∧
      (Carries wireless file.contents ↔ ∀ value ∈ values wireless.security, Kept value) := by
  obtain ⟨networks, hknows, rfl⟩ := knows_of_networks hfiles
  obtain ⟨-, network, hnetwork, hpath, hshares⟩ :=
    hknows.held attachment rank wireless hcandidate henabled hkind
  obtain ⟨text, htext, hfile⟩ := hknows.written network hnetwork
  obtain ⟨hcalled, hvalues⟩ := called_of_shares hshares
  refine ⟨network.file, List.mem_map_of_mem hnetwork, hpath, ?_, ?_⟩
  · intro other hother hsame
    obtain ⟨known, hknown, rfl⟩ := List.mem_map.mp hother
    rw [List.inj_on_of_nodup_map hknows.apart hknown hnetwork (hsame.trans hpath.symm)]
  · have hsame : Carries wireless network.file.contents ↔
        Carries network.wireless network.file.contents :=
      ⟨fun hcarries => hcarries.of_called hcalled.symm, fun hcarries => hcarries.of_called hcalled⟩
    rw [hsame, ← hvalues, ← kept_security_iff htext, hfile]
    exact carries_networkFile_iff htext

/-- A radio to join networks on. -/
def oneRadio : Hardware where
  wired := []
  radios := [{ station := "wlan0", accessPoint := none }]
  paths := .system

/-- A candidate for a network joined by some passphrase. -/
def joinedBy (passphrase : String) : Wireless Nat where
  ssid := "Clinic"
  security := .psk passphrase
  hidden := none
  interface := none
  bands := []

/-- A document of one network joined by some passphrase. -/
def joining (passphrase : String) : Document Nat where
  attachments := [{
    label := "clinic"
    enabled := true
    verify := true
    nameservers := []
    kind := .wireless (joinedBy passphrase) }]
  hotspot := none
  regulatoryDomain := none

/-- A passphrase of leading blanks, a backslash and a bracket is carried. -/
theorem networks_carry_blanks : ∃ files, networks (joining "  a b\\c[d]") oneRadio = .ok files ∧
    ∃ file ∈ files, Carries (joinedBy "  a b\\c[d]") file.contents := by
  obtain ⟨files, hfiles⟩ : ∃ files, networks (joining "  a b\\c[d]") oneRadio = .ok files :=
    ⟨_, rfl⟩
  obtain ⟨file, hfile, -, -, hcarries⟩ :=
    networks_carry_iff hfiles List.mem_cons_self rfl rfl
  exact ⟨files, hfiles, file, hfile, hcarries.mpr (by decide)⟩

/-- A passphrase that ends in a blank is not: it is read back without it. -/
theorem not_networks_carry : ∃ file, networks (joining "trailing ") oneRadio = .ok [file] ∧
    ¬ Carries (joinedBy "trailing ") file.contents ∧
    passphrase file.contents = some "trailing" := by
  have htext : security (joinedBy "trailing ") 0 =
      .ok "[Security]\nPassphrase=trailing \n" := rfl
  refine ⟨networkFile oneRadio (joinedBy "trailing ") 0 "[Security]\nPassphrase=trailing \n", rfl,
    ?_, ?_⟩
  · rw [carries_networkFile_iff htext]
    intro hkept
    exact absurd (hkept ("Passphrase", "trailing ") List.mem_cons_self) (by decide)
  · have hread : readBack "trailing " = "trailing" := by decide +kernel
    have hcalled : (called (joinedBy "trailing ")).security = [("Passphrase", "trailing ")] := rfl
    rw [passphrase_eq_lookup, keys_security htext, hcalled, List.map_cons, List.map_nil,
      List.lookup_cons_self, hread]

end Bliti.Network.Render.Iwd
