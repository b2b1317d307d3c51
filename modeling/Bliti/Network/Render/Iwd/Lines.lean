import Bliti.Network.Render.Iwd.Known

/-!
# Known networks - a file, line by line

A network's file is the lines of its header, its settings, its security and what
is embedded after it; and it is read as the groups it was written in, whatever
strings the document gives it.
-/

namespace Bliti.Network.Render.Iwd

open Channel.Config Fallible

variable {φ : Type}

/-! ## Lines -/

/-- Whether a key's name may start a line: it holds no equals sign and no line break, and
does not open a bracket. -/
def IsName (name : String) : Prop :=
  '=' ∉ name.toList ∧ Text.OneLine name ∧ name.toList.head? ≠ some '['

instance (name : String) : Decidable (IsName name) :=
  inferInstanceAs (Decidable (_ ∧ _ ∧ _))

/-- A line that does not open a bracket starts no group. -/
theorem groupName_eq_none {line : String} (hline : line.toList.head? ≠ some '[') :
    groupName (Text.trimEnd line) = none := by
  rw [groupName]
  cases hrest : Text.afterHead (Text.trimEnd line) "[" with
  | none => rfl
  | some rest =>
      have htrimmed := congrArg String.toList (Text.afterHead_eq_some_iff.mp hrest)
      have hprefix : '[' :: rest.toList <+: line.toList := by
        have hdropped := List.rdropWhile_prefix Text.isWhitespace (l := line.toList)
        rw [← Text.toList_trimEnd, htrimmed] at hdropped
        simpa using hdropped
      obtain ⟨tail, htail⟩ := hprefix
      rw [← htail] at hline
      exact absurd rfl hline

/-- A name in brackets starts a group of that name. -/
theorem groupName_bracketed (name : String) :
    groupName (Text.trimEnd ("[" ++ name ++ "]")) = some name := by
  have hwhole : Text.trimEnd ("[" ++ name ++ "]") = "[" ++ (name ++ "]") := by
    rw [String.append_assoc]
    apply Text.trimEnd_eq_self
    intro last hlast
    have hchars : ("[" ++ (name ++ "]")).toList = '[' :: name.toList ++ [']'] := by simp
    rw [hchars, List.getLast?_concat] at hlast
    cases hlast
    decide
  rw [groupName, hwhole, Text.afterHead_eq_some_iff.mpr rfl, Option.bind_some,
    Text.beforeTail_append]

/-- Lines that start no group belong to the one they stand in. -/
theorem grouped_append {lines : List String}
    (hplain : ∀ line ∈ lines, line.toList.head? ≠ some '[') (rest : List String) :
    grouped (lines ++ rest) =
      (lines.map Text.trimEnd ++ (grouped rest).1, (grouped rest).2) := by
  induction lines with
  | nil => rfl
  | cons line lines ih =>
      have hrest := ih fun other hother => hplain other (List.mem_cons_of_mem _ hother)
      rw [List.cons_append, grouped, groupName_eq_none (hplain line List.mem_cons_self), hrest]
      rfl

/-- A name in brackets starts a group with the lines after it. -/
theorem grouped_bracketed (name : String) (rest : List String) :
    grouped (("[" ++ name ++ "]") :: rest) = ([], ⟨name, (grouped rest).1⟩ :: (grouped rest).2) := by
  rw [grouped, groupName_bracketed]

/-- What is read of a value. -/
def readBack (value : String) : String :=
  unescape (Text.trimEnd (escape value))

/-- A key's line is read as its name and what is read of its value. -/
theorem key_trimEnd_entry {setting : String × String} (hname : IsName setting.1) :
    key (Text.trimEnd (entry setting)) = some (setting.1, readBack setting.2) := by
  have hsign : ∀ last ∈ (setting.1 ++ "=").toList.getLast?, ¬ Text.isWhitespace last := by
    intro last hlast
    obtain rfl : '=' = last := by simpa using hlast
    decide
  rw [entry, Text.trimEnd_append hsign, key_append hname.1, readBack]

/-- A key's line is one that starts no group. -/
theorem head_entry {setting : String × String} (hname : IsName setting.1) :
    (entry setting).toList.head? ≠ some '[' := by
  rw [entry, String.toList_append, String.toList_append]
  cases hhead : setting.1.toList with
  | nil => simp
  | cons c rest =>
      have hfirst := hname.2.2
      rw [hhead] at hfirst
      simpa using hfirst

/-- A key's line holds no line break. -/
theorem oneLine_entry {setting : String × String} (hname : IsName setting.1) :
    Text.OneLine (entry setting) := by
  have hvalue := oneLine_escape setting.2
  have hkey := hname.2.1
  simp only [Text.OneLine, entry, String.toList_append, List.mem_append, not_or] at hvalue hkey ⊢
  exact ⟨⟨⟨hkey.1, by decide⟩, hvalue.1⟩, ⟨hkey.2, by decide⟩, hvalue.2⟩

/-- The keys read of some lines are those written, with what is read of each value. -/
theorem filterMap_key_entries {settings : List (String × String)}
    (hnames : ∀ setting ∈ settings, IsName setting.1) :
    ((settings.map entry).map Text.trimEnd).filterMap key =
      settings.map fun setting => (setting.1, readBack setting.2) := by
  induction settings with
  | nil => rfl
  | cons setting settings ih =>
      have hrest := ih fun other hother => hnames other (List.mem_cons_of_mem _ hother)
      simp only [List.map_cons]
      rw [List.filterMap_cons_some (key_trimEnd_entry (hnames setting List.mem_cons_self)), hrest]

/-! ## A file, line by line -/

/-- The lines of a network's file. -/
def fileLines (origin : String) (called : Called) : List String :=
  ["# Written by bliti from " ++ origin ++
      ". bliti owns this file and overwrites any change to it.", ""] ++
    ("[Settings]" :: called.settings.map entry ++ [""] ++
      ("[Security]" :: called.security.map entry ++ embeddedLines called.embedded))

/-- The header is a line and a blank one. -/
theorem unlines_header (origin : String) : Text.unlines ["# Written by bliti from " ++ origin ++
    ". bliti owns this file and overwrites any change to it.", ""] = header origin ++ "\n" := by
  have hended : ". bliti owns this file and overwrites any change to it." ++ "\n" =
      ". bliti owns this file and overwrites any change to it.\n" := by decide
  have hheader : header origin = "# Written by bliti from " ++ origin ++
      (". bliti owns this file and overwrites any change to it." ++ "\n") :=
    (congrArg (fun last => "# Written by bliti from " ++ origin ++ last) hended).symm
  have hblank : Text.unlines [""] = "\n" := rfl
  rw [Text.unlines_cons, hblank, hheader]
  simp only [String.append_assoc]

/-- A network's file is written line by line. -/
theorem contents_networkFile {hardware : Hardware} {wireless : Wireless φ} {rank : Nat}
    {text : String} (htext : security wireless rank = .ok text) :
    (networkFile hardware wireless rank text).contents =
      Text.unlines (fileLines (candidatePath rank) (called wireless)) := by
  have hsettings : ∀ lines : List String,
      Text.unlines (lines ++ [""]) = Text.unlines lines ++ "\n" := by
    intro lines
    rw [Text.unlines_append]
    rfl
  rw [fileLines, Text.unlines_append, unlines_header, Text.unlines_append, hsettings, networkFile,
    settings_eq_unlines, ← security_eq_unlines htext]
  simp only [String.append_assoc]

/-- What is called for can be written line by line: each key's name starts a line and stands
once, no key's value but a string of the document ends in white space, and each text embedded
is of lines that open no bracket, under a name of its own. -/
structure Called.Writable (called : Called) : Prop where
  names : ∀ setting ∈ called.settings ++ called.security, IsName setting.1
  once : (called.settings.map Prod.fst).Nodup ∧ (called.security.map Prod.fst).Nodup
  plain : ∀ setting ∈ called.settings, Kept setting.2
  apart : ("Settings" :: "Security" :: called.embedded.map Prod.fst).Nodup
  titles : ∀ held ∈ called.embedded, Text.OneLine held.1
  texts : ∀ held ∈ called.embedded, ∀ piece ∈ Text.pieces held.2,
    Text.OneLine piece ∧ piece.toList.head? ≠ some '['

/-- What of the texts embedded stands in the group before them. -/
def lead (embedded : List (String × String)) : List String :=
  if embedded = [] then [] else [""]

/-- The groups of the texts embedded. -/
def embeddedGroups : List (String × String) → List Group
  | [] => []
  | (name, text) :: rest =>
      ⟨name, (Text.pieces text).map Text.trimEnd ++ lead rest⟩ :: embeddedGroups rest

/-- The groups read of the texts embedded. -/
theorem grouped_embeddedLines {embedded : List (String × String)}
    (htexts : ∀ held ∈ embedded, ∀ piece ∈ Text.pieces held.2, piece.toList.head? ≠ some '[') :
    grouped (embeddedLines embedded) = (lead embedded, embeddedGroups embedded) := by
  induction embedded with
  | nil => rfl
  | cons held rest ih =>
      obtain ⟨name, text⟩ := held
      have hrest := ih fun other hother => htexts other (List.mem_cons_of_mem _ hother)
      have hpieces := grouped_append (htexts (name, text) List.mem_cons_self)
        (embeddedLines rest)
      have hempty : ∀ line ∈ [""], line.toList.head? ≠ some '[' := by decide
      have hblank := grouped_append hempty
        (("[" ++ name ++ "]") :: (Text.pieces text ++ embeddedLines rest))
      rw [grouped_bracketed, hpieces, hrest] at hblank
      exact hblank

/-- A line keeps its first character where that is no white space. -/
theorem head_trimEnd {line : String} {c : Char} (hline : line.toList.head? = some c)
    (hc : ¬ Text.isWhitespace c) : (Text.trimEnd line).toList.head? = some c := by
  obtain ⟨rest, hrest⟩ : ∃ rest, line.toList = [c] ++ rest := by
    cases hchars : line.toList with
    | nil =>
        rw [hchars] at hline
        cases hline
    | cons first rest =>
        rw [hchars] at hline
        cases hline
        exact ⟨rest, rfl⟩
  have hlast : ∀ last ∈ [c].getLast?, ¬ Text.isWhitespace last := by
    intro last hmem
    cases hmem
    exact hc
  rw [Text.toList_trimEnd, hrest, Text.rdropWhile_append hlast]
  rfl

/-- The lines read of a network's file. -/
theorem grouped_fileLines {called : Called} (hwritable : called.Writable) (origin : String) :
    ∃ comment, comment.toList.head? = some '#' ∧
      grouped (fileLines origin called) = ([comment, ""],
        ⟨"Settings", (called.settings.map entry).map Text.trimEnd ++ [""]⟩ ::
        ⟨"Security", (called.security.map entry).map Text.trimEnd ++ lead called.embedded⟩ ::
        embeddedGroups called.embedded) := by
  have hhead : ("# Written by bliti from " ++ origin ++
      ". bliti owns this file and overwrites any change to it.").toList.head? = some '#' := by
    rw [String.toList_append, String.toList_append, List.append_assoc]
    rfl
  refine ⟨_, head_trimEnd hhead (by decide), ?_⟩
  have hentries : ∀ settings : List (String × String), (∀ setting ∈ settings, IsName setting.1) →
      ∀ line ∈ settings.map entry, line.toList.head? ≠ some '[' := by
    intro settings hnames line hline
    obtain ⟨setting, hsetting, rfl⟩ := List.mem_map.mp hline
    exact head_entry (hnames setting hsetting)
  have hembedded := grouped_embeddedLines fun held hheld piece hpiece =>
    (hwritable.texts held hheld piece hpiece).2
  have hsecurity := grouped_append (hentries called.security fun setting hsetting =>
    hwritable.names setting (List.mem_append_right _ hsetting)) (embeddedLines called.embedded)
  have hbody : ∀ line ∈ called.settings.map entry ++ [""], line.toList.head? ≠ some '[' := by
    intro line hline
    rcases List.mem_append.mp hline with hentry | hblank
    · exact hentries called.settings (fun setting hsetting =>
        hwritable.names setting (List.mem_append_left _ hsetting)) line hentry
    · rw [List.mem_singleton.mp hblank]
      decide
  have hsettings := grouped_append hbody
    (("[" ++ "Security" ++ "]") :: (called.security.map entry ++ embeddedLines called.embedded))
  rw [grouped_bracketed, hsecurity, hembedded] at hsettings
  have hopening : ∀ line ∈ ["# Written by bliti from " ++ origin ++
      ". bliti owns this file and overwrites any change to it.", ""],
      line.toList.head? ≠ some '[' := by
    intro line hline
    rcases List.mem_pair.mp hline with rfl | rfl
    · rw [hhead]
      decide
    · decide
  have hwhole := grouped_append hopening (("[" ++ "Settings" ++ "]") ::
    (called.settings.map entry ++ [""] ++
      (("[" ++ "Security" ++ "]") ::
        (called.security.map entry ++ embeddedLines called.embedded))))
  have hblank : Text.trimEnd "" = "" := rfl
  have hnames : "[" ++ "Settings" ++ "]" = "[Settings]" ∧ "[" ++ "Security" ++ "]" = "[Security]" :=
    ⟨rfl, rfl⟩
  rw [grouped_bracketed, hsettings, hnames.1, hnames.2] at hwhole
  simp only [List.map_append, List.map_cons, List.map_nil, hblank, List.append_nil] at hwhole
  rw [fileLines]
  exact hwhole

/-! ## What a candidate calls for can be written -/

namespace Enterprise

/-- A text embedded holds no carriage return. -/
theorem return_not_mem_pemText (value : String) : '\r' ∉ (pemText value).toList := by
  intro hreturn
  rw [pemText, Text.trim, String.toList_ofList, String.toList_ofList, List.mem_reverse] at hreturn
  have hback := (List.dropWhile_sublist _).subset hreturn
  rw [List.mem_reverse] at hback
  have hfront := (List.dropWhile_sublist _).subset hback
  simp at hfront

/-- A line of a text embedded holds no line break and opens no bracket. -/
theorem piece_of_isPem {value piece : String} (hpem : isPem (pemText value) = true)
    (hpiece : piece ∈ Text.pieces (pemText value)) :
    Text.OneLine piece ∧ piece.toList.head? ≠ some '[' := by
  have hline := Text.oneLine_of_mem_pieces (return_not_mem_pemText value) hpiece
  refine ⟨hline, fun hhead => ?_⟩
  obtain ⟨rest, hrest⟩ : ∃ rest, piece.toList = '[' :: rest := by
    cases hchars : piece.toList with
    | nil =>
        rw [hchars] at hhead
        cases hhead
    | cons first rest =>
        rw [hchars] at hhead
        cases hhead
        exact ⟨rest, rfl⟩
  have hblank : piece ≠ "" := by
    rintro rfl
    cases hrest
  have hmem := Text.mem_lines_of_mem_pieces hpiece hblank hline.2
  have hstarts : Text.startsWith (Text.trimStart piece) "[" = true := by
    rw [Text.startsWith, Text.trimStart, hrest, List.dropWhile_cons_of_neg (by decide)]
    simp
  rw [isPem, Bool.and_eq_true, Bool.not_eq_true', List.any_eq_false] at hpem
  exact hpem.2 piece hmem hstarts

/-- What a method has embedded is the text of a member. -/
theorem eq_pemText {members : Json.Map φ} {method : Method} {held : String × String}
    (hheld : held ∈ embeddedCalled members method) : ∃ value, held.2 = pemText value := by
  cases method with
  | pwd => cases hheld
  | peap | ttls =>
      simp only [embeddedCalled, List.mem_singleton] at hheld
      exact ⟨told members "ca-certificate", by rw [hheld]⟩
  | tls =>
      simp only [embeddedCalled, List.mem_cons, List.not_mem_nil, or_false] at hheld
      rcases hheld with hca | hcertificate | hkey
      · exact ⟨told members "ca-certificate", by rw [hca]⟩
      · exact ⟨told members "client-certificate", by rw [hcertificate]⟩
      · exact ⟨told members "client-key", by rw [hkey]⟩

/-- The names of a method's keys start lines, each once, and none is that of a passphrase. -/
theorem keysCalled_names (members : Json.Map φ) (method : Method) :
    (∀ name ∈ (keysCalled members method).map Prod.fst, IsName name) ∧
      ((keysCalled members method).map Prod.fst).Nodup ∧
      "Passphrase" ∉ (keysCalled members method).map Prod.fst := by
  cases method with
  | peap =>
      have hnames : (keysCalled members .peap).map Prod.fst = ["EAP-Method", "EAP-Identity",
          "EAP-PEAP-CACert", "EAP-PEAP-ServerDomainMask", "EAP-PEAP-Phase2-Method",
          "EAP-PEAP-Phase2-Identity", "EAP-PEAP-Phase2-Password"] := rfl
      rw [hnames]
      decide
  | ttls =>
      have hnames : (keysCalled members .ttls).map Prod.fst = ["EAP-Method", "EAP-Identity",
          "EAP-TTLS-CACert", "EAP-TTLS-ServerDomainMask", "EAP-TTLS-Phase2-Method",
          "EAP-TTLS-Phase2-Identity", "EAP-TTLS-Phase2-Password"] := rfl
      rw [hnames]
      decide
  | tls =>
      cases hpassphrase : textOf members "client-key-passphrase" with
      | none =>
          have hnames : (keysCalled members .tls).map Prod.fst = ["EAP-Method", "EAP-Identity",
              "EAP-TLS-CACert", "EAP-TLS-ServerDomainMask", "EAP-TLS-ClientCert",
              "EAP-TLS-ClientKey"] := by
            simp only [keysCalled, methodKeys, hpassphrase]
            rfl
          rw [hnames]
          decide
      | some passphrase =>
          have hnames : (keysCalled members .tls).map Prod.fst = ["EAP-Method", "EAP-Identity",
              "EAP-TLS-CACert", "EAP-TLS-ServerDomainMask", "EAP-TLS-ClientCert",
              "EAP-TLS-ClientKey", "EAP-TLS-ClientKeyPassphrase"] := by
            simp only [keysCalled, methodKeys, hpassphrase]
            rfl
          rw [hnames]
          decide
  | pwd =>
      have hnames : (keysCalled members .pwd).map Prod.fst =
          ["EAP-Method", "EAP-Identity", "EAP-Password"] := rfl
      rw [hnames]
      decide

/-- The texts a method has embedded are under names of their own. -/
theorem embeddedCalled_names (members : Json.Map φ) (method : Method) :
    (∀ held ∈ embeddedCalled members method, Text.OneLine held.1) ∧
      ("Settings" :: "Security" :: (embeddedCalled members method).map Prod.fst).Nodup := by
  cases method <;> simp [embeddedCalled] <;> decide

end Enterprise

/-- The settings of a candidate can be written. -/
theorem settings_called (wireless : Wireless φ) :
    (∀ setting ∈ (called wireless).settings, IsName setting.1 ∧ Kept setting.2) ∧
      ((called wireless).settings.map Prod.fst).Nodup := by
  obtain ⟨ssid, security, hidden, interface, bands⟩ := wireless
  simp only [called]
  cases hidden.getD false <;> cases security <;> simp only [modes] <;> decide

/-- What an accepted candidate calls for can be written. -/
theorem writable_called {wireless : Wireless φ} {rank : Nat} {text : String}
    (htext : security wireless rank = .ok text) : (called wireless).Writable := by
  obtain ⟨hsettings, honce⟩ := settings_called wireless
  have hsecurity : (∀ setting ∈ (called wireless).security, IsName setting.1) ∧
      ((called wireless).security.map Prod.fst).Nodup ∧
      (∀ held ∈ (called wireless).embedded, Text.OneLine held.1) ∧
      ("Settings" :: "Security" :: (called wireless).embedded.map Prod.fst).Nodup ∧
      ∀ held ∈ (called wireless).embedded, ∀ piece ∈ Text.pieces held.2,
        Text.OneLine piece ∧ piece.toList.head? ≠ some '[' := by
    obtain ⟨ssid, security, hidden, interface, bands⟩ := wireless
    cases security with
    | psk | pskSae | sae =>
        simp only [called, securityCalled]
        have hname : IsName "Passphrase" := by decide
        refine ⟨?_, List.nodup_singleton _, ?_, by decide, ?_⟩
        · intro setting hsetting
          rw [List.mem_singleton.mp hsetting]
          exact hname
        · intro held hheld
          cases hheld
        · intro held hheld
          cases hheld
    | enterprise members =>
        simp only [Iwd.security] at htext
        obtain ⟨method, hmethod, hsound, -⟩ := Enterprise.security_eq_unlines htext
        obtain ⟨hnames, hnamesOnce, -⟩ := Enterprise.keysCalled_names members method
        obtain ⟨htitles, hapart⟩ := Enterprise.embeddedCalled_names members method
        simp only [called, securityCalled, hmethod]
        refine ⟨fun setting hsetting => hnames _ (List.mem_map_of_mem hsetting), hnamesOnce,
          htitles, hapart, ?_⟩
        intro held hheld piece hpiece
        have hpem := hsound.pem held hheld
        obtain ⟨value, hvalue⟩ := Enterprise.eq_pemText hheld
        rw [hvalue] at hpem hpiece
        exact Enterprise.piece_of_isPem hpem hpiece
  obtain ⟨hnames, hnamesOnce, htitles, hapart, htexts⟩ := hsecurity
  exact {
    names := by
      intro setting hsetting
      rcases List.mem_append.mp hsetting with hone | hother
      · exact (hsettings setting hone).1
      · exact hnames setting hother
    once := ⟨honce, hnamesOnce⟩
    plain := fun setting hsetting => (hsettings setting hsetting).2
    apart := hapart
    titles := htitles
    texts := htexts }

/-! ## Reading the lines -/

theorem oneLine_append {one other : String} (hone : Text.OneLine one)
    (hother : Text.OneLine other) : Text.OneLine (one ++ other) := by
  simp only [Text.OneLine, String.toList_append, List.mem_append, not_or] at hone hother ⊢
  exact ⟨⟨hone.1, hother.1⟩, hone.2, hother.2⟩

/-- A number is written on one line. -/
theorem oneLine_toString (n : Nat) : Text.OneLine (toString n) := by
  have hdigit : ∀ c, c ∈ (toString n).toList → c.isDigit := by
    intro c hc
    rw [Nat.toString_eq_repr, Nat.repr, String.toList_ofList] at hc
    exact Nat.isDigit_of_mem_toDigits (by omega) (by omega) hc
  exact ⟨fun hfeed => absurd (hdigit _ hfeed) (by decide),
    fun hreturn => absurd (hdigit _ hreturn) (by decide)⟩

/-- The path of a candidate is written on one line. -/
theorem oneLine_candidatePath (rank : Nat) : Text.OneLine (candidatePath rank) := by
  have hpath : candidatePath rank = "$['attachments']" ++ ("[" ++ toString rank ++ "]") := rfl
  rw [hpath]
  exact oneLine_append (by decide)
    (oneLine_append (oneLine_append (by decide) (oneLine_toString rank)) (by decide))

/-- The lines of the texts embedded hold no line breaks. -/
theorem oneLine_embeddedLines {embedded : List (String × String)}
    (htitles : ∀ held ∈ embedded, Text.OneLine held.1)
    (htexts : ∀ held ∈ embedded, ∀ piece ∈ Text.pieces held.2, Text.OneLine piece) :
    ∀ line ∈ embeddedLines embedded, Text.OneLine line := by
  induction embedded with
  | nil =>
      intro line hline
      cases hline
  | cons held rest ih =>
      obtain ⟨name, text⟩ := held
      have hrest := ih (fun other hother => htitles other (List.mem_cons_of_mem _ hother))
        fun other hother => htexts other (List.mem_cons_of_mem _ hother)
      have hname : Text.OneLine ("[" ++ name ++ "]") := oneLine_append
        (oneLine_append (by decide) (htitles (name, text) List.mem_cons_self)) (by decide)
      intro line hline
      rw [embeddedLines] at hline
      rcases List.mem_append.mp hline with hfirst | hlater
      · rcases List.mem_cons.mp hfirst with rfl | hfirst
        · decide
        · rcases List.mem_cons.mp hfirst with rfl | hpiece
          · exact hname
          · exact htexts (name, text) List.mem_cons_self line hpiece
      · exact hrest line hlater

/-- The lines of a network's file hold no line breaks. -/
theorem oneLine_fileLines {called : Called} (hwritable : called.Writable) {origin : String}
    (horigin : Text.OneLine origin) : ∀ line ∈ fileLines origin called, Text.OneLine line := by
  have hentries : ∀ line ∈ (called.settings ++ called.security).map entry, Text.OneLine line := by
    intro line hline
    obtain ⟨setting, hsetting, rfl⟩ := List.mem_map.mp hline
    exact oneLine_entry (hwritable.names setting hsetting)
  have hembedded := oneLine_embeddedLines hwritable.titles fun held hheld piece hpiece =>
    (hwritable.texts held hheld piece hpiece).1
  have hheader : Text.OneLine ("# Written by bliti from " ++ origin ++
      ". bliti owns this file and overwrites any change to it.") :=
    oneLine_append (oneLine_append (by decide) horigin) (by decide)
  intro line hline
  simp only [fileLines, List.cons_append, List.nil_append, List.append_assoc, List.mem_cons,
    List.mem_append] at hline
  simp only [List.map_append, List.mem_append] at hentries
  rcases hline with rfl | rfl | rfl | hsetting | rfl | rfl | hsecurity | hheld
  · exact hheader
  · decide
  · decide
  · exact hentries line (.inl hsetting)
  · decide
  · decide
  · exact hentries line (.inr hsecurity)
  · exact hembedded line hheld

/-- The lines of a network's file are those written. -/
theorem lines_networkFile {hardware : Hardware} {wireless : Wireless φ} {rank : Nat}
    {text : String} (htext : security wireless rank = .ok text) :
    Text.lines (networkFile hardware wireless rank text).contents =
      fileLines (candidatePath rank) (called wireless) := by
  rw [contents_networkFile htext, Text.lines_unlines]
  exact oneLine_fileLines (writable_called htext) (oneLine_candidatePath rank)

end Bliti.Network.Render.Iwd
