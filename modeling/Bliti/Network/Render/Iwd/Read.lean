import Bliti.Text.Lines
import Bliti.Network.Render.Iwd

/-!
# Known networks - reading a file back

How a network file is read: line by line, the white space at the end of each
dropped, a name in brackets starting a group, and a value unescaped.  A value is
read back as it was written unless it ends in white space that the writer left
bare.
-/

namespace Bliti.Network.Render.Iwd

/-! ## Reading -/

/-- What a character after a backslash stands for. -/
def unescapeChar (c : Char) : Char :=
  match c with
  | 's' => ' '
  | 't' => '\t'
  | 'n' => '\n'
  | 'r' => '\r'
  | other => other

/-- The characters some escaped ones stand for. -/
def unescapeFrom : List Char → List Char
  | [] => []
  | c :: rest =>
      if c ≠ '\\' then c :: unescapeFrom rest
      else
        match rest with
        | escaped :: rest => unescapeChar escaped :: unescapeFrom rest
        | [] => ['\\']

/-- The inverse of `escape`. -/
def unescape (value : String) : String :=
  String.ofList (unescapeFrom value.toList)

/-- The group a line starts: what stands between its brackets. -/
def groupName (line : String) : Option String :=
  (Text.afterHead line "[").bind fun rest => Text.beforeTail rest "]"

/-- The passphrase in the lines of a file from within a section. -/
def passphraseFrom (group : String) : List String → Option String
  | [] => none
  | line :: rest =>
      match groupName (Text.trimEnd line) with
      | some name => passphraseFrom name rest
      | none =>
          if group = "Security" then
            match Text.afterHead (Text.trimEnd line) "Passphrase=" with
            | some value => some (unescape value)
            | none => passphraseFrom group rest
          else passphraseFrom group rest

/-- The passphrase in a pre-shared-key network file, as ell reads it back. -/
def passphrase (contents : String) : Option String :=
  passphraseFrom "" (Text.lines contents)

/-! ## All a file says -/

/-- A group of a file, with the lines that follow its name. -/
structure Group where
  name : String
  body : List String
deriving DecidableEq, Repr

/-- The lines before any group, and the groups after them. -/
def grouped : List String → List String × List Group
  | [] => ([], [])
  | line :: rest =>
      match groupName (Text.trimEnd line) with
      | some name => ([], ⟨name, (grouped rest).1⟩ :: (grouped rest).2)
      | none => (Text.trimEnd line :: (grouped rest).1, (grouped rest).2)

/-- The lines of a file before any group. -/
def preamble (contents : String) : List String :=
  (grouped (Text.lines contents)).1

/-- The groups of a file. -/
def groups (contents : String) : List Group :=
  (grouped (Text.lines contents)).2

/-- The key and the value of a line, the value unescaped. -/
def key (line : String) : Option (String × String) :=
  match line.toList.dropWhile (· ≠ '=') with
  | [] => none
  | _ :: value => some (String.ofList (line.toList.takeWhile (· ≠ '=')),
      unescape (String.ofList value))

/-- The keys of the groups of one name. -/
def keysOf (name : String) (groups : List Group) : List (String × String) :=
  (groups.filter fun group => group.name = name).flatMap fun group => group.body.filterMap key

/-- The keys a file has in the groups of one name. -/
def keys (name contents : String) : List (String × String) :=
  keysOf name (groups contents)

/-! ## Keys of a line -/

/-- A line of a key and what follows the equals sign. -/
theorem key_append {name : String} (hname : '=' ∉ name.toList) (value : String) :
    key (name ++ "=" ++ value) = some (name, unescape value) := by
  have hparted : (name ++ "=" ++ value).toList = name.toList ++ '=' :: value.toList := by simp
  have hnot : ∀ c ∈ name.toList, decide (c ≠ '=') = true := by
    intro c hc
    exact decide_eq_true fun hsame => hname (hsame ▸ hc)
  rw [key, hparted, List.dropWhile_append_of_pos hnot, List.takeWhile_append_of_pos hnot]
  simp

/-- A line starts with a key's name and an equals sign where that is its key. -/
theorem afterHead_of_key {line name value : String} (hkey : key line = some (name, value)) :
    ∃ text, Text.afterHead line (name ++ "=") = some text := by
  rw [key] at hkey
  cases hparted : line.toList.dropWhile (· ≠ '=') with
  | nil =>
      rw [hparted] at hkey
      cases hkey
  | cons c text =>
      rw [hparted] at hkey
      cases hkey
      have hsign : c = '=' := by
        have hhead := List.head?_dropWhile_not (p := (· ≠ '=')) line.toList
        rw [hparted] at hhead
        simpa using hhead
      have hwhole := List.takeWhile_append_dropWhile (p := (· ≠ '=')) (l := line.toList)
      rw [hparted, hsign] at hwhole
      refine ⟨String.ofList text, Text.afterHead_eq_some_iff.mpr ?_⟩
      apply String.toList_injective
      simpa using hwhole.symm

/-- A line carries the passphrase where that is its key. -/
theorem key_of_afterHead {line text : String}
    (hline : Text.afterHead line "Passphrase=" = some text) :
    key line = some ("Passphrase", unescape text) := by
  have hname : '=' ∉ "Passphrase".toList := by decide
  rw [Text.afterHead_eq_some_iff.mp hline]
  exact key_append hname text

theorem keysOf_cons (name : String) (group : Group) (groups : List Group) :
    keysOf name (group :: groups) =
      (if group.name = name then group.body.filterMap key else []) ++ keysOf name groups := by
  by_cases hname : group.name = name <;> simp [keysOf, hname]

/-- The passphrase read from within a group is a key of it or of one after it. -/
theorem passphraseFrom_eq_lookup (group : String) (lines : List String) :
    passphraseFrom group lines = ((if group = "Security" then (grouped lines).1.filterMap key
      else []) ++ keysOf "Security" (grouped lines).2).lookup "Passphrase" := by
  induction lines generalizing group with
  | nil => by_cases hgroup : group = "Security" <;> simp [passphraseFrom, grouped, keysOf]
  | cons line rest ih =>
      rw [passphraseFrom, grouped]
      cases hname : groupName (Text.trimEnd line) with
      | some name =>
          simp only [ih, keysOf_cons]
          by_cases hgroup : group = "Security" <;> simp
      | none =>
          by_cases hgroup : group = "Security"
          · simp only [if_pos hgroup]
            cases hvalue : Text.afterHead (Text.trimEnd line) "Passphrase=" with
            | some value => simp [key_of_afterHead hvalue]
            | none =>
                rw [ih, if_pos hgroup]
                cases hkey : key (Text.trimEnd line) with
                | none => simp [hkey]
                | some read =>
                    obtain ⟨other, value⟩ := read
                    have hother : "Passphrase" ≠ other := by
                      rintro rfl
                      obtain ⟨text, htext⟩ := afterHead_of_key hkey
                      exact absurd (htext.symm.trans hvalue) (by simp)
                    simp [hkey, List.lookup_cons, beq_false_of_ne hother]
          · simp only [if_neg hgroup, ih]

/-- The passphrase of a file is the first of its keys of that name in a security group. -/
theorem passphrase_eq_lookup (contents : String) :
    passphrase contents = (keys "Security" contents).lookup "Passphrase" := by
  rw [passphrase, passphraseFrom_eq_lookup, keys, groups, if_neg (by decide)]
  rfl

/-! ## Values read back -/

/-- A character that is a blank as the writer sees it: a space or a tab. -/
def isBlank (c : Char) : Bool :=
  c == ' ' || c == '\t'

/-- A value is not empty at its end: its last character is no white space that the writer
leaves bare, which it does with all but line breaks and the blanks of a value of blanks. -/
def Kept (value : String) : Prop :=
  ∀ last ∈ value.toList.getLast?, Text.isWhitespace last →
    last = '\n' ∨ last = '\r' ∨ value.toList.all isBlank

instance (value : String) : Decidable (Kept value) :=
  decidable_of_iff (value.toList.getLast?.all fun last => decide (Text.isWhitespace last →
    last = '\n' ∨ last = '\r' ∨ value.toList.all isBlank)) (by
      rw [Option.all_eq_true]
      exact forall₂_congr fun _ _ => decide_eq_true_iff)

/-- Whether a character is written as it is though it is white space. -/
def Bare (leading : Bool) (c : Char) : Prop :=
  Text.isWhitespace c ∧ c ≠ '\n' ∧ c ≠ '\r' ∧ ¬(leading ∧ isBlank c)

theorem unescapeFrom_cons {c : Char} (hslash : c ≠ '\\') (rest : List Char) :
    unescapeFrom (c :: rest) = c :: unescapeFrom rest := by
  cases rest <;> simp [unescapeFrom, hslash]

/-- A character written is read back, whatever follows it. -/
theorem unescapeFrom_escapeChar (leading : Bool) (c : Char) (rest : List Char) :
    unescapeFrom ((escapeChar leading c).toList ++ rest) = c :: unescapeFrom rest := by
  unfold escapeChar
  split
  · cases leading
    · exact unescapeFrom_cons (by decide) rest
    · simp [unescapeFrom, unescapeChar]
  · cases leading
    · exact unescapeFrom_cons (by decide) rest
    · simp [unescapeFrom, unescapeChar]
  · simp [unescapeFrom, unescapeChar]
  · simp [unescapeFrom, unescapeChar]
  · simp [unescapeFrom, unescapeChar]
  · rename_i hother
    simpa using unescapeFrom_cons hother rest

/-- Characters written are read back. -/
theorem unescapeFrom_escapeFrom (leading : Bool) (chars : List Char) :
    unescapeFrom (escapeFrom leading chars).toList = chars := by
  induction chars generalizing leading with
  | nil => rfl
  | cons c rest ih =>
      rw [escapeFrom, String.toList_append, unescapeFrom_escapeChar, ih]

/-- Characters written one after another. -/
theorem escapeFrom_concat (leading : Bool) (chars : List Char) (c : Char) :
    escapeFrom leading (chars ++ [c]) =
      escapeFrom leading chars ++ escapeChar (leading && chars.all isBlank) c := by
  induction chars generalizing leading with
  | nil => simp [escapeFrom]
  | cons first rest ih =>
      rw [List.cons_append, escapeFrom, escapeFrom, ih, String.append_assoc, List.all_cons,
        stillLeading, isBlank, Bool.and_assoc]

/-- A character found is no white space, where looking at it says so. -/
theorem not_isWhitespace_of_all {found : Option Char}
    (hall : found.all (fun c => !Text.isWhitespace c) = true) :
    ∀ last ∈ found, ¬ Text.isWhitespace last := by
  rw [Option.all_eq_true] at hall
  intro last hlast
  simpa using hall last hlast

/-- A character that is not left bare does not end in white space once written. -/
theorem getLast_escapeChar {leading : Bool} {c : Char} (hbare : ¬ Bare leading c) :
    ∀ last ∈ (escapeChar leading c).toList.getLast?, ¬ Text.isWhitespace last := by
  unfold escapeChar
  split
  · cases leading
    · exact absurd ⟨by decide, by decide, by decide, by decide⟩ hbare
    · exact not_isWhitespace_of_all (by decide)
  · cases leading
    · exact absurd ⟨by decide, by decide, by decide, by decide⟩ hbare
    · exact not_isWhitespace_of_all (by decide)
  · exact not_isWhitespace_of_all (by decide)
  · exact not_isWhitespace_of_all (by decide)
  · exact not_isWhitespace_of_all (by decide)
  · rename_i hspace htab hfeed hreturn hslash
    intro last hlast hwhite
    obtain rfl : c = last := by simpa using hlast
    have hblank : ¬ isBlank c := by
      rw [isBlank, Bool.or_eq_true, beq_iff_eq, beq_iff_eq]
      exact fun hheld => hheld.elim hspace htab
    exact hbare ⟨hwhite, hfeed, hreturn, fun hheld => hblank hheld.2⟩

/-- A character left bare is written as it is. -/
theorem escapeChar_of_bare {leading : Bool} {c : Char} (hbare : Bare leading c) :
    (escapeChar leading c).toList = [c] := by
  obtain ⟨hwhite, hfeed, hreturn, hleading⟩ := hbare
  unfold escapeChar
  split
  · cases leading
    · rfl
    · exact absurd ⟨rfl, by decide⟩ hleading
  · cases leading
    · rfl
    · exact absurd ⟨rfl, by decide⟩ hleading
  · exact absurd rfl hfeed
  · exact absurd rfl hreturn
  · exact absurd hwhite (by decide)
  · simp

/-- A value that does not end in a character left bare loses nothing at its end. -/
theorem rdropWhile_escapeFrom_of_not_bare {chars : List Char} {c : Char}
    (hbare : ¬ Bare (chars.all isBlank) c) :
    (escapeFrom true (chars ++ [c])).toList.rdropWhile Text.isWhitespace =
      (escapeFrom true (chars ++ [c])).toList := by
  have hlast : ∀ last ∈ (escapeFrom true (chars ++ [c])).toList.getLast?,
      ¬ Text.isWhitespace last := by
    rw [escapeFrom_concat, Bool.true_and, String.toList_append]
    intro last hmem
    rcases hempty : (escapeChar (chars.all isBlank) c).toList with _ | ⟨first, others⟩
    · have hread := unescapeFrom_escapeChar (chars.all isBlank) c []
      rw [hempty] at hread
      cases hread
    · rw [List.getLast?_append_of_ne_nil _ (by simp [hempty])] at hmem
      exact getLast_escapeChar hbare last hmem
  rw [List.rdropWhile_eq_self_iff]
  intro hne
  exact hlast _ (List.getLast?_eq_some_getLast hne)

/-- A value that ends in a character left bare loses it with all that goes before. -/
theorem rdropWhile_escapeFrom_of_bare {chars : List Char} {c : Char}
    (hbare : Bare (chars.all isBlank) c) :
    (escapeFrom true (chars ++ [c])).toList.rdropWhile Text.isWhitespace =
      (escapeFrom true chars).toList.rdropWhile Text.isWhitespace := by
  rw [escapeFrom_concat, Bool.true_and, String.toList_append, escapeChar_of_bare hbare,
    List.rdropWhile_concat_pos _ _ _ hbare.1]

/-- What is read of a value is where it starts. -/
theorem unescapeFrom_rdropWhile_isPrefix (chars : List Char) :
    unescapeFrom ((escapeFrom true chars).toList.rdropWhile Text.isWhitespace) <+: chars := by
  induction chars using List.reverseRecOn with
  | nil => exact List.nil_prefix
  | append_singleton chars c ih =>
      by_cases hbare : Bare (chars.all isBlank) c
      · rw [rdropWhile_escapeFrom_of_bare hbare]
        exact ih.trans (List.prefix_append _ _)
      · rw [rdropWhile_escapeFrom_of_not_bare hbare, unescapeFrom_escapeFrom]

/-- A value is kept where its last character is not left bare. -/
theorem kept_concat_iff (chars : List Char) (c : Char) :
    Kept (String.ofList (chars ++ [c])) ↔ ¬ Bare (chars.all isBlank) c := by
  simp only [Kept, Bare, String.toList_ofList, List.getLast?_concat, Option.mem_def,
    Option.some.injEq, forall_eq', List.all_append, List.all_cons, List.all_nil, Bool.and_true,
    Bool.and_eq_true]
  tauto

/-- What is read of a value is that value, unless it ends in white space left bare. -/
theorem unescape_trimEnd_escape_iff (value : String) :
    unescape (Text.trimEnd (escape value)) = value ↔ Kept value := by
  have hread : unescape (Text.trimEnd (escape value)) = value ↔
      unescapeFrom ((escapeFrom true value.toList).toList.rdropWhile Text.isWhitespace) =
        value.toList := by
    rw [unescape, Text.toList_trimEnd, escape, ← String.toList_inj, String.toList_ofList]
  rw [hread]
  rcases List.eq_nil_or_concat value.toList with hnil | ⟨chars, c, hvalue⟩
  · rw [hnil]
    exact ⟨fun _ => by simp [Kept, hnil], fun _ => rfl⟩
  · have hwhole : value = String.ofList (chars ++ [c]) := by
      rw [← List.concat_eq_append, ← hvalue, String.ofList_toList]
    rw [hwhole, String.toList_ofList, kept_concat_iff]
    by_cases hbare : Bare (chars.all isBlank) c
    · rw [rdropWhile_escapeFrom_of_bare hbare]
      refine iff_of_false (fun hsame => ?_) (not_not.mpr hbare)
      have hshort := (unescapeFrom_rdropWhile_isPrefix chars).length_le
      rw [hsame, List.length_append, List.length_singleton] at hshort
      omega
    · rw [rdropWhile_escapeFrom_of_not_bare hbare, unescapeFrom_escapeFrom]
      exact iff_of_true rfl hbare

/-- A value written holds no line break. -/
theorem oneLine_escape (value : String) : Text.OneLine (escape value) := by
  have hchar : ∀ (leading : Bool) (c : Char), Text.OneLine (escapeChar leading c) := by
    intro leading c
    unfold escapeChar
    split
    · cases leading <;> decide
    · cases leading <;> decide
    · decide
    · decide
    · decide
    · rename_i hfeed hreturn _
      simp [Text.OneLine, Ne.symm hfeed, Ne.symm hreturn]
  have hchars : ∀ (leading : Bool) (chars : List Char),
      Text.OneLine (escapeFrom leading chars) := by
    intro leading chars
    induction chars generalizing leading with
    | nil => simp [Text.OneLine, escapeFrom]
    | cons c rest ih =>
        have hrest := ih (stillLeading leading c)
        have hfirst := hchar leading c
        simp only [Text.OneLine, escapeFrom, String.toList_append, List.mem_append,
          not_or] at hrest hfirst ⊢
        exact ⟨⟨hfirst.1, hrest.1⟩, hfirst.2, hrest.2⟩
  exact hchars true value.toList

end Bliti.Network.Render.Iwd
