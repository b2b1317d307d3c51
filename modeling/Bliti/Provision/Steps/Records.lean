import Bliti.Provision.Luks

/-!
# The step encryption - the record and the recovery passphrase

The recovery passphrase the step generates, and the board's record, a line of the
records file kept on the provisioning medium.
-/

namespace Bliti.Provision.Encryption

/-! ## The recovery passphrase -/

/-- How many words a recovery passphrase has. -/
def WORDS : Nat := 6

/-- The fewest characters a word has. -/
def SHORTEST : Nat := 5

/-- Whether a word drawn may be used. -/
def usable (word : String) : Bool :=
  decide (SHORTEST ≤ word.utf8ByteSize) && word.toList.all Char.isAlphanum

/-- A new recovery passphrase, of the words drawn so far: the first six that may be
used, in lowercase, joined by hyphens, once there are six. -/
def generate (draws : List String) : Option String :=
  let words := (draws.filter usable).take WORDS
  if words.length = WORDS then
    some (.ofList (['-'].intercalate (words.map fun word => word.toList.map Char.toLower)))
  else none

/-- A character of what is joined is of one of the parts, or of what joins them. -/
theorem mem_of_mem_intercalate {sep : List Char} {parts : List (List Char)} {c : Char}
    (hmem : c ∈ sep.intercalate parts) : c ∈ sep ∨ ∃ part ∈ parts, c ∈ part := by
  induction parts with
  | nil => simp at hmem
  | cons part rest ih =>
      cases rest with
      | nil =>
          rw [List.intercalate_singleton] at hmem
          exact .inr ⟨part, List.mem_cons_self, hmem⟩
      | cons next rest =>
          rw [List.intercalate_cons_cons] at hmem
          rcases List.mem_append.mp hmem with hfirst | hmem
          · rcases List.mem_append.mp hfirst with hpart | hsep
            · exact .inr ⟨part, List.mem_cons_self, hpart⟩
            · exact .inl hsep
          · rcases ih hmem with hsep | ⟨other, hother, hc⟩
            · exact .inl hsep
            · exact .inr ⟨other, List.mem_cons_of_mem _ hother, hc⟩

/-- A letter or digit in lowercase is no tab or line feed. -/
theorem toLower_plain {c : Char} (halnum : c.isAlphanum = true) :
    c.toLower ≠ '\t' ∧ c.toLower ≠ '\n' := by
  have hrange : 48 ≤ c.val.toNat := by
    change ((decide ('A'.val ≤ c.val ∧ c.val ≤ 'Z'.val) ||
      decide ('a'.val ≤ c.val) && decide (c.val ≤ 'z'.val)) ||
      decide ('0'.val ≤ c.val) && decide (c.val ≤ '9'.val)) = true at halnum
    simp only [Bool.or_eq_true, Bool.and_eq_true, decide_eq_true_eq,
      UInt32.le_iff_toNat_le] at halnum
    rcases halnum with (⟨hlow, _⟩ | ⟨hlow, _⟩) | ⟨hlow, _⟩
    · exact Nat.le_trans (by decide) hlow
    · exact Nat.le_trans (by decide) hlow
    · exact hlow
  have hlower : 48 ≤ c.toLower.val.toNat := by
    unfold Char.toLower
    split
    · rename_i hupper
      simp only [ge_iff_le, UInt32.le_iff_toNat_le] at hupper
      simp only [UInt32.toNat_add]
      simp at hupper ⊢
      omega
    · exact hrange
  constructor
  · intro htab
    rw [htab] at hlower
    exact absurd hlower (by decide)
  · intro hfeed
    rw [hfeed] at hlower
    exact absurd hlower (by decide)

/-- A recovery passphrase is on one line with no tab in it. -/
theorem generate_plain {draws : List String} {passphrase : String}
    (hgenerate : generate draws = some passphrase) :
    ∀ c ∈ passphrase.toList, c ≠ '\t' ∧ c ≠ '\n' := by
  unfold generate at hgenerate
  simp only at hgenerate
  split at hgenerate
  · cases hgenerate
    intro c hc
    rw [String.toList_ofList] at hc
    rcases mem_of_mem_intercalate hc with hsep | ⟨part, hpart, hin⟩
    · rw [List.mem_singleton.mp hsep]
      decide
    · obtain ⟨word, hword, rfl⟩ := List.mem_map.mp hpart
      obtain ⟨before, hbefore, rfl⟩ := List.mem_map.mp hin
      have hdrawn := List.mem_of_mem_take hword
      have husable := (List.mem_filter.mp hdrawn).2
      simp only [usable, Bool.and_eq_true, List.all_eq_true] at husable
      exact toLower_plain (husable.2 before hbefore)
  · cases hgenerate

/-- A recovery passphrase is not empty. -/
theorem generate_ne_empty {draws : List String} {passphrase : String}
    (hgenerate : generate draws = some passphrase) : passphrase ≠ "" := by
  unfold generate at hgenerate
  simp only at hgenerate
  split at hgenerate
  · rename_i hwords
    cases hgenerate
    intro hempty
    have hchars := congrArg String.toList hempty
    rw [String.toList_ofList] at hchars
    generalize (draws.filter usable).take WORDS = words at hwords hchars
    match words, hwords with
    | first :: second :: rest, _ => simp [List.intercalate_cons_cons] at hchars
  · cases hgenerate


/-! ## The record -/

/-- The board's record. -/
structure Record where
  suffix : Field
  version : Option Field
  disk : Field
  passphrase : Field
  savedAt : Field
deriving DecidableEq

namespace Record

/-- The fields of the line, that of a version that was not placed empty. -/
def fields (record : Record) : List (List Char) :=
  [record.suffix.chars, (record.version.map Field.chars).getD [], record.disk.chars,
    record.passphrase.chars, record.savedAt.chars]

/-- The line without its line feed: the fields tab-separated. -/
def body (record : Record) : List Char :=
  ['\t'].intercalate record.fields

/-- The line of the records file. -/
def line (record : Record) : List Char :=
  record.body ++ ['\n']

/-- What is appended to a file by its last byte, where it has one: a line feed goes first
where the file does not end in one. -/
def appended (record : Record) (last : Option Char) : List Char :=
  match last with
  | some '\n' | none => record.line
  | some _ => '\n' :: record.line

/-- No field has a tab or a line feed in it. -/
theorem fields_plain (record : Record) :
    ∀ field ∈ record.fields, ∀ c ∈ field, c ≠ '\t' ∧ c ≠ '\n' := by
  intro field hfield c hc
  simp only [fields, List.mem_cons, List.not_mem_nil, or_false] at hfield
  rcases hfield with rfl | rfl | rfl | rfl | rfl
  · exact record.suffix.plain c hc
  · cases hversion : record.version with
    | none => simp [hversion] at hc
    | some version =>
        rw [hversion] at hc
        exact version.plain c hc
  · exact record.disk.plain c hc
  · exact record.passphrase.plain c hc
  · exact record.savedAt.plain c hc

/-- A record takes one line. -/
theorem feed_not_mem_body (record : Record) : '\n' ∉ record.body := by
  intro hmem
  rcases mem_of_mem_intercalate hmem with hsep | ⟨field, hfield, hc⟩
  · exact absurd hsep (by decide)
  · exact (record.fields_plain field hfield '\n' hc).2 rfl

/-- Split at its tabs, the line gives the fields. -/
theorem splitOn_body (record : Record) : record.body.splitOn '\t' = record.fields := by
  apply List.splitOn_intercalate
  · intro field hfield hmem
    exact (record.fields_plain field hfield '\t' hmem).1 rfl
  · exact List.cons_ne_nil _ _

end Record

/-! ## The records file -/

/-- A line of a file, ended by a line feed and begun where the file or a line begins. -/
def CompleteLine (content line : List Char) : Prop :=
  '\n' ∉ line ∧ ∃ before after, content = before ++ line ++ '\n' :: after ∧
    (before = [] ∨ before.getLast? = some '\n')

/-- A file has a complete line with a disk's passphrase on it. -/
def Recorded (content : List Char) (disk : Field) (passphrase : String) : Prop :=
  ∃ line suffix version savedAt, CompleteLine content line ∧
    line.splitOn '\t' = [suffix, version, disk.chars, passphrase.toList, savedAt]

theorem Recorded.mono {content longer : List Char} {disk : Field} {passphrase : String}
    (hrecorded : Recorded content disk passphrase) (hextends : content <+: longer) :
    Recorded longer disk passphrase := by
  obtain ⟨line, suffix, version, savedAt, hline, hsplit⟩ := hrecorded
  obtain ⟨honeline, before, after, hcontent, hbegun⟩ := hline
  obtain ⟨added, hlonger⟩ := hextends
  refine ⟨line, suffix, version, savedAt, ⟨honeline, before, after ++ added, ?_, hbegun⟩,
    hsplit⟩
  rw [← hlonger, hcontent]
  simp

/-- A record appended to a file by its last byte is on a complete line of it. -/
theorem recorded_append (content : List Char) (record : Record) :
    Recorded (content ++ record.appended content.getLast?) record.disk
      record.passphrase.text := by
  have hwhole : ∀ before, (before = [] ∨ before.getLast? = some '\n') →
      Recorded (before ++ record.line) record.disk record.passphrase.text := by
    intro before hbegun
    refine ⟨record.body, _, _, _, ⟨record.feed_not_mem_body, before, [], ?_, hbegun⟩,
      record.splitOn_body⟩
    simp [Record.line]
  unfold Record.appended
  split
  · rename_i hfeed
    exact hwhole content (.inr hfeed)
  · rename_i hnone
    exact hwhole content (.inl (List.getLast?_eq_none_iff.mp hnone))
  · -- the line left unfinished is ended first
    have hended := hwhole (content ++ ['\n']) (.inr (by simp))
    rwa [List.append_assoc] at hended

end Bliti.Provision.Encryption
