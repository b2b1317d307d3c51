import Bliti.Channel.Envelope.Recased
import Bliti.Channel.Envelope.Shape

/-!
# The message envelope - members added

A message with members added to it that what is written of it does not carry.  Paths are
texts, so that no member is taken for another is shown first: a name holds no point, and a
path past one belongs to one member alone.
-/

namespace Bliti.Channel.Envelope

open Std (ExtTreeSet)

variable {φ T : Type}

/-! ## Paths -/

/-- A path goes on from another, past a point. -/
def Past (path p : String) : Prop :=
  ∃ rest, p.toList = path.toList ++ '.' :: rest

/-- What is below a path goes on from it. -/
theorem past_below {path name : String} (hpath : path ≠ "") : Past path (below path name) := by
  have hempty : path.isEmpty = false := by
    simpa using hpath
  rw [below, hempty]
  exact ⟨name.toList, by simp⟩

theorem Past.trans {path p q : String} (hone : Past path p) (hother : Past p q) : Past path q := by
  obtain ⟨rest, hrest⟩ := hone
  obtain ⟨others, hothers⟩ := hother
  exact ⟨rest ++ '.' :: others, by rw [hothers, hrest, List.append_assoc, List.cons_append]⟩

/-- No path goes on from itself. -/
theorem Past.ne {path p : String} (hpast : Past path p) : p ≠ path := by
  obtain ⟨rest, hrest⟩ := hpast
  intro hsame
  have hlength := congrArg List.length hrest
  rw [hsame, List.length_append, List.length_cons] at hlength
  omega

/-- A name that is not empty is below a path at one that is not. -/
theorem below_ne_of_name {path name : String} (hname : name ≠ "") : below path name ≠ "" := by
  unfold below
  split
  · exact hname
  · intro hnil
    have hlist := congrArg String.toList hnil
    simp at hlist

/-- A path is of a member where it is that member's, or goes on from it. -/
def Of (path p : String) : Prop :=
  p = path ∨ Past path p

/-- What stands before a name in the path of a member. -/
def lead (path : String) : List Char :=
  if path.isEmpty then [] else path.toList ++ ['.']

theorem toList_below (path name : String) :
    (below path name).toList = lead path ++ name.toList := by
  unfold below lead
  split <;> simp

/-- A path of a member is its name, and what is past a point. -/
theorem Of.parts {path name p : String} (hof : Of (below path name) p)
    (hname : '.' ∉ name.toList) :
    ∃ rest, p.toList = lead path ++ rest ∧ rest.takeWhile (· ≠ '.') = name.toList := by
  have hkept : ∀ c ∈ name.toList, decide (c ≠ '.') = true := fun c hc =>
    decide_eq_true fun hdot => hname (hdot ▸ hc)
  rcases hof with rfl | ⟨rest, hrest⟩
  · exact ⟨name.toList, toList_below path name, List.takeWhile_eq_self_iff.mpr hkept⟩
  · refine ⟨name.toList ++ '.' :: rest, ?_, ?_⟩
    · rw [hrest, toList_below, List.append_assoc]
    · rw [List.takeWhile_append_of_pos hkept, List.takeWhile_cons_of_neg (by simp),
        List.append_nil]

/-- A path is of one member of an object alone. -/
theorem Of.unique {path name other p : String} (hof : Of (below path name) p)
    (hother : Of (below path other) p) (hname : '.' ∉ name.toList)
    (hdotless : '.' ∉ other.toList) : name = other := by
  obtain ⟨rest, hrest, hfirst⟩ := hof.parts hname
  obtain ⟨others, hothers, hsecond⟩ := hother.parts hdotless
  rw [hrest] at hothers
  rw [List.append_cancel_left hothers] at hfirst
  exact String.toList_inj.mp (hfirst.symm.trans hsecond)

/-- A well-formed name in lower case holds no point. -/
theorem dotless_of_classify {name : String} (hname : (classify name).isSome = true) :
    '.' ∉ name.toLower.toList := by
  obtain ⟨critical, hname⟩ := Option.isSome_iff_exists.mp hname
  obtain ⟨-, hall, -, -⟩ := classify_eq_some.mp (plain_toLower hname)
  intro hdot
  have hletter := hall '.' hdot
  revert hletter
  decide

/-- A position holds no point. -/
theorem dotless_toString (i : ℕ) : '.' ∉ (toString i).toList := by
  rw [Nat.toString_eq_repr, Nat.toList_repr]
  intro hdot
  have hdigit := Nat.isDigit_of_mem_toDigits (by decide) (by decide) hdot
  revert hdigit
  decide

/-- Positions are written apart. -/
theorem toString_injective {i j : ℕ} (hsame : toString i = toString j) : i = j := by
  have hdigits := congrArg String.toList hsame
  rw [Nat.toString_eq_repr, Nat.toString_eq_repr, Nat.toList_repr, Nat.toList_repr] at hdigits
  rw [← Nat.ofDigitChars_ten_toDigits (n := i), hdigits, Nat.ofDigitChars_ten_toDigits]

theorem toString_ne (i : ℕ) : toString i ≠ "" := by
  intro hnil
  have hdigits := congrArg String.toList hnil
  rw [Nat.toString_eq_repr, Nat.toList_repr] at hdigits
  exact Nat.toDigits_ne_nil hdigits

mutual

/-- The paths of names in upper case below a path go on from it. -/
theorem past_of_marks (raw : Raw φ) {path p : String} (hpath : path ≠ "")
    (hp : p ∈ raw.marks path) : Past path p := by
  cases raw with
  | object entries =>
      rw [Raw.marks] at hp
      exact past_of_entriesMarks entries hpath hp
  | array items =>
      rw [Raw.marks] at hp
      exact past_of_itemsMarks items hpath hp
  | other value hscalar =>
      rw [Raw.marks] at hp
      cases hp

theorem past_of_entriesMarks (entries : List (String × Raw φ)) {path p : String}
    (hpath : path ≠ "") (hp : p ∈ entriesMarks path entries) : Past path p := by
  cases entries with
  | nil =>
      rw [entriesMarks] at hp
      cases hp
  | cons entry rest =>
      rw [entriesMarks, List.mem_append] at hp
      rcases hp with hentry | hrest
      · exact past_of_entryMarks entry hpath hentry
      · exact past_of_entriesMarks rest hpath hrest

theorem past_of_entryMarks (entry : String × Raw φ) {path p : String} (hpath : path ≠ "")
    (hp : p ∈ entryMarks path entry) : Past path p := by
  obtain ⟨name, raw⟩ := entry
  rw [entryMarks, List.mem_append] at hp
  rcases hp with hname | hbelow
  · split at hname
    · rw [List.mem_singleton.mp hname]
      exact past_below hpath
    · cases hname
  · exact (past_below hpath).trans (past_of_marks raw (below_ne hpath) hbelow)

theorem past_of_itemsMarks (items : List (Raw φ)) {path p : String} {index : ℕ}
    (hpath : path ≠ "") (hp : p ∈ itemsMarks path index items) : Past path p := by
  cases items with
  | nil =>
      rw [itemsMarks] at hp
      cases hp
  | cons item rest =>
      rw [itemsMarks, List.mem_append] at hp
      rcases hp with hitem | hrest
      · exact (past_below hpath).trans (past_of_marks item (below_ne hpath) hitem)
      · exact past_of_itemsMarks rest hpath hrest

end

mutual

/-- The paths of what does not come back below a path go on from it. -/
theorem past_of_unknown (value : Json φ) {path p : String} {round : Json φ} (hpath : path ≠ "")
    (hp : p ∈ collectUnknown path ∅ round value) : Past path p := by
  cases value with
  | object members =>
      cases round with
      | object round =>
          rw [collectUnknown] at hp
          exact past_of_unknownMembers members hpath hp
      | _ => simp [collectUnknown] at hp
  | array items =>
      cases round with
      | array rounds =>
          rw [collectUnknown] at hp
          exact past_of_unknownItems items hpath hp
      | _ => simp [collectUnknown] at hp
  | _ => simp [collectUnknown] at hp
termination_by structural value

theorem past_of_unknownMembers (members : Json.Map φ) {path p : String} {round : Json.Map φ}
    (hpath : path ≠ "") (hp : p ∈ unknownMembers path ∅ round members) : Past path p := by
  cases members with
  | nil => simp [unknownMembers] at hp
  | cons member rest =>
      rw [unknownMembers, mem_unknownMembers_out] at hp
      rcases hp with hmember | hrest
      · exact past_of_unknownMember member hpath hmember
      · exact past_of_unknownMembers rest hpath hrest
termination_by structural members

theorem past_of_unknownMember (member : String × Json φ) {path p : String} {round : Json.Map φ}
    (hpath : path ≠ "") (hp : p ∈ unknownMember path ∅ round member) : Past path p := by
  obtain ⟨name, value⟩ := member
  rw [unknownMember] at hp
  split at hp
  · rw [ExtTreeSet.mem_insert, Std.compare_eq_iff_eq] at hp
    rcases hp with rfl | hnone
    · exact past_below hpath
    · simp at hnone
  · exact (past_below hpath).trans (past_of_unknown value (below_ne hpath) hp)
termination_by structural member

theorem past_of_unknownItems (items : List (Json φ)) {path p : String} {rounds : List (Json φ)}
    {index : ℕ} (hpath : path ≠ "") (hp : p ∈ unknownItems path ∅ rounds index items) :
    Past path p := by
  cases items with
  | nil => simp [unknownItems] at hp
  | cons item rest =>
      rw [unknownItems, mem_unknownItems_out] at hp
      rcases hp with hitem | hrest
      · split at hitem
        · simp at hitem
        · exact (past_below hpath).trans (past_of_unknown item (below_ne hpath) hitem)
      · exact past_of_unknownItems rest hpath hrest
termination_by structural items

end

/-! ## Clear messages -/

/-- No name in upper case is of a member that does not come back. -/
def Clear (path : String) (round : Json φ) (raw : Raw φ) : Prop :=
  ∀ p ∈ raw.marks path, p ∉ collectUnknown path ∅ round raw.value

/-- It is so of one entry: it comes back and is so below it, or its name is in lower case. -/
def EntryClear (path : String) (round : Json.Map φ) (entry : String × Raw φ) : Prop :=
  match Json.get round entry.1.toLower with
  | none => classify entry.1 ≠ some true
  | some found => Clear (below path entry.1.toLower) found entry.2

/-- The entries of an object, each in lower case. -/
theorem entriesValue_eq (entries : List (String × Raw φ)) :
    entriesValue entries = entries.map entryValue := by
  induction entries with
  | nil => rw [entriesValue, List.map_nil]
  | cons entry rest ih => rw [entriesValue, ih, List.map_cons]

/-- The items of an array, each in lower case. -/
theorem itemsValue_eq (items : List (Raw φ)) : itemsValue items = items.map Raw.value := by
  induction items with
  | nil => rw [itemsValue, List.map_nil]
  | cons item rest ih => rw [itemsValue, ih, List.map_cons]

/-- The names of each entry are well formed. -/
theorem EntriesWellNamed.of_mem {entries : List (String × Raw φ)} {entry : String × Raw φ}
    (hnames : EntriesWellNamed entries) (hentry : entry ∈ entries) : EntryWellNamed entry := by
  induction entries with
  | nil => cases hentry
  | cons first rest ih =>
      rw [EntriesWellNamed] at hnames
      rcases List.mem_cons.mp hentry with rfl | hrest
      · exact hnames.1
      · exact ih hnames.2 hrest

/-- The path of a name in upper case among entries is of one of them. -/
theorem mem_entriesMarks_iff {path p : String} {entries : List (String × Raw φ)} :
    p ∈ entriesMarks path entries ↔ ∃ entry ∈ entries, p ∈ entryMarks path entry := by
  induction entries with
  | nil => simp [entriesMarks]
  | cons entry rest ih => rw [entriesMarks, List.mem_append, ih, List.exists_mem_cons_iff]

/-- That of a name among items is of one of them. -/
theorem mem_itemsMarks_iff {path p : String} {items : List (Raw φ)} {index : ℕ} :
    p ∈ itemsMarks path index items ↔ ∃ (i : ℕ) (item : Raw φ), items[i]? = some item ∧
      p ∈ item.marks (below path (toString (index + i))) := by
  induction items generalizing index with
  | nil => simp [itemsMarks]
  | cons first rest ih =>
      have hlater : p ∈ itemsMarks path (index + 1) rest ↔ _ := ih
      simp only [Nat.add_assoc, Nat.add_comm 1] at hlater
      have hsplit : (∃ (i : ℕ) (item : Raw φ), (first :: rest)[i]? = some item ∧
            p ∈ item.marks (below path (toString (index + i)))) ↔
          p ∈ first.marks (below path (toString index)) ∨ ∃ (i : ℕ) (item : Raw φ),
            rest[i]? = some item ∧ p ∈ item.marks (below path (toString (index + (i + 1)))) := by
        rw [← Nat.or_exists_add_one]
        simp
      rw [itemsMarks, List.mem_append, hsplit]
      exact or_congr_right hlater

/-- What an object carries in lower case are its entries. -/
theorem mem_collect_entriesValue {entries : List (String × Raw φ)}
    (hdistinct : (entries.map fun entry => entry.1.toLower).Nodup) {member : String × Json φ} :
    member ∈ Json.collect (entriesValue entries) ↔ ∃ entry ∈ entries, entryValue entry = member := by
  rw [entriesValue_eq]
  constructor
  · intro hmember
    exact List.mem_map.mp (Json.mem_collect hmember)
  · intro hentry
    have hnames : ((entries.map entryValue).map Prod.fst).Nodup := by
      simpa [List.map_map, Function.comp_def] using hdistinct
    exact Json.mem_of_get (Json.get_insertAll_of_mem hnames (List.mem_map.mpr hentry))

/-- A member is found of an object where an entry is of it. -/
theorem get_collect_entriesValue {entries : List (String × Raw φ)}
    (hdistinct : (entries.map fun entry => entry.1.toLower).Nodup) {name : String}
    {value : Json φ} :
    Json.get (Json.collect (entriesValue entries)) name = some value ↔
      ∃ entry ∈ entries, entryValue entry = (name, value) := by
  constructor
  · intro hget
    exact (mem_collect_entriesValue hdistinct).mp (Json.mem_of_get hget)
  · intro hentry
    have hnames : ((entriesValue entries).map Prod.fst).Nodup := by
      simpa [entriesValue_eq, List.map_map, Function.comp_def] using hdistinct
    refine Json.get_insertAll_of_mem hnames ?_
    rw [entriesValue_eq]
    exact List.mem_map.mpr hentry

/-- A path at or below an entry is of it. -/
theorem of_entryMarks {path p : String} {entry : String × Raw φ} (hnames : EntryWellNamed entry)
    (hp : p ∈ entryMarks path entry) : Of (below path entry.1.toLower) p := by
  obtain ⟨name, raw⟩ := entry
  rw [EntryWellNamed] at hnames
  rw [entryMarks, List.mem_append] at hp
  rcases hp with hname | hbelow
  · split at hname
    · exact .inl (List.mem_singleton.mp hname)
    · cases hname
  · exact .inr (past_of_marks raw (below_ne_of_name (toLower_ne hnames.1)) hbelow)

/-- A message is clear where each of its entries is. -/
theorem clear_object {path : String} {round : Json.Map φ} {entries : List (String × Raw φ)}
    (hnames : (Raw.object entries).WellNamed) :
    Clear path (.object round) (.object entries) ↔
      ∀ entry ∈ entries, EntryClear path round entry := by
  rw [Raw.WellNamed] at hnames
  obtain ⟨hdistinct, hnamed⟩ := hnames
  have hmarks : ∀ p, p ∈ (Raw.object entries).marks path ↔
      ∃ entry ∈ entries, p ∈ entryMarks path entry := by
    intro p
    rw [Raw.marks, mem_entriesMarks_iff]
  have hunknown : ∀ p, p ∈ collectUnknown path ∅ (.object round) (Raw.object entries).value ↔
      ∃ entry ∈ entries,
        (Json.get round entry.1.toLower = none ∧ p = below path entry.1.toLower) ∨
          ∃ found, Json.get round entry.1.toLower = some found ∧
            p ∈ collectUnknown (below path entry.1.toLower) ∅ found entry.2.value := by
    intro p
    rw [Raw.value, collectUnknown, mem_unknownMembers]
    simp only [mem_collect_entriesValue hdistinct]
    constructor
    · rintro ⟨member, ⟨⟨name, raw⟩, hentry, rfl⟩, hlost⟩
      rw [entryValue] at hlost
      exact ⟨_, hentry, hlost⟩
    · rintro ⟨⟨name, raw⟩, hentry, hlost⟩
      refine ⟨_, ⟨_, hentry, rfl⟩, ?_⟩
      rw [entryValue]
      exact hlost
  constructor
  · rintro hclear ⟨name, raw⟩ hentry
    unfold EntryClear
    split
    · rename_i hnone
      intro hcritical
      refine hclear (below path name.toLower) ((hmarks _).mpr ⟨_, hentry, ?_⟩)
        ((hunknown _).mpr ⟨_, hentry, .inl ⟨hnone, rfl⟩⟩)
      rw [entryMarks, if_pos hcritical]
      exact List.mem_cons_self
    · rename_i found hfound
      intro p hp hlost
      refine hclear p ((hmarks _).mpr ⟨_, hentry, ?_⟩)
        ((hunknown _).mpr ⟨_, hentry, .inr ⟨found, hfound, hlost⟩⟩)
      rw [entryMarks]
      exact List.mem_append_right _ hp
  · intro hall p hp hlost
    obtain ⟨entry, hentry, hmark⟩ := (hmarks p).mp hp
    obtain ⟨other, hother, hlost⟩ := (hunknown p).mp hlost
    have hwell := hnamed.of_mem hentry
    have hwellOther := hnamed.of_mem hother
    obtain ⟨name, raw⟩ := entry
    obtain ⟨otherName, otherRaw⟩ := other
    rw [EntryWellNamed] at hwell hwellOther
    have hne : below path otherName.toLower ≠ "" := below_ne_of_name (toLower_ne hwellOther.1)
    have hof : Of (below path otherName.toLower) p := by
      rcases hlost with ⟨-, rfl⟩ | ⟨found, -, hbelow⟩
      · exact .inl rfl
      · exact .inr (past_of_unknown _ hne hbelow)
    have hsame : name.toLower = otherName.toLower :=
      (of_entryMarks (hnamed.of_mem hentry) hmark).unique hof (dotless_of_classify hwell.1)
        (dotless_of_classify hwellOther.1)
    have hpair : (name, raw) = (otherName, otherRaw) :=
      List.inj_on_of_nodup_map hdistinct hentry hother hsame
    cases hpair
    have hclear := hall _ hentry
    rw [entryMarks, List.mem_append] at hmark
    unfold EntryClear at hclear
    rcases hlost with ⟨hnone, hpath⟩ | ⟨found, hfound, hbelow⟩
    · rw [hnone] at hclear
      rw [if_neg hclear] at hmark
      exact (past_of_marks raw hne (hmark.resolve_left List.not_mem_nil)).ne hpath
    · rw [hfound] at hclear
      rcases hmark with hname | hmark
      · split at hname
        · exact (past_of_unknown _ hne hbelow).ne (List.mem_singleton.mp hname)
        · cases hname
      · exact hclear p hmark hbelow

/-- An array is clear where each of its items is. -/
theorem clear_array {path : String} {rounds : List (Json φ)} {items : List (Raw φ)} :
    Clear path (.array rounds) (.array items) ↔ ∀ (i : ℕ) (item : Raw φ) (found : Json φ),
      items[i]? = some item → rounds[i]? = some found → Clear (below path (toString i)) found item := by
  have hmarks : ∀ p, p ∈ (Raw.array items).marks path ↔ ∃ (i : ℕ) (item : Raw φ),
      items[i]? = some item ∧ p ∈ item.marks (below path (toString i)) := by
    intro p
    rw [Raw.marks, mem_itemsMarks_iff]
    simp only [Nat.zero_add]
  have hunknown : ∀ p, p ∈ collectUnknown path ∅ (.array rounds) (Raw.array items).value ↔
      ∃ (i : ℕ) (item : Raw φ) (found : Json φ), items[i]? = some item ∧
        rounds[i]? = some found ∧ p ∈ collectUnknown (below path (toString i)) ∅ found item.value := by
    intro p
    rw [Raw.value, collectUnknown, mem_unknownItems, itemsValue_eq]
    simp only [List.getElem?_map, Option.map_eq_some_iff, Nat.zero_add]
    constructor
    · rintro ⟨i, _, found, ⟨item, hitem, rfl⟩, hlost⟩
      exact ⟨i, item, found, hitem, hlost⟩
    · rintro ⟨i, item, found, hitem, hlost⟩
      exact ⟨i, _, found, ⟨item, hitem, rfl⟩, hlost⟩
  constructor
  · intro hclear i item found hitem hfound p hp hlost
    exact hclear p ((hmarks p).mpr ⟨i, item, hitem, hp⟩)
      ((hunknown p).mpr ⟨i, item, found, hitem, hfound, hlost⟩)
  · intro hall p hp hlost
    obtain ⟨i, item, hitem, hmark⟩ := (hmarks p).mp hp
    obtain ⟨j, other, found, hother, hfound, hlost⟩ := (hunknown p).mp hlost
    have hone : Of (below path (toString i)) p :=
      .inr (past_of_marks item (below_ne_of_name (toString_ne i)) hmark)
    have htwo : Of (below path (toString j)) p :=
      .inr (past_of_unknown _ (below_ne_of_name (toString_ne j)) hlost)
    obtain rfl := toString_injective (hone.unique htwo (dotless_toString i) (dotless_toString j))
    rw [hitem] at hother
    cases hother
    exact hall i item found hitem hfound p hmark hlost

/-! ## Members added -/

variable {defined : List String} {pinned : Prop} {within : String → Raw φ → Raw φ → Prop}
  {entries others : List (String × Raw φ)}

/-- Entries with others added: names in lower case that are none of those defined, holding
anything, or nothing in upper case where that is pinned; the entries there were are kept, but
for what is added within them. -/
inductive Beside (defined : List String) (pinned : Prop)
    (within : String → Raw φ → Raw φ → Prop) :
    List (String × Raw φ) → List (String × Raw φ) → Prop
  | nil : Beside defined pinned within [] []
  | keep {name : String} {raw other : Raw φ} {entries others : List (String × Raw φ)}
      (hwithin : within name.toLower raw other) (hrest : Beside defined pinned within entries others) :
      Beside defined pinned within ((name, raw) :: entries) ((name, other) :: others)
  | add {name : String} {raw : Raw φ} {entries others : List (String × Raw φ)}
      (hname : classify name = some false) (hnew : name.toLower ∉ defined)
      (hplain : pinned → ∀ path, raw.marks path = [])
      (hrest : Beside defined pinned within entries others) :
      Beside defined pinned within entries ((name, raw) :: others)

namespace Beside

/-- Each entry there was is kept. -/
theorem kept (hbeside : Beside defined pinned within entries others) :
    ∀ entry ∈ entries, ∃ other, (entry.1, other) ∈ others ∧ within entry.1.toLower entry.2 other := by
  induction hbeside with
  | nil => simp
  | keep hwithin _ ih =>
      rw [List.forall_mem_cons]
      refine ⟨⟨_, List.mem_cons_self, hwithin⟩, fun entry hentry => ?_⟩
      obtain ⟨other, hother, hwithin⟩ := ih entry hentry
      exact ⟨other, List.mem_cons_of_mem _ hother, hwithin⟩
  | add _ _ _ _ ih =>
      intro entry hentry
      obtain ⟨other, hother, hwithin⟩ := ih entry hentry
      exact ⟨other, List.mem_cons_of_mem _ hother, hwithin⟩

/-- Each entry there is was there, or is in lower case and not defined. -/
theorem held (hbeside : Beside defined pinned within entries others) :
    ∀ other ∈ others, (∃ raw, (other.1, raw) ∈ entries ∧ within other.1.toLower raw other.2) ∨
      classify other.1 = some false ∧ other.1.toLower ∉ defined := by
  induction hbeside with
  | nil => simp
  | keep hwithin _ ih =>
      rw [List.forall_mem_cons]
      refine ⟨.inl ⟨_, List.mem_cons_self, hwithin⟩, fun other hother => ?_⟩
      rcases ih other hother with ⟨raw, hraw, hwithin⟩ | hadded
      · exact .inl ⟨raw, List.mem_cons_of_mem _ hraw, hwithin⟩
      · exact .inr hadded
  | add hname hnew _ _ ih =>
      rw [List.forall_mem_cons]
      exact ⟨.inr ⟨hname, hnew⟩, ih⟩

/-- Adding members leaves a message clear, where what is written of it carries none but those
defined. -/
theorem clear {path : String} {round : Json.Map φ}
    (hbeside : Beside defined pinned within entries others)
    (hnames : (Raw.object entries).WellNamed) (hothers : (Raw.object others).WellNamed)
    (hround : ∀ name, name ∉ defined → Json.get round name = none)
    (hwithin : ∀ name raw other found, within name raw other → raw.WellNamed → other.WellNamed →
      Json.get round name = some found → Clear (Envelope.below path name) found raw →
      Clear (Envelope.below path name) found other)
    (hclear : Clear path (.object round) (.object entries)) :
    Clear path (.object round) (.object others) := by
  rw [clear_object hnames] at hclear
  rw [clear_object hothers]
  rw [Raw.WellNamed] at hnames hothers
  rintro ⟨name, other⟩ hother
  rcases hbeside.held _ hother with ⟨raw, hraw, hadded⟩ | ⟨hname, hnew⟩
  · have hwas := hclear _ hraw
    have hwell := hnames.2.of_mem hraw
    have hwellOther := hothers.2.of_mem hother
    rw [EntryWellNamed] at hwell hwellOther
    unfold EntryClear at hwas ⊢
    simp only at hwas ⊢
    split
    · rename_i hnone
      rw [hnone] at hwas
      exact hwas
    · rename_i found hfound
      rw [hfound] at hwas
      exact hwithin _ raw other found hadded hwell.2 hwellOther.2 hfound hwas
  · unfold EntryClear
    rw [hround _ hnew, hname]
    simp

/-- Where nothing in upper case may be added, the names in upper case are those there were. -/
theorem marks (hbeside : Beside defined pinned within entries others) (hpinned : pinned)
    (hwithin : ∀ name raw other, within name raw other → ∀ path, other.marks path = raw.marks path)
    (path : String) : entriesMarks path others = entriesMarks path entries := by
  induction hbeside with
  | nil => rfl
  | keep hadded _ ih =>
      rw [entriesMarks, entriesMarks, entryMarks, entryMarks, hwithin _ _ _ hadded, ih]
  | add hname _ hplain _ ih =>
      rw [entriesMarks, entryMarks, hname, hplain hpinned, ih]
      simp

/-- A member defined is there where it was, and is what it was but for what is added within. -/
theorem get (hbeside : Beside defined pinned within entries others)
    (hnames : (Raw.object entries).WellNamed) (hothers : (Raw.object others).WellNamed)
    {name : String} (hdefined : name ∈ defined) :
    (Json.get (Json.collect (entriesValue entries)) name = none ∧
        Json.get (Json.collect (entriesValue others)) name = none) ∨
      ∃ raw other, Json.get (Json.collect (entriesValue entries)) name = some raw.value ∧
        Json.get (Json.collect (entriesValue others)) name = some other.value ∧
        raw.WellNamed ∧ other.WellNamed ∧ within name raw other := by
  rw [Raw.WellNamed] at hnames hothers
  have hget : ∀ {entries : List (String × Raw φ)} {written : String} {raw : Raw φ},
      (entries.map fun entry => entry.1.toLower).Nodup → (written, raw) ∈ entries →
      Json.get (Json.collect (entriesValue entries)) written.toLower = some raw.value :=
    fun hdistinct hentry => (get_collect_entriesValue hdistinct).mpr ⟨_, hentry, by rw [entryValue]⟩
  cases hwas : Json.get (Json.collect (entriesValue entries)) name with
  | none =>
      refine .inl ⟨rfl, ?_⟩
      by_contra hnot
      obtain ⟨value, hvalue⟩ := Option.ne_none_iff_exists'.mp hnot
      obtain ⟨⟨written, other⟩, hother, hsame⟩ :=
        (get_collect_entriesValue hothers.1).mp hvalue
      rw [entryValue] at hsame
      cases hsame
      rcases hbeside.held _ hother with ⟨raw, hraw, -⟩ | ⟨-, hnew⟩
      · rw [hget hnames.1 hraw] at hwas
        cases hwas
      · exact hnew hdefined
  | some value =>
      obtain ⟨⟨written, raw⟩, hraw, hsame⟩ :=
        (get_collect_entriesValue hnames.1).mp hwas
      rw [entryValue] at hsame
      cases hsame
      obtain ⟨other, hother, hwithin⟩ := hbeside.kept _ hraw
      have hwell := hnames.2.of_mem hraw
      have hwellOther := hothers.2.of_mem hother
      rw [EntryWellNamed] at hwell hwellOther
      exact .inr ⟨raw, other, rfl, hget hothers.1 hother, hwell.2, hwellOther.2, hwithin⟩

end Beside

/-- One more entry leaves the members of other names as they were. -/
theorem get_insert {before after : List (String × Raw φ)} {entry : String × Raw φ} {name : String}
    (hdistinct : ((before ++ entry :: after).map fun entry => entry.1.toLower).Nodup)
    (hname : name ≠ entry.1.toLower) :
    Json.get (Json.collect (entriesValue (before ++ entry :: after))) name =
      Json.get (Json.collect (entriesValue (before ++ after))) name := by
  have hless : ((before ++ after).map fun entry => entry.1.toLower).Nodup := by
    refine hdistinct.sublist (List.Sublist.map _ ?_)
    exact (List.Sublist.refl before).append (List.sublist_cons_self entry after)
  refine Option.ext fun value => ?_
  rw [get_collect_entriesValue hdistinct, get_collect_entriesValue hless]
  constructor
  · rintro ⟨other, hother, hsame⟩
    refine ⟨other, ?_, hsame⟩
    rcases List.mem_append.mp hother with hbefore | hafter
    · exact List.mem_append_left _ hbefore
    · rcases List.mem_cons.mp hafter with rfl | hafter
      · exact absurd ((entryValue_fst other).symm.trans (congrArg Prod.fst hsame)).symm hname
      · exact List.mem_append_right _ hafter
  · rintro ⟨other, hother, hsame⟩
    refine ⟨other, ?_, hsame⟩
    rcases List.mem_append.mp hother with hbefore | hafter
    · exact List.mem_append_left _ hbefore
    · exact List.mem_append_right _ (List.mem_cons_of_mem _ hafter)

/-- The names of entries are well formed where those of them and one more are. -/
theorem wellNamed_of_insert {before after : List (String × Raw φ)} {entry : String × Raw φ}
    (hnames : (Raw.object (before ++ entry :: after)).WellNamed) :
    (Raw.object (before ++ after)).WellNamed := by
  rw [Raw.WellNamed] at hnames ⊢
  have hless : (before ++ after).Sublist (before ++ entry :: after) :=
    (List.Sublist.refl before).append (List.sublist_cons_self entry after)
  refine ⟨hnames.1.sublist (hless.map _), ?_⟩
  have hall : ∀ other ∈ before ++ after, EntryWellNamed other := fun other hother =>
    hnames.2.of_mem (hless.subset hother)
  revert hall
  generalize before ++ after = others
  intro hall
  induction others with
  | nil => rw [EntriesWellNamed]; trivial
  | cons first rest ih =>
      rw [EntriesWellNamed]
      rw [List.forall_mem_cons] at hall
      exact ⟨hall.1, ih hall.2⟩

/-! ## Messages read -/

variable {set : MessageSet φ T} {raw : Raw φ} {object : Json.Map φ} {typeName : String}
  {message : T}

/-- What a message read as one is: an object of well-formed names, of a type that is known. -/
theorem object_of_readRaw (hread : readRaw set raw = .ok (.message message)) :
    raw.WellNamed ∧ ∃ entries typeName, raw = .object entries ∧
      Json.get (Json.collect (entriesValue entries)) "type" = some (.string typeName) ∧
      typeName ∈ set.knownTypes := by
  have hnames : raw.WellNamed := by
    by_contra hnames
    obtain ⟨fault, hfault⟩ := (normalise_returnsIf raw "" ∅).fails hnames
    unfold readRaw at hread
    rw [hfault] at hread
    cases hread
  rw [readRaw_of_wellNamed hnames] at hread
  refine ⟨hnames, ?_⟩
  cases raw with
  | object entries =>
      rw [Raw.value, readNormalised] at hread
      split at hread
      · cases hread
      · rename_i name htype
        refine ⟨entries, name, rfl, htype, ?_⟩
        by_contra hunknown
        rw [if_neg fun hknows => hunknown (knows_iff.mp hknows)] at hread
        split at hread <;> cases hread
      · cases hread
  | array items =>
      rw [Raw.value] at hread
      obtain ⟨object, -, hobject, -⟩ := readNormalised_ok hread
      cases hobject
  | other value hscalar =>
      rw [Raw.value] at hread
      obtain ⟨object, -, hobject, -⟩ := readNormalised_ok hread
      rw [hobject] at hscalar
      cases hscalar

/-- A message of a known type, held to what its type is, is what its set reads of it where it is
clear, and else is refused for each of its members in upper case that does not come back. -/
theorem readRaw_held (hnames : raw.WellNamed) (hobject : raw.value = .object object)
    (htype : Json.get object "type" = some (.string typeName))
    (hknown : typeName ∈ set.knownTypes)
    (hheld : HeldTo object (raw.marks "") (set.criticality typeName))
    (hfrom : set.fromValue (.object object) = .ok message) :
    (Clear "" (set.toValue message) raw → readRaw set raw = .ok (.message message)) ∧
      ∀ path ∈ raw.marks "", path ∈ collectUnknown "" ∅ (set.toValue message) raw.value →
        ∃ members, path ∈ members ∧
          readRaw set raw = .ok (.refused (.criticalMembers typeName members)) := by
  have hmem : ∀ path, path ∈ ((recorded ∅ (raw.marks "")).toList.filter fun path =>
        path ∈ collectUnknown "" ∅ (set.toValue message) (.object object)) ↔
      path ∈ raw.marks "" ∧ path ∈ collectUnknown "" ∅ (set.toValue message) (.object object) := by
    simp [mem_recorded]
  rw [readRaw_of_wellNamed hnames]
  unfold Clear
  rw [hobject, readNormalised]
  simp only [htype, knows_iff.mpr hknown, if_true]
  unfold readKnown
  rw [checkPinned_returnsIf.returns hheld]
  simp only [Fallible.ok_bind, hfrom, Except.mapError, List.isEmpty_iff]
  constructor
  · intro hclear
    rw [if_pos (List.eq_nil_iff_forall_not_mem.mpr fun path hpath =>
      hclear path ((hmem path).mp hpath).1 ((hmem path).mp hpath).2)]
    rfl
  · intro path hmark hlost
    have hrefused := (hmem path).mpr ⟨hmark, hlost⟩
    rw [if_neg (List.ne_nil_of_mem hrefused)]
    exact ⟨_, hrefused, rfl⟩

/-- A message of a known type read as one is held to what its type is, is what its set reads of
it, and is clear. -/
theorem held_of_readRaw (hnames : raw.WellNamed) (hobject : raw.value = .object object)
    (htype : Json.get object "type" = some (.string typeName))
    (hknown : typeName ∈ set.knownTypes) (hread : readRaw set raw = .ok (.message message)) :
    HeldTo object (raw.marks "") (set.criticality typeName) ∧
      set.fromValue (.object object) = .ok message ∧ Clear "" (set.toValue message) raw := by
  have hheld : HeldTo object (raw.marks "") (set.criticality typeName) := by
    by_contra hnot
    have hfaults : ∃ fault, readKnown set typeName object (recorded ∅ (raw.marks "")) =
        .error fault := readKnown_fault_iff.mpr (.inl hnot)
    obtain ⟨fault, hfault⟩ := hfaults
    rw [readRaw_of_wellNamed hnames, hobject, readNormalised] at hread
    simp only [htype, knows_iff.mpr hknown, if_true, hfault] at hread
    cases hread
  have hfrom : set.fromValue (.object object) = .ok message := by
    have hknownRead := hread
    rw [readRaw_of_wellNamed hnames, hobject, readNormalised] at hknownRead
    simp only [htype, knows_iff.mpr hknown, if_true] at hknownRead
    unfold readKnown at hknownRead
    rw [checkPinned_returnsIf.returns hheld, Fallible.ok_bind] at hknownRead
    cases hback : set.fromValue (.object object) with
    | error detail =>
        rw [hback] at hknownRead
        cases hknownRead
    | ok found =>
        rw [hback] at hknownRead
        simp only [Except.mapError, Fallible.ok_bind] at hknownRead
        split at hknownRead <;> cases hknownRead
        rfl
  refine ⟨hheld, hfrom, fun path hmark hlost => ?_⟩
  obtain ⟨members, -, hrefused⟩ :=
    (readRaw_held hnames hobject htype hknown hheld hfrom).2 path hmark hlost
  rw [hread] at hrefused
  cases hrefused

end Bliti.Channel.Envelope
