import Bliti.Channel.Envelope.Kept

/-!
# The message envelope - what is a fault

When reading a message stops at the envelope, told from the message itself: how its member
names are to be written, which of them are critical, and what the message is once they are
in lower case.
-/

namespace Bliti.Channel.Envelope

open Std (ExtTreeSet)
open Fallible (ReturnsIf)

variable {φ T : Type}

/-! ## A message and its names -/

mutual

/-- A message with every member name in lower case. -/
def Raw.value : Raw φ → Json φ
  | .object entries => .object (Json.collect (entriesValue entries))
  | .array items => .array (itemsValue items)
  | .other value _ => value
termination_by structural raw => raw

/-- The entries of an object in lower case. -/
def entriesValue : List (String × Raw φ) → Json.Map φ
  | [] => []
  | entry :: rest => entryValue entry :: entriesValue rest
termination_by structural entries => entries

/-- One entry in lower case. -/
def entryValue : String × Raw φ → String × Json φ
  | (name, raw) => (name.toLower, raw.value)
termination_by structural entry => entry

/-- The items of an array in lower case. -/
def itemsValue : List (Raw φ) → List (Json φ)
  | [] => []
  | item :: rest => item.value :: itemsValue rest
termination_by structural items => items

end

/-- An entry in lower case is named so. -/
@[simp]
theorem entryValue_fst (entry : String × Raw φ) : (entryValue entry).1 = entry.1.toLower := by
  obtain ⟨name, raw⟩ := entry
  rw [entryValue]

mutual

/-- At every depth the member names are letters, digits and hyphens in one case, and no
object has two that differ in case at most. -/
def Raw.WellNamed : Raw φ → Prop
  | .object entries =>
      (entries.map fun entry => entry.1.toLower).Nodup ∧ EntriesWellNamed entries
  | .array items => ItemsWellNamed items
  | .other _ _ => True
termination_by structural raw => raw

/-- The names of entries and below them are well formed. -/
def EntriesWellNamed : List (String × Raw φ) → Prop
  | [] => True
  | entry :: rest => EntryWellNamed entry ∧ EntriesWellNamed rest
termination_by structural entries => entries

/-- The name of an entry and those below it are well formed. -/
def EntryWellNamed : String × Raw φ → Prop
  | (name, raw) => (classify name).isSome = true ∧ raw.WellNamed
termination_by structural entry => entry

/-- The names below items are well formed. -/
def ItemsWellNamed : List (Raw φ) → Prop
  | [] => True
  | item :: rest => item.WellNamed ∧ ItemsWellNamed rest
termination_by structural items => items

end

mutual

/-- The paths of the members written in upper case, at any depth. -/
def Raw.marks (path : String) : Raw φ → List String
  | .object entries => entriesMarks path entries
  | .array items => itemsMarks path 0 items
  | .other _ _ => []
termination_by structural raw => raw

/-- Those of some entries and below them. -/
def entriesMarks (path : String) : List (String × Raw φ) → List String
  | [] => []
  | entry :: rest => entryMarks path entry ++ entriesMarks path rest
termination_by structural entries => entries

/-- Those of an entry and below it. -/
def entryMarks (path : String) : String × Raw φ → List String
  | (name, raw) =>
      (if classify name = some true then [below path name.toLower] else []) ++
        raw.marks (below path name.toLower)
termination_by structural entry => entry

/-- Those below the items of an array from a position on. -/
def itemsMarks (path : String) (index : Nat) : List (Raw φ) → List String
  | [] => []
  | item :: rest =>
      item.marks (below path (toString index)) ++ itemsMarks path (index + 1) rest
termination_by structural items => items

end

/-! ## Checking names -/

/-- Some paths recorded beside others. -/
def recorded (critical : Paths) (paths : List String) : Paths :=
  paths.foldl (fun critical path => critical.insert path) critical

theorem recorded_append (critical : Paths) (paths later : List String) :
    recorded critical (paths ++ later) = recorded (recorded critical paths) later :=
  List.foldl_append

/-- What is recorded. -/
theorem mem_recorded {critical : Paths} {paths : List String} {p : String} :
    p ∈ recorded critical paths ↔ p ∈ critical ∨ p ∈ paths := by
  unfold recorded
  induction paths generalizing critical with
  | nil => simp
  | cons path rest ih =>
      rw [List.foldl_cons, ih, ExtTreeSet.mem_insert, Std.compare_eq_iff_eq, List.mem_cons]
      tauto

mutual

/-- Checking the names of a message passes exactly where they are well formed, and leaves it
in lower case with the paths of those in upper case. -/
theorem normalise_returnsIf (raw : Raw φ) (path : String) (critical : Paths) :
    ReturnsIf raw.WellNamed (raw.value, recorded critical (raw.marks path))
      (normalise path critical raw) := by
  cases raw with
  | object entries =>
      rw [normalise, Raw.value, Raw.marks, Raw.WellNamed]
      have hentries := normaliseEntries_returnsIf entries path critical ∅ []
      exact (hentries.congr (by simp)).bind_returns rfl
  | array items =>
      rw [normalise, Raw.value, Raw.marks, Raw.WellNamed]
      exact (normaliseItems_returnsIf items path critical 0).bind_returns rfl
  | other value hscalar =>
      rw [normalise, Raw.value, Raw.marks, Raw.WellNamed]
      exact .pure

/-- Checking entries passes exactly where their names are well formed and new. -/
theorem normaliseEntries_returnsIf (entries : List (String × Raw φ)) (path : String)
    (critical : Paths) (seen : ExtTreeSet String) (object : Json.Map φ) :
    ReturnsIf (((entries.map fun entry => entry.1.toLower).Nodup ∧ EntriesWellNamed entries) ∧
        ∀ entry ∈ entries, entry.1.toLower ∉ seen)
      (Json.insertAll object (entriesValue entries),
        recorded critical (entriesMarks path entries))
      (normaliseEntries path critical seen object entries) := by
  cases entries with
  | nil =>
      rw [normaliseEntries, entriesValue, entriesMarks, EntriesWellNamed]
      exact ReturnsIf.pure.congr (by simp)
  | cons entry rest =>
      rw [normaliseEntries, entriesValue, entriesMarks, EntriesWellNamed, recorded_append]
      refine ((normaliseEntry_returnsIf entry path critical seen).bind
        (normaliseEntries_returnsIf rest path _ _ _)).congr ?_
      simp only [List.map_cons, List.nodup_cons, List.forall_mem_cons, entryValue_fst,
        ExtTreeSet.mem_insert, Std.compare_eq_iff_eq, not_or, List.mem_map, not_exists, not_and]
      constructor
      · intro hall
        obtain ⟨⟨⟨hnew, hdistinct⟩, hentry, hrest⟩, hunseen, hothers⟩ := hall
        exact ⟨⟨hentry, hunseen⟩, ⟨hdistinct, hrest⟩, fun other hother =>
          ⟨fun hsame => hnew other hother hsame.symm, hothers other hother⟩⟩
      · intro hall
        obtain ⟨⟨hentry, hunseen⟩, ⟨hdistinct, hrest⟩, hothers⟩ := hall
        exact ⟨⟨⟨fun other hother hsame => (hothers other hother).1 hsame.symm, hdistinct⟩,
          hentry, hrest⟩, hunseen, fun other hother => (hothers other hother).2⟩

/-- Checking an entry passes exactly where its name is well formed and new, and those below
it are well formed. -/
theorem normaliseEntry_returnsIf (entry : String × Raw φ) (path : String) (critical : Paths)
    (seen : ExtTreeSet String) :
    ReturnsIf (EntryWellNamed entry ∧ entry.1.toLower ∉ seen)
      ((entryValue entry).1, (entryValue entry).2, recorded critical (entryMarks path entry))
      (normaliseEntry path critical seen entry) := by
  obtain ⟨name, raw⟩ := entry
  rw [normaliseEntry, entryValue, entryMarks, EntryWellNamed]
  cases hname : classify name with
  | none => exact ReturnsIf.fail.congr (by simp)
  | some isCritical =>
      simp only [recorded_append]
      by_cases hseen : name.toLower ∈ seen
      · rw [if_pos hseen]
        exact ReturnsIf.fail.congr (by simp [hseen])
      · rw [if_neg hseen]
        refine ReturnsIf.congr ?_ (q := _) (p := raw.WellNamed) (by simp [hseen])
        have hmarked : (if isCritical then critical.insert (below path name.toLower)
            else critical) = recorded critical (if some isCritical = some true then
              [below path name.toLower] else []) := by
          cases isCritical <;> rfl
        rw [hmarked]
        exact (normalise_returnsIf raw _ _).bind_returns rfl

/-- Checking items passes exactly where the names below them are well formed. -/
theorem normaliseItems_returnsIf (items : List (Raw φ)) (path : String) (critical : Paths)
    (index : Nat) :
    ReturnsIf (ItemsWellNamed items)
      (itemsValue items, recorded critical (itemsMarks path index items))
      (normaliseItems path critical index items) := by
  cases items with
  | nil =>
      rw [normaliseItems, itemsValue, itemsMarks, ItemsWellNamed]
      exact .pure
  | cons item rest =>
      rw [normaliseItems, itemsValue, itemsMarks, ItemsWellNamed, recorded_append]
      exact (normalise_returnsIf item _ critical).bind
        ((normaliseItems_returnsIf rest path _ (index + 1)).bind_returns rfl)

end

/-- A value of plain names arrives with well-formed names, and is itself in lower case. -/
theorem ofJson_wellNamed {value : Json φ} (hkept : Kept value) :
    (Raw.ofJson value).WellNamed ∧ (Raw.ofJson value).value = value := by
  have hread : normalise "" ∅ (Raw.ofJson value) = .ok (value, ∅) := normalise_ofJson value hkept "" ∅
  have hnormal := normalise_returnsIf (Raw.ofJson value) "" ∅
  have hnames : (Raw.ofJson value).WellNamed := by
    by_contra hnot
    obtain ⟨fault, hfault⟩ := hnormal.fails hnot
    rw [hread] at hfault
    cases hfault
  have hvalue := hnormal.returns hnames
  rw [hread, Except.ok.injEq, Prod.mk.injEq] at hvalue
  exact ⟨hnames, hvalue.1.symm⟩

/-! ## Names in upper case -/

/-- A critical name is that of its lower case in upper case. -/
theorem toUpper_of_critical {name : String} (hname : classify name = some true) :
    name.toLower.toUpper = name := by
  obtain ⟨-, -, hupper, hcase⟩ := classify_eq_some.mp hname
  have hlower : name.toList.any Char.isLower = false := by
    simpa [hupper] using hcase
  rw [List.any_eq_false] at hlower
  apply String.toList_inj.mp
  have hlist : name.toLower.toUpper.toList = (name.toList.map Char.toLower).map Char.toUpper := by
    rw [String.toUpper, String.toList_map, String.toLower, String.toList_map]
  rw [hlist, List.map_map]
  conv_rhs => rw [← List.map_id name.toList]
  apply List.map_congr_left
  intro c hc
  exact (Char.toUpper_toLower_eq_toUpper c).trans (Char.toUpper_eq_of_not_isLower (hlower c hc))

/-- A name below a path goes on from it past a point. -/
theorem dotted_below {path name : String} (hpath : path ≠ "") : '.' ∈ (below path name).toList := by
  have hempty : path.isEmpty = false := by
    simpa using hpath
  rw [below, hempty]
  simp

/-- A name below a path is not empty. -/
theorem below_ne {path name : String} (hpath : path ≠ "") : below path name ≠ "" := by
  intro hnil
  have hdot : '.' ∈ (below path name).toList := dotted_below hpath
  rw [hnil] at hdot
  simp at hdot

mutual

/-- The names below a path are those past a point. -/
theorem dotted_of_marks (raw : Raw φ) {path p : String} (hpath : path ≠ "")
    (hp : p ∈ raw.marks path) : '.' ∈ p.toList := by
  cases raw with
  | object entries =>
      rw [Raw.marks] at hp
      exact dotted_of_entriesMarks entries hpath hp
  | array items =>
      rw [Raw.marks] at hp
      exact dotted_of_itemsMarks items hpath hp
  | other value hscalar =>
      rw [Raw.marks] at hp
      cases hp

theorem dotted_of_entriesMarks (entries : List (String × Raw φ)) {path p : String}
    (hpath : path ≠ "") (hp : p ∈ entriesMarks path entries) : '.' ∈ p.toList := by
  cases entries with
  | nil =>
      rw [entriesMarks] at hp
      cases hp
  | cons entry rest =>
      rw [entriesMarks, List.mem_append] at hp
      rcases hp with hentry | hrest
      · exact dotted_of_entryMarks entry hpath hentry
      · exact dotted_of_entriesMarks rest hpath hrest

theorem dotted_of_entryMarks (entry : String × Raw φ) {path p : String} (hpath : path ≠ "")
    (hp : p ∈ entryMarks path entry) : '.' ∈ p.toList := by
  obtain ⟨name, raw⟩ := entry
  rw [entryMarks, List.mem_append] at hp
  rcases hp with hname | hbelow
  · split at hname
    · rw [List.mem_singleton.mp hname]
      exact dotted_below hpath
    · cases hname
  · exact dotted_of_marks raw (below_ne hpath) hbelow

theorem dotted_of_itemsMarks (items : List (Raw φ)) {path p : String} {index : Nat}
    (hpath : path ≠ "") (hp : p ∈ itemsMarks path index items) : '.' ∈ p.toList := by
  cases items with
  | nil =>
      rw [itemsMarks] at hp
      cases hp
  | cons item rest =>
      rw [itemsMarks, List.mem_append] at hp
      rcases hp with hitem | hrest
      · exact dotted_of_marks item (below_ne hpath) hitem
      · exact dotted_of_itemsMarks rest hpath hrest

end

/-- A well-formed name is not empty in lower case. -/
theorem toLower_ne {name : String} (hname : (classify name).isSome = true) :
    name.toLower ≠ "" := by
  obtain ⟨critical, hname⟩ := Option.isSome_iff_exists.mp hname
  intro hnil
  have hplain := plain_toLower hname
  rw [hnil] at hplain
  cases hplain

/-- A member of a message itself is marked where its name is written in upper case. -/
theorem mem_entriesMarks {entries : List (String × Raw φ)} {name : String}
    (hnames : EntriesWellNamed entries) (hname : '.' ∉ name.toList) :
    name ∈ entriesMarks "" entries ↔
      ∃ entry ∈ entries, classify entry.1 = some true ∧ entry.1.toLower = name := by
  induction entries with
  | nil => simp [entriesMarks]
  | cons entry rest ih =>
      obtain ⟨written, raw⟩ := entry
      rw [EntriesWellNamed, EntryWellNamed] at hnames
      obtain ⟨⟨hwritten, -⟩, hrest⟩ := hnames
      have hbelow : name ∉ raw.marks written.toLower := fun hmark =>
        hname (dotted_of_marks raw (toLower_ne hwritten) hmark)
      have hpath : below "" written.toLower = written.toLower := rfl
      rw [entriesMarks, entryMarks, hpath, List.mem_append, List.mem_append, ih hrest,
        List.exists_mem_cons_iff]
      simp only [hbelow, or_false]
      by_cases hcritical : classify written = some true
      · simp [hcritical, eq_comm]
      · simp [hcritical]

/-! ## Faults -/

/-- What is critical on a message is what its type is held to: nothing but some members, and
those wherever the message carries them. -/
def HeldTo (object : Json.Map φ) (marks : List String) : Criticality → Prop
  | .unconstrained => True
  | .exactly required => (∀ path ∈ marks, path ∈ required) ∧
      ∀ name ∈ required, (Json.get object name).isSome = true → name ∈ marks

/-- Checking what is critical on a message passes exactly where it is what its type is held
to. -/
theorem checkPinned_returnsIf {typeName : String} {object : Json.Map φ} {marks : List String}
    {pinned : Criticality} :
    ReturnsIf (HeldTo object marks pinned) ()
      (checkPinned typeName object (recorded ∅ marks) pinned) := by
  cases pinned with
  | unconstrained => exact .pure
  | exactly required =>
      have hmem : ∀ path, path ∈ recorded ∅ marks ↔ path ∈ marks := by
        intro path
        rw [mem_recorded]
        simp
      have hsurplus : ((recorded ∅ marks).toList.filter fun path => !required.contains path) = [] ↔
          ∀ path ∈ marks, path ∈ required := by
        simp [List.filter_eq_nil_iff, hmem]
      have hplain : (required.filter fun name =>
            (Json.get object name).isSome && !(recorded ∅ marks).contains name) = [] ↔
          ∀ name ∈ required, (Json.get object name).isSome = true → name ∈ marks := by
        simp [List.filter_eq_nil_iff, hmem]
      rw [checkPinned, HeldTo]
      simp only [Bool.not_eq_true', List.isEmpty_eq_false_iff, ne_eq, hsurplus, hplain]
      split
      · rename_i hfirst
        exact ReturnsIf.fail.congr (iff_of_false (fun hheld => hfirst hheld.1) id)
      · rename_i hfirst
        split
        · rename_i hsecond
          exact ReturnsIf.fail.congr (iff_of_false (fun hheld => hsecond hheld.2) id)
        · rename_i hsecond
          exact ReturnsIf.pure.congr
            (iff_of_true ⟨not_not.mp hfirst, not_not.mp hsecond⟩ trivial)

/-- What stops a message at the envelope, given which objects a type takes: its names, its
shape, its type, what is critical on it, or its members. -/
inductive Faulty (set : MessageSet φ T) (takes : String → Json.Map φ → Prop) (raw : Raw φ) : Prop
  | names (hnames : ¬ raw.WellNamed)
  | shape (hshape : ∀ object, raw.value ≠ .object object)
  | untyped {object : Json.Map φ} (hobject : raw.value = .object object)
      (htype : ∀ typeName, Json.get object "type" ≠ some (.string typeName))
  | marked {object : Json.Map φ} {typeName : String} (hobject : raw.value = .object object)
      (htype : Json.get object "type" = some (.string typeName))
      (hknown : typeName ∈ set.knownTypes)
      (hmarks : ¬ HeldTo object (raw.marks "") (set.criticality typeName))
  | members {object : Json.Map φ} {typeName : String} (hobject : raw.value = .object object)
      (htype : Json.get object "type" = some (.string typeName))
      (hknown : typeName ∈ set.knownTypes) (hmembers : ¬ takes typeName object)

variable {set : MessageSet φ T} {raw : Raw φ}

/-- A message of well-formed names is read of what it is in lower case. -/
theorem readRaw_of_wellNamed (hnames : raw.WellNamed) :
    readRaw set raw = readNormalised set raw.value (recorded ∅ (raw.marks "")) := by
  unfold readRaw
  rw [(normalise_returnsIf raw "" ∅).returns hnames]
  rfl

/-- A type is known where it is listed. -/
theorem knows_iff {typeName : String} : set.knows typeName = true ↔ typeName ∈ set.knownTypes :=
  List.contains_iff_mem

/-- Reading a message of a known type stops at the envelope exactly where what is critical on it
is not what its type is held to, or its object is not one of the type. -/
theorem readKnown_fault_iff {typeName : String} {object : Json.Map φ} {marks : List String} :
    (∃ fault, readKnown set typeName object (recorded ∅ marks) = .error fault) ↔
      ¬ HeldTo object marks (set.criticality typeName) ∨
        ¬ ∃ message, set.fromValue (.object object) = .ok message := by
  have hpinned : ReturnsIf (HeldTo object marks (set.criticality typeName)) ()
      (checkPinned typeName object (recorded ∅ marks) (set.criticality typeName)) :=
    checkPinned_returnsIf
  unfold readKnown
  by_cases hheld : HeldTo object marks (set.criticality typeName)
  · rw [hpinned.returns hheld, Fallible.ok_bind]
    cases hparsed : set.fromValue (.object object) with
    | error detail => simp [hheld, Except.mapError]
    | ok message =>
        simp only [Except.mapError, Fallible.ok_bind]
        split <;> simp [hheld, pure, Except.pure]
  · obtain ⟨fault, hfault⟩ := hpinned.fails hheld
    rw [hfault, Fallible.error_bind]
    exact iff_of_true ⟨fault, rfl⟩ (.inl hheld)

/-- A message of a known type stops at the envelope exactly where something about it does. -/
theorem readTyped_fault_iff {takes : String → Json.Map φ → Prop} {object : Json.Map φ}
    {typeName : String} (hnames : raw.WellNamed) (hobject : raw.value = .object object)
    (htype : Json.get object "type" = some (.string typeName))
    (htakes : typeName ∈ set.knownTypes →
      ((∃ message, set.fromValue (.object object) = .ok message) ↔ takes typeName object)) :
    (∃ fault, readNormalised set raw.value (recorded ∅ (raw.marks "")) = .error fault) ↔
      Faulty set takes raw := by
  have hsame : ∀ other otherName, raw.value = .object other →
      Json.get other "type" = some (.string otherName) → other = object ∧ otherName = typeName := by
    intro other otherName hother hname
    rw [hobject, Json.object.injEq] at hother
    rw [← hother, htype] at hname
    cases hname
    exact ⟨hother.symm, rfl⟩
  rw [hobject, readNormalised]
  simp only [htype]
  by_cases hknown : typeName ∈ set.knownTypes
  · rw [if_pos (knows_iff.mpr hknown), readKnown_fault_iff, htakes hknown]
    constructor
    · intro hstops
      rcases hstops with hmarks | hmembers
      · exact .marked hobject htype hknown hmarks
      · exact .members hobject htype hknown hmembers
    · intro hfaulty
      cases hfaulty with
      | names hmisnamed => exact absurd hnames hmisnamed
      | shape hshape => exact absurd hobject (hshape object)
      | untyped hother huntyped =>
          rw [hobject, Json.object.injEq] at hother
          exact absurd htype (hother ▸ huntyped typeName)
      | marked hother hname _ hmarks =>
          obtain ⟨rfl, rfl⟩ := hsame _ _ hother hname
          exact .inl hmarks
      | members hother hname _ hmembers =>
          obtain ⟨rfl, rfl⟩ := hsame _ _ hother hname
          exact .inr hmembers
  · rw [if_neg (knows_iff.not.mpr hknown)]
    apply iff_of_false
    · intro hfault
      obtain ⟨fault, hfault⟩ := hfault
      split at hfault <;> cases hfault
    · intro hfaulty
      cases hfaulty with
      | names hmisnamed => exact hmisnamed hnames
      | shape hshape => exact hshape object hobject
      | untyped hother huntyped =>
          rw [hobject, Json.object.injEq] at hother
          exact absurd htype (hother ▸ huntyped typeName)
      | marked hother hname hnamed _ =>
          obtain ⟨rfl, rfl⟩ := hsame _ _ hother hname
          exact hknown hnamed
      | members hother hname hnamed _ =>
          obtain ⟨rfl, rfl⟩ := hsame _ _ hother hname
          exact hknown hnamed

/-- A message stops at the envelope exactly where something about it does. -/
theorem readRaw_fault_iff {takes : String → Json.Map φ → Prop}
    (htakes : ∀ object typeName, Json.get object "type" = some (.string typeName) →
      typeName ∈ set.knownTypes →
      ((∃ message, set.fromValue (.object object) = .ok message) ↔ takes typeName object)) :
    (∃ fault, readRaw set raw = .error fault) ↔ Faulty set takes raw := by
  by_cases hnames : raw.WellNamed
  · rw [readRaw_of_wellNamed hnames]
    by_cases hshape : ∃ object, raw.value = .object object
    · obtain ⟨object, hobject⟩ := hshape
      by_cases htyped : ∃ typeName, Json.get object "type" = some (.string typeName)
      · obtain ⟨typeName, htype⟩ := htyped
        exact readTyped_fault_iff hnames hobject htype (htakes object typeName htype)
      · rw [not_exists] at htyped
        refine iff_of_true ?_ (.untyped hobject htyped)
        rw [hobject, readNormalised]
        split
        · exact ⟨_, rfl⟩
        · exact absurd ‹_› (htyped _)
        · exact ⟨_, rfl⟩
    · rw [not_exists] at hshape
      refine iff_of_true ⟨.notObject, ?_⟩ (.shape hshape)
      unfold readNormalised
      split
      · exact absurd ‹_› (hshape _)
      · rfl
  · refine iff_of_true ?_ (.names hnames)
    obtain ⟨fault, hfault⟩ := (normalise_returnsIf raw "" ∅).fails hnames
    refine ⟨fault, ?_⟩
    unfold readRaw
    rw [hfault]
    rfl

/-- A message of a type that is not known, with well-formed names. -/
structure Unknown (set : MessageSet φ T) (entries : List (String × Raw φ)) (typeName : String) :
    Prop where
  names : (Raw.object entries).WellNamed
  typed : Json.get (Json.collect (entriesValue entries)) "type" = some (.string typeName)
  unknown : typeName ∉ set.knownTypes

variable {entries : List (String × Raw φ)} {typeName : String}

/-- The `type` of a message is marked where it is in upper case. -/
theorem type_mem_marks (hnames : EntriesWellNamed entries) :
    "type" ∈ recorded ∅ ((Raw.object entries).marks "") ↔ ∃ member, ("TYPE", member) ∈ entries := by
  rw [mem_recorded, Raw.marks, mem_entriesMarks hnames (by decide)]
  constructor
  · intro hmark
    rcases hmark with hnone | hsome
    · simp at hnone
    · obtain ⟨⟨name, member⟩, hentry, hcritical, hlower⟩ := hsome
      have hname : "type".toUpper = name := hlower ▸ toUpper_of_critical hcritical
      have htype : "type".toUpper = "TYPE" := by
        apply String.toList_inj.mp
        rw [String.toUpper, String.toList_map]
        decide
      exact ⟨member, htype ▸ hname ▸ hentry⟩
  · intro hupper
    obtain ⟨member, hentry⟩ := hupper
    have hcritical : classify "TYPE" = some true := by decide
    have hlower : "TYPE".toLower = "type" := by
      apply String.toList_inj.mp
      rw [String.toLower, String.toList_map]
      decide
    exact .inr ⟨_, hentry, hcritical, hlower⟩

/-- A message of a type that is not known never stops at the envelope: its `type` in upper case
refuses it, and else it is skipped. -/
theorem readRaw_unknown (hunknown : Unknown set entries typeName) :
    (readRaw set (.object entries) = .ok (.refused (.criticalType typeName)) ∧
        ∃ member, ("TYPE", member) ∈ entries) ∨
      (readRaw set (.object entries) = .ok (.skipped (.unknownType typeName)) ∧
        ¬ ∃ member, ("TYPE", member) ∈ entries) := by
  obtain ⟨hnames, htype, hunknown⟩ := hunknown
  have hknows : set.knows typeName = false := by
    rw [← Bool.not_eq_true, knows_iff]
    exact hunknown
  have hentries := hnames
  rw [Raw.WellNamed] at hentries
  rw [readRaw_of_wellNamed hnames, ← type_mem_marks hentries.2, Raw.value, readNormalised]
  simp only [htype, hknows, Bool.false_eq_true, if_false]
  by_cases hupper : "type" ∈ recorded ∅ ((Raw.object entries).marks "")
  · exact .inl ⟨if_pos hupper, hupper⟩
  · exact .inr ⟨if_neg hupper, hupper⟩

/-- A known type is never refused or skipped as one that is not. -/
theorem readKnown_ne {object : Json.Map φ} {critical : Paths} {reading : Reading T}
    {name other : String} (hread : readKnown set name object critical = .ok reading) :
    reading ≠ .refused (.criticalType other) ∧ reading ≠ .skipped (.unknownType other) := by
  unfold readKnown at hread
  obtain ⟨_, -, hread⟩ := Fallible.bind_ok.mp hread
  obtain ⟨message, -, hread⟩ := Fallible.bind_ok.mp hread
  simp only at hread
  split at hread <;> cases hread <;> simp

/-- What is read is read of an object by its type. -/
theorem readNormalised_ok {value : Json φ} {critical : Paths} {reading : Reading T}
    (hread : readNormalised set value critical = .ok reading) :
    ∃ object name, value = .object object ∧ Json.get object "type" = some (.string name) ∧
      ((∃ critical, readKnown set name object critical = .ok reading) ∨
        name ∉ set.knownTypes ∧ (reading = .refused (.criticalType name) ∨
          reading = .skipped (.unknownType name))) := by
  unfold readNormalised at hread
  split at hread
  · rename_i object
    split at hread
    · cases hread
    · rename_i name htype
      refine ⟨object, name, rfl, htype, ?_⟩
      split at hread
      · exact .inl ⟨_, hread⟩
      · rename_i hunknown
        rw [knows_iff] at hunknown
        split at hread
        · exact .inr ⟨hunknown, .inl (Except.ok.inj hread).symm⟩
        · exact .inr ⟨hunknown, .inr (Except.ok.inj hread).symm⟩
    · cases hread
  · cases hread

/-- What is refused or skipped for its type is a message of a type that is not known. -/
theorem unknown_of_readRaw {reading : Reading T} (hread : readRaw set raw = .ok reading)
    (hreading : reading = .refused (.criticalType typeName) ∨
      reading = .skipped (.unknownType typeName)) :
    ∃ entries, raw = .object entries ∧ Unknown set entries typeName := by
  have hnames : raw.WellNamed := by
    by_contra hnames
    obtain ⟨fault, hfault⟩ := (normalise_returnsIf raw "" ∅).fails hnames
    unfold readRaw at hread
    rw [hfault] at hread
    cases hread
  rw [readRaw_of_wellNamed hnames] at hread
  obtain ⟨object, name, hobject, htype, hcases⟩ := readNormalised_ok hread
  have hname : name = typeName ∧ name ∉ set.knownTypes := by
    rcases hcases with ⟨critical, hknown⟩ | ⟨hunknown, hsame⟩
    · have hne : reading ≠ .refused (.criticalType typeName) ∧
          reading ≠ .skipped (.unknownType typeName) := readKnown_ne hknown
      rcases hreading with hrefused | hskipped
      · exact absurd hrefused hne.1
      · exact absurd hskipped hne.2
    · refine ⟨?_, hunknown⟩
      rcases hreading with rfl | rfl <;> rcases hsame with hsame | hsame <;> cases hsame <;> rfl
  obtain ⟨rfl, hunknown⟩ := hname
  cases raw with
  | object entries =>
      rw [Raw.value] at hobject
      cases hobject
      exact ⟨entries, rfl, hnames, htype, hunknown⟩
  | array items =>
      rw [Raw.value] at hobject
      cases hobject
  | other value hscalar =>
      rw [Raw.value] at hobject
      rw [hobject] at hscalar
      cases hscalar

/-! ## Messages off a stream -/

/-- Bytes are the text of a message. -/
def Parsed (fromStr : String → Except String (Raw φ)) (bytes : ByteArray) (raw : Raw φ) : Prop :=
  ∃ text, String.fromUTF8? bytes = some text ∧ fromStr text = .ok raw

variable {fromStr : String → Except String (Raw φ)} {bytes : ByteArray}

/-- Bytes are read as the message they are the text of. -/
theorem read_of_parsed (hparsed : Parsed fromStr bytes raw) :
    read set fromStr bytes = readRaw set raw := by
  obtain ⟨text, htext, hraw⟩ := hparsed
  simp only [read, htext, hraw, Except.mapError, Fallible.ok_bind]

/-- Bytes are no text, no JSON, or the text of one message. -/
theorem parsed_or (fromStr : String → Except String (Raw φ)) (bytes : ByteArray) :
    String.fromUTF8? bytes = none ∨
      (∃ text detail, String.fromUTF8? bytes = some text ∧ fromStr text = .error detail) ∨
      ∃ raw, Parsed fromStr bytes raw := by
  cases htext : String.fromUTF8? bytes with
  | none => exact .inl rfl
  | some text =>
      cases hraw : fromStr text with
      | error detail => exact .inr (.inl ⟨text, detail, rfl, hraw⟩)
      | ok raw => exact .inr (.inr ⟨raw, text, htext, hraw⟩)

/-- Bytes are the text of one message at most. -/
theorem Parsed.unique {other : Raw φ} (hone : Parsed fromStr bytes raw)
    (hother : Parsed fromStr bytes other) : other = raw := by
  obtain ⟨text, htext, hraw⟩ := hone
  obtain ⟨again, hagain, hother⟩ := hother
  rw [htext] at hagain
  cases hagain
  rw [hraw] at hother
  exact (Except.ok.inj hother).symm

/-- Bytes stop at the envelope exactly where they are no text, no JSON, or a message something
about which stops it. -/
theorem read_fault_iff {takes : String → Json.Map φ → Prop}
    (htakes : ∀ object typeName, Json.get object "type" = some (.string typeName) →
      typeName ∈ set.knownTypes →
      ((∃ message, set.fromValue (.object object) = .ok message) ↔ takes typeName object)) :
    (∃ fault, read set fromStr bytes = .error fault) ↔
      String.fromUTF8? bytes = none ∨
      (∃ text detail, String.fromUTF8? bytes = some text ∧ fromStr text = .error detail) ∨
      ∃ raw, Parsed fromStr bytes raw ∧ Faulty set takes raw := by
  rcases parsed_or fromStr bytes with hnone | ⟨text, detail, htext, hraw⟩ | ⟨raw, hparsed⟩
  · exact iff_of_true ⟨.notUtf8, by simp only [read, hnone]⟩ (.inl hnone)
  · refine iff_of_true ⟨.notJson detail, ?_⟩ (.inr (.inl ⟨text, detail, htext, hraw⟩))
    simp only [read, htext, hraw, Except.mapError, Fallible.error_bind]
  · rw [read_of_parsed hparsed, readRaw_fault_iff htakes]
    constructor
    · intro hfaulty
      exact .inr (.inr ⟨raw, hparsed, hfaulty⟩)
    · intro hstops
      obtain ⟨text, htext, hraw⟩ := hparsed
      rcases hstops with hnone | ⟨other, detail, hother, hfails⟩ | ⟨other, hother, hfaulty⟩
      · rw [hnone] at htext
        cases htext
      · rw [htext] at hother
        cases hother
        rw [hraw] at hfails
        cases hfails
      · exact Parsed.unique ⟨text, htext, hraw⟩ hother ▸ hfaulty

/-- What is read of bytes without a fault is read of the message they are the text of. -/
theorem parsed_of_read {reading : Reading T} (hread : read set fromStr bytes = .ok reading) :
    ∃ raw, Parsed fromStr bytes raw ∧ readRaw set raw = .ok reading := by
  rcases parsed_or fromStr bytes with hnone | ⟨text, detail, htext, hraw⟩ | ⟨raw, hparsed⟩
  · simp only [read, hnone] at hread
    cases hread
  · simp only [read, htext, hraw, Except.mapError, Fallible.error_bind] at hread
    cases hread
  · exact ⟨raw, hparsed, by rw [← read_of_parsed hparsed, hread]⟩

/-- Bytes are refused for their type exactly where it is not known and `type` is in upper case,
and skipped for it where it is not known and `type` is not. -/
theorem read_unknown_iff :
    (read set fromStr bytes = .ok (.refused (.criticalType typeName)) ↔
        ∃ entries, Parsed fromStr bytes (.object entries) ∧ Unknown set entries typeName ∧
          ∃ member, ("TYPE", member) ∈ entries) ∧
      (read set fromStr bytes = .ok (.skipped (.unknownType typeName)) ↔
        ∃ entries, Parsed fromStr bytes (.object entries) ∧ Unknown set entries typeName ∧
          ¬ ∃ member, ("TYPE", member) ∈ entries) := by
  constructor
  · constructor
    · intro hread
      obtain ⟨raw, hparsed, hraw⟩ := parsed_of_read hread
      obtain ⟨entries, rfl, hunknown⟩ := unknown_of_readRaw hraw (.inl rfl)
      rcases readRaw_unknown hunknown with ⟨-, hupper⟩ | ⟨hskipped, -⟩
      · exact ⟨entries, hparsed, hunknown, hupper⟩
      · rw [hraw] at hskipped
        cases hskipped
    · intro hunknown
      obtain ⟨entries, hparsed, hunknown, hupper⟩ := hunknown
      rw [read_of_parsed hparsed]
      exact ((readRaw_unknown hunknown).resolve_right fun hskipped => hskipped.2 hupper).1
  · constructor
    · intro hread
      obtain ⟨raw, hparsed, hraw⟩ := parsed_of_read hread
      obtain ⟨entries, rfl, hunknown⟩ := unknown_of_readRaw hraw (.inr rfl)
      rcases readRaw_unknown hunknown with ⟨hrefused, -⟩ | ⟨-, hlower⟩
      · rw [hraw] at hrefused
        cases hrefused
      · exact ⟨entries, hparsed, hunknown, hlower⟩
    · intro hunknown
      obtain ⟨entries, hparsed, hunknown, hlower⟩ := hunknown
      rw [read_of_parsed hparsed]
      exact ((readRaw_unknown hunknown).resolve_left fun hrefused => hlower hrefused.2).1

end Bliti.Channel.Envelope
