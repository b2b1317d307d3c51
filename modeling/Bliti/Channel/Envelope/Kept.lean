import Bliti.Channel.Envelope.Names
import Mathlib.Data.List.Nodup

/-!
# The message envelope - what is read as it was written

A value of plain names is read as it is, and a message some of whose members are
written in upper case is read as the message.
-/

namespace Bliti.Channel.Envelope

open Std (ExtTreeSet)

variable {φ : Type}

/-! ## JSON as it arrives -/

mutual

/-- A value as it arrives once written. -/
def Raw.ofJson : Json φ → Raw φ
  | .null => .other .null rfl
  | .bool b => .other (.bool b) rfl
  | .number n => .other (.number n) rfl
  | .string s => .other (.string s) rfl
  | .array items => .array (ofItems items)
  | .object members => .object (ofMembers members)
termination_by structural value => value

/-- The items of an array as they arrive. -/
def Raw.ofItems : List (Json φ) → List (Raw φ)
  | [] => []
  | item :: rest => ofJson item :: ofItems rest
termination_by structural items => items

/-- The members of an object as they arrive. -/
def Raw.ofMembers : Json.Map φ → List (String × Raw φ)
  | [] => []
  | member :: rest => ofMember member :: ofMembers rest
termination_by structural members => members

/-- A member as it arrives. -/
def Raw.ofMember : String × Json φ → String × Raw φ
  | (name, value) => (name, ofJson value)
termination_by structural member => member

end

/-! ## Entries read -/

/-- A value read as it is, whatever it is below. -/
def ReadAsIs (value : Json φ) : Prop :=
  ∀ (path : String) (critical : Paths),
    normalise path critical (Raw.ofJson value) = .ok (value, critical)

/-- A member as it is read: in lower case. -/
def lowered (member : String × Json φ) : String × Json φ :=
  (member.1.toLower, member.2)

/-- A path is that of a member marked critical. -/
def Marked (path : String) (members : Json.Map φ) (critical : String) : Prop :=
  ∃ member ∈ members, classify member.1 = some true ∧ critical = below path member.1.toLower

/-- Entries well formed, none named twice whatever the case, are read in lower case with those
critical recorded. -/
theorem normaliseEntries_ofMembers (path : String) (critical : Paths)
    (seen : ExtTreeSet String) (object : Json.Map φ) {members : Json.Map φ}
    (hwell : ∀ member ∈ members, (classify member.1).isSome = true)
    (hvalues : ∀ member ∈ members, ReadAsIs member.2)
    (hfresh : ∀ member ∈ members, member.1.toLower ∉ seen)
    (hdistinct : ((members.map lowered).map Prod.fst).Nodup) :
    ∃ critical', normaliseEntries path critical seen object (Raw.ofMembers members) =
        .ok (Json.insertAll object (members.map lowered), critical') ∧
      ∀ p, p ∈ critical' ↔ p ∈ critical ∨ Marked path members p := by
  induction members generalizing critical seen object with
  | nil => exact ⟨critical, rfl, fun p => by simp [Marked]⟩
  | cons member rest ih =>
      obtain ⟨name, value⟩ := member
      obtain ⟨isCritical, hname⟩ := Option.isSome_iff_exists.mp (hwell _ List.mem_cons_self)
      have hnew : name.toLower ∉ seen := hfresh _ List.mem_cons_self
      rw [List.map_cons, List.map_cons, List.nodup_cons] at hdistinct
      obtain ⟨hnot, hrest⟩ := hdistinct
      have hlater : ∀ member ∈ rest, member.1.toLower ∉ seen.insert name.toLower := by
        intro member hmember hseen
        rcases ExtTreeSet.mem_insert.mp hseen with hsame | hin
        · have heq : name.toLower = member.1.toLower := Std.LawfulEqCmp.eq_of_compare hsame
          refine hnot (List.mem_map.mpr ⟨lowered member, List.mem_map_of_mem hmember, ?_⟩)
          exact heq.symm
        · exact hfresh _ (List.mem_cons_of_mem _ hmember) hin
      let marked : Paths :=
        if isCritical then critical.insert (below path name.toLower) else critical
      obtain ⟨critical', hread, hmarked⟩ := ih marked _ (Json.insert object name.toLower value)
        (fun member hmember => hwell _ (List.mem_cons_of_mem _ hmember))
        (fun member hmember => hvalues _ (List.mem_cons_of_mem _ hmember)) hlater hrest
      refine ⟨critical', ?_, fun p => ?_⟩
      · have hvalue : normalise (below path name.toLower) marked (Raw.ofJson value) =
            .ok (value, marked) := hvalues _ List.mem_cons_self _ _
        have hentry : normaliseEntry path critical seen (Raw.ofMember (name, value)) =
            .ok (name.toLower, value, marked) := by
          rw [Raw.ofMember, normaliseEntry, hname]
          simp only [if_neg hnew]
          rw [hvalue]
          rfl
        rw [Raw.ofMembers, normaliseEntries, hentry]
        exact hread
      · have hinsert : p ∈ marked ↔
            p ∈ critical ∨ isCritical = true ∧ p = below path name.toLower := by
          cases isCritical with
          | false => simp [marked]
          | true =>
              simp only [marked, if_true, ExtTreeSet.mem_insert, Std.LawfulEqCmp.compare_eq_iff_eq,
                true_and]
              rw [or_comm, eq_comm]
        have hmember : Marked path ((name, value) :: rest) p ↔
            (isCritical = true ∧ p = below path name.toLower) ∨ Marked path rest p := by
          simp [Marked, hname]
        rw [hmarked, hinsert, hmember, or_assoc]

/-! ## Values of plain names -/

/-- A value whose objects are in key order, of plain names. -/
def Kept (value : Json φ) : Prop :=
  value.EveryObject fun names => AllPlain names ∧ Json.Ascending names

/-- Plain names are those of an object in lower case. -/
theorem map_lowered {members : Json.Map φ} (hplain : AllPlain (members.map Prod.fst)) :
    members.map lowered = members := by
  conv_rhs => rw [← List.map_id members]
  apply List.map_congr_left
  intro member hmember
  unfold lowered
  rw [toLower_of_plain (hplain _ (List.mem_map_of_mem hmember))]
  rfl

/-- No member of a plain name is marked critical. -/
theorem not_marked {path p : String} {members : Json.Map φ}
    (hplain : AllPlain (members.map Prod.fst)) : ¬ Marked path members p := by
  intro hmarked
  obtain ⟨member, hmember, hcritical, -⟩ := hmarked
  have hname : classify member.1 = some false := hplain _ (List.mem_map_of_mem hmember)
  rw [hname] at hcritical
  cases hcritical

/-- An object kept is kept as a member is set. -/
theorem kept_insert {object : Json.Map φ} {name : String} {value : Json φ}
    (hobject : Kept (.object object)) (hname : Plain name) (hvalue : Kept value) :
    Kept (.object (Json.insert object name value)) := by
  obtain ⟨⟨hplain, hascending⟩, hvalues⟩ := Json.everyObject_object.mp hobject
  apply Json.everyObject_object.mpr
  refine ⟨⟨?_, Json.ascending_insert hascending name value⟩, ?_⟩
  · intro other hother
    rcases Json.mem_names_insert hother with rfl | hin
    · exact hname
    · exact hplain other hin
  · intro member hmember
    rcases Json.mem_insert hmember with rfl | hin
    · exact hvalue
    · exact hvalues member hin

/-- A text is kept. -/
@[simp]
theorem kept_string (s : String) : Kept (φ := φ) (.string s) :=
  trivial

/-- A truth value is kept. -/
@[simp]
theorem kept_bool (b : Bool) : Kept (φ := φ) (.bool b) :=
  trivial

/-- A number is kept. -/
@[simp]
theorem kept_number (n : Number φ) : Kept (.number n) :=
  trivial

/-- An array is kept whose items are. -/
@[simp]
theorem kept_array {items : List (Json φ)} : Kept (.array items) ↔ ∀ item ∈ items, Kept item :=
  Json.everyObject_array

@[simp]
theorem kept_nil : Kept (φ := φ) (.object []) := by
  simp [Kept, AllPlain, Json.Ascending]

/-- An object of some members is kept where their names are plain and their values kept. -/
theorem kept_collect {members : List (String × Json φ)}
    (hnames : AllPlain (members.map Prod.fst)) (hvalues : ∀ member ∈ members, Kept member.2) :
    Kept (.object (Json.collect members)) := by
  apply Json.everyObject_object.mpr
  refine ⟨⟨?_, Json.ascending_collect members⟩, ?_⟩
  · intro name hname
    obtain ⟨member, hmember, rfl⟩ := List.mem_map.mp hname
    exact hnames _ (List.mem_map_of_mem (Json.mem_collect hmember))
  · intro member hmember
    exact hvalues _ (Json.mem_collect hmember)

/-- An object written out is kept where its names are plain and in order and its values kept. -/
theorem kept_object {members : Json.Map φ} (names : List String)
    (hsame : members.map Prod.fst = names) (hnames : AllPlain names ∧ Json.Ascending names)
    (hvalues : ∀ member ∈ members, Kept member.2) : Kept (.object members) :=
  Json.everyObject_object.mpr ⟨hsame ▸ hnames, hvalues⟩

/-- An object kept is kept as members are left out. -/
theorem kept_sublist {members others : Json.Map φ} (hsublist : others.Sublist members)
    (hkept : Kept (.object members)) : Kept (.object others) := by
  obtain ⟨⟨hplain, hascending⟩, hvalues⟩ := Json.everyObject_object.mp hkept
  apply Json.everyObject_object.mpr
  refine ⟨⟨?_, ?_⟩, ?_⟩
  · exact fun name hname => hplain name ((hsublist.map Prod.fst).subset hname)
  · exact List.Pairwise.sublist (hsublist.map Prod.fst) hascending
  · exact fun member hmember => hvalues member (hsublist.subset hmember)

/-- An object kept is kept as members are set where there are values for them. -/
theorem kept_setAll {object : Json.Map φ} {members : List (String × Option (Json φ))}
    (hobject : Kept (.object object)) (hnames : AllPlain (members.map Prod.fst))
    (hvalues : ∀ member ∈ members, ∀ value, member.2 = some value → Kept value) :
    Kept (.object (Json.setAll object members)) := by
  induction members generalizing object with
  | nil => exact hobject
  | cons member rest ih =>
      rw [List.forall_mem_cons] at hvalues
      have hrest : AllPlain (rest.map Prod.fst) :=
        fun name hname => hnames name (List.mem_cons_of_mem _ hname)
      obtain ⟨name, value⟩ := member
      cases value with
      | none => exact ih hobject hrest hvalues.2
      | some value =>
          exact ih (kept_insert hobject (hnames name List.mem_cons_self) (hvalues.1 value rfl))
            hrest hvalues.2

mutual

/-- A value of plain names in key order is read as it is. -/
theorem normalise_ofJson (value : Json φ) (hkept : Kept value) : ReadAsIs value := by
  intro path critical
  cases value with
  | array items =>
      rw [Raw.ofJson, normalise,
        normaliseItems_ofItems items (Json.everyObject_array.mp hkept)]
      rfl
  | object members =>
      obtain ⟨⟨hplain, hascending⟩, hvalues⟩ := Json.everyObject_object.mp hkept
      have hread : ∀ member ∈ members, ReadAsIs member.2 :=
        fun member hmember => readAsIs_member members hvalues member hmember
      obtain ⟨critical', hentries, hmarked⟩ := normaliseEntries_ofMembers path critical ∅ []
        (fun member hmember => by
          rw [hplain _ (List.mem_map_of_mem hmember)]
          rfl)
        hread (by simp) (by rw [map_lowered hplain]; exact hascending.nodup)
      have hsame : critical' = critical := by
        apply ExtTreeSet.ext_mem
        intro p
        rw [hmarked, or_iff_left (not_marked hplain)]
      have hmembers : Json.insertAll [] (members.map lowered) = members := by
        rw [map_lowered hplain]
        exact Json.collect_of_ascending hascending
      rw [Raw.ofJson, normalise, hentries, hmembers, hsame]
      rfl
  | _ => rfl

/-- The items of an array of plain names in key order are read as they are. -/
theorem normaliseItems_ofItems (items : List (Json φ)) (hkept : ∀ item ∈ items, Kept item)
    {path : String} {critical : Paths} {index : Nat} :
    normaliseItems path critical index (Raw.ofItems items) = .ok (items, critical) := by
  cases items with
  | nil => rfl
  | cons item rest =>
      rw [Raw.ofItems, normaliseItems,
        normalise_ofJson item (hkept item List.mem_cons_self), Fallible.ok_bind]
      simp only
      rw [normaliseItems_ofItems rest fun later hlater => hkept later (List.mem_cons_of_mem _ hlater)]
      rfl

/-- The values of an object's members are read as they are. -/
theorem readAsIs_member (members : Json.Map φ) (hkept : ∀ member ∈ members, Kept member.2)
    (member : String × Json φ) (hmember : member ∈ members) : ReadAsIs member.2 := by
  cases members with
  | nil => cases hmember
  | cons first rest =>
      rcases List.mem_cons.mp hmember with hsame | hin
      · rw [hsame]
        exact readAsIs_first first (hkept first List.mem_cons_self)
      · exact readAsIs_member rest (fun later hlater => hkept later (List.mem_cons_of_mem _ hlater))
          member hin

/-- The value of a member is read as it is. -/
theorem readAsIs_first (member : String × Json φ) (hkept : Kept member.2) :
    ReadAsIs member.2 := by
  obtain ⟨name, value⟩ := member
  exact normalise_ofJson value hkept

end

/-! ## Messages with members in upper case -/

/-- A member name that is put in upper case and back. -/
structure Cased (name : String) : Prop where
  plain : Plain name
  critical : classify name.toUpper = some true
  back : name.toUpper.toLower = name

/-- A plain name with a letter is critical in upper case, and comes back from it. -/
theorem cased_of_plain {name : String} (hplain : Plain name)
    (hletter : name.toList.any Char.isLower = true) : Cased name := by
  obtain ⟨hnil, hall, hupper, -⟩ := classify_eq_some.mp hplain
  have hlist : name.toUpper.toList = name.toList.map Char.toUpper := String.toList_map
  have hback : name.toUpper.toLower.toList = name.toUpper.toList.map Char.toLower :=
    String.toList_map
  refine ⟨hplain, classify_eq_some.mpr ⟨?_, ?_, ?_, by simp [any_isLower_toUpper]⟩, ?_⟩
  · rw [hlist]
    simpa using hnil
  · rw [hlist]
    intro c hc
    obtain ⟨c', hc', rfl⟩ := List.mem_map.mp hc
    exact toUpper_ok (hall c' hc')
  · rw [hlist, List.any_map]
    obtain ⟨c, hc, hletter⟩ := List.any_eq_true.mp hletter
    have hupper : c.toUpper.isUpper = true := by
      simp [Char.isAlpha, hletter]
    exact List.any_eq_true.mpr ⟨c, hc, hupper⟩
  · apply String.toList_inj.mp
    rw [hback, hlist, List.map_map]
    conv_rhs => rw [← List.map_id name.toList]
    apply List.map_congr_left
    intro c hc
    rw [List.any_eq_false] at hupper
    exact (Char.toLower_toUpper_eq_toLower c).trans (Char.toLower_eq_of_not_isUpper (hupper c hc))

/-- An object with a member of a new name set holds that one and those it had. -/
theorem perm_insert {map : Json.Map φ} {name : String} {value : Json φ}
    (hnew : name ∉ map.map Prod.fst) : (Json.insert map name value).Perm ((name, value) :: map) := by
  induction map with
  | nil => exact .rfl
  | cons member rest ih =>
      obtain ⟨other, old⟩ := member
      rw [List.map_cons, List.mem_cons, not_or] at hnew
      rw [Json.insert, if_neg fun hsame => hnew.1 hsame.symm]
      split
      · exact .rfl
      · exact ((ih hnew.2).cons _).trans (.swap _ _ _)

/-- An object holds a member of its own and those of other names. -/
theorem perm_remove {map : Json.Map φ} {name : String} {value : Json φ}
    (hnames : (map.map Prod.fst).Nodup) (hget : Json.get map name = some value) :
    map.Perm ((name, value) :: Json.remove map name) := by
  induction map with
  | nil => cases hget
  | cons member rest ih =>
      obtain ⟨other, held⟩ := member
      rw [List.map_cons, List.nodup_cons] at hnames
      rw [Json.get] at hget
      unfold Json.remove at ih ⊢
      split at hget
      · rename_i hsame
        cases hget
        have hrest : (rest.filter fun member => decide (member.1 ≠ name)) = rest := by
          apply List.filter_eq_self.mpr
          intro later hlater
          have hother : later.1 ≠ other := by
            intro heq
            rw [← heq] at hnames
            have hin : later.1 ∈ rest.map Prod.fst := List.mem_map_of_mem hlater
            exact hnames.1 hin
          simpa [← hsame] using hother
        rw [List.filter_cons_of_neg (by simpa using hsame), hrest, hsame]
      · rename_i hother
        rw [List.filter_cons_of_pos (by simpa using hother)]
        exact ((ih hnames.2 hget).cons _).trans (.swap _ _ _)

/-- An object keeps its members, read in lower case, as one of them is put in upper case. -/
theorem perm_upperCased {object : Json.Map φ} {name : String} (hcased : Cased name)
    (hnames : ((object.map lowered).map Prod.fst).Nodup) :
    ((upperCased object name).map lowered).Perm (object.map lowered) := by
  unfold upperCased
  rcases hget : Json.get object name with _ | value
  · exact .rfl
  have hdistinct : (object.map Prod.fst).Nodup := by
    have hmap : (object.map lowered).map Prod.fst = (object.map Prod.fst).map String.toLower := by
      simp [lowered]
    rw [hmap] at hnames
    exact List.Nodup.of_map _ hnames
  have hparts := perm_remove hdistinct hget
  have hnew : name.toUpper ∉ (Json.remove object name).map Prod.fst := by
    intro hin
    have hlowered := (hparts.map lowered).map Prod.fst
    have hnodup := (hlowered.nodup_iff).mp hnames
    rw [List.map_cons, List.map_cons, List.nodup_cons] at hnodup
    obtain ⟨member, hmember, hname⟩ := List.mem_map.mp hin
    refine hnodup.1 (List.mem_map.mpr ⟨lowered member, List.mem_map_of_mem hmember, ?_⟩)
    show member.1.toLower = name.toLower
    rw [hname, hcased.back, toLower_of_plain hcased.plain]
  have hupper : ((Json.insert (Json.remove object name) name.toUpper value).map lowered).Perm
      (((name.toUpper, value) :: Json.remove object name).map lowered) :=
    (perm_insert hnew).map lowered
  have hsame : lowered (name.toUpper, value) = lowered (name, value) := by
    unfold lowered
    rw [hcased.back, toLower_of_plain hcased.plain]
  rw [List.map_cons, hsame] at hupper
  exact hupper.trans (hparts.map lowered).symm

/-- Every member of an object with one put in upper case has a well-formed name, where every
member of the object has. -/
theorem classify_upperCased {object : Json.Map φ} {name : String} (hcased : Cased name)
    (hwell : ∀ member ∈ object, (classify member.1).isSome = true) :
    ∀ member ∈ upperCased object name, (classify member.1).isSome = true := by
  unfold upperCased
  split
  · intro member hmember
    rcases Json.mem_insert hmember with rfl | hin
    · rw [hcased.critical]
      rfl
    · exact hwell member (List.mem_of_mem_filter hin)
  · exact hwell

theorem perm_foldl_upperCased {names : List String} (hcased : ∀ name ∈ names, Cased name)
    {object : Json.Map φ} (hnames : ((object.map lowered).map Prod.fst).Nodup)
    (hwell : ∀ member ∈ object, (classify member.1).isSome = true) :
    ((names.foldl upperCased object).map lowered).Perm (object.map lowered) ∧
      ∀ member ∈ names.foldl upperCased object, (classify member.1).isSome = true := by
  induction names generalizing object with
  | nil => exact ⟨.rfl, hwell⟩
  | cons name rest ih =>
      have hone := hcased name List.mem_cons_self
      have hperm := perm_upperCased hone hnames
      obtain ⟨hrest, hall⟩ := ih (fun later hlater => hcased later (List.mem_cons_of_mem _ hlater))
        (((hperm.map Prod.fst).nodup_iff).mpr hnames) (classify_upperCased hone hwell)
      exact ⟨hrest.trans hperm, hall⟩

/-- Setting the members of an object in key order, in any order, makes the object. -/
theorem collect_of_perm {members object : Json.Map φ} (hperm : members.Perm object)
    (hobject : Json.Ascending (object.map Prod.fst)) : Json.collect members = object := by
  have hnodup : (members.map Prod.fst).Nodup :=
    ((hperm.map Prod.fst).nodup_iff).mpr hobject.nodup
  apply Json.ext_of_ascending (Json.ascending_collect members) hobject
  intro name
  by_cases hin : name ∈ object.map Prod.fst
  · obtain ⟨⟨other, value⟩, hmember, rfl⟩ := List.mem_map.mp hin
    rw [Json.get_of_mem hobject.nodup hmember]
    exact Json.get_insertAll_of_mem hnodup (hperm.mem_iff.mpr hmember)
  · rw [Json.get_eq_none hin]
    exact Json.get_insertAll_of_not_mem fun hname => hin ((hperm.map Prod.fst).mem_iff.mp hname)

/-- An object of plain names written with some members in upper case is read as it was, with
those recorded as critical. -/
theorem normalise_written {names : List String} (hcased : ∀ name ∈ names, Cased name)
    {object : Json.Map φ} (hkept : Kept (.object object)) :
    ∃ critical, normalise "" ∅ (Raw.ofJson (.object (names.foldl upperCased object))) =
        .ok (.object object, critical) ∧
      ∀ p, p ∈ critical ↔ Marked "" (names.foldl upperCased object) p := by
  obtain ⟨⟨hplain, hascending⟩, hvalues⟩ := Json.everyObject_object.mp hkept
  have hsame := map_lowered hplain
  obtain ⟨hperm, hwell⟩ := perm_foldl_upperCased hcased (by rw [hsame]; exact hascending.nodup)
    fun member hmember => by
      rw [hplain _ (List.mem_map_of_mem hmember)]
      rfl
  rw [hsame] at hperm
  obtain ⟨critical, hentries, hmarked⟩ := normaliseEntries_ofMembers "" ∅ ∅ []
    hwell
    (fun member hmember => by
      have hin : lowered member ∈ object := hperm.mem_iff.mp (List.mem_map_of_mem hmember)
      exact normalise_ofJson member.2 (hvalues (lowered member) hin))
    (by simp) (((hperm.map Prod.fst).nodup_iff).mpr hascending.nodup)
  refine ⟨critical, ?_, fun p => by simpa using hmarked p⟩
  have hobject : Json.insertAll [] ((names.foldl upperCased object).map lowered) = object :=
    collect_of_perm hperm hascending
  rw [Raw.ofJson, normalise, hentries, hobject]
  rfl

/-- Of plain names, the one put in upper case is marked critical. -/
theorem marked_upperCased {name p : String} {object : Json.Map φ} {value : Json φ}
    (hcased : Cased name) (hplain : AllPlain (object.map Prod.fst))
    (hget : Json.get object name = some value) : Marked "" (upperCased object name) p ↔ p = name := by
  unfold upperCased
  rw [hget]
  constructor
  · intro hmarked
    obtain ⟨member, hmember, hcritical, rfl⟩ := hmarked
    rcases Json.mem_insert hmember with rfl | hin
    · simp [below, hcased.back]
    · have hname : classify member.1 = some false :=
        hplain _ (List.mem_map_of_mem (List.mem_of_mem_filter hin))
      rw [hname] at hcritical
      cases hcritical
  · intro hp
    refine ⟨(name.toUpper, value), Json.mem_of_get (by simp), hcased.critical, ?_⟩
    simp [below, hcased.back, hp]

/-- What is critical meets what a type is held to, where nothing else is and all of that is. -/
theorem checkPinned_exactly {typeName : String} {object : Json.Map φ} {critical : Paths}
    {required : List String} (honly : ∀ p ∈ critical, p ∈ required)
    (hall : ∀ name ∈ required, name ∈ critical) :
    checkPinned typeName object critical (.exactly required) = .ok () := by
  have hsurplus : (critical.toList.filter fun name => !required.contains name) = [] := by
    rw [List.filter_eq_nil_iff]
    intro p hp
    simpa using honly p (ExtTreeSet.mem_toList.mp hp)
  have hlacking : (required.filter fun name =>
      (Json.get object name).isSome && !critical.contains name) = [] := by
    rw [List.filter_eq_nil_iff]
    intro name hname
    have hin : critical.contains name = true := hall name hname
    simp [hin]
  unfold checkPinned
  simp only [hsurplus, hlacking]
  rfl

/-! ## What comes back as it was -/

mutual

/-- Nothing is unknown of a value in key order that comes back as it was. -/
theorem collectUnknown_self (value : Json φ) {path : String} {out : Paths}
    (hordered : value.EveryObject Json.Ascending) :
    collectUnknown path out value value = out := by
  cases value with
  | array items =>
      rw [collectUnknown]
      exact unknownItems_self items (fun i hi => by simp [hi])
        (Json.everyObject_array.mp hordered)
  | object members =>
      obtain ⟨hascending, hvalues⟩ := Json.everyObject_object.mp hordered
      rw [collectUnknown]
      exact unknownMembers_self members
        (fun member hmember => Json.get_of_mem hascending.nodup hmember) hvalues
  | _ => rfl

/-- Nothing is unknown of members that all come back as they were. -/
theorem unknownMembers_self (members : Json.Map φ) {round : Json.Map φ} {path : String}
    {out : Paths} (hround : ∀ member ∈ members, Json.get round member.1 = some member.2)
    (hordered : ∀ member ∈ members, member.2.EveryObject Json.Ascending) :
    unknownMembers path out round members = out := by
  cases members with
  | nil => rfl
  | cons member rest =>
      rw [unknownMembers, unknownMember_self member (hround _ List.mem_cons_self)
        (hordered _ List.mem_cons_self)]
      exact unknownMembers_self rest
        (fun later hlater => hround _ (List.mem_cons_of_mem _ hlater))
        fun later hlater => hordered _ (List.mem_cons_of_mem _ hlater)

/-- Nothing is unknown of a member that comes back as it was. -/
theorem unknownMember_self (member : String × Json φ) {round : Json.Map φ} {path : String}
    {out : Paths} (hround : Json.get round member.1 = some member.2)
    (hordered : member.2.EveryObject Json.Ascending) :
    unknownMember path out round member = out := by
  obtain ⟨name, value⟩ := member
  rw [unknownMember, hround]
  exact collectUnknown_self value hordered

/-- Nothing is unknown of items that all come back as they were. -/
theorem unknownItems_self (items : List (Json φ)) {round : List (Json φ)} {path : String}
    {out : Paths} {index : Nat}
    (hround : ∀ i, (hi : i < items.length) → round[index + i]? = some (items.get ⟨i, hi⟩))
    (hordered : ∀ item ∈ items, item.EveryObject Json.Ascending) :
    unknownItems path out round index items = out := by
  cases items with
  | nil => rfl
  | cons item rest =>
      have hfirst : round[index]? = some item := hround 0 (by simp)
      rw [unknownItems, hfirst]
      simp only
      rw [collectUnknown_self item (hordered _ List.mem_cons_self)]
      apply unknownItems_self rest
      · intro i hi
        have hlater : round[index + (i + 1)]? = some (rest.get ⟨i, hi⟩) :=
          hround (i + 1) (by simpa using hi)
        rw [← hlater]
        congr 1
        omega
      · exact fun later hlater => hordered _ (List.mem_cons_of_mem _ hlater)

end

/-- A value kept is in key order. -/
theorem Kept.ascending {value : Json φ} (hkept : Kept value) :
    value.EveryObject Json.Ascending :=
  Json.EveryObject.mono (fun _ hnames => hnames.2) value hkept

/-! ## Messages read as they were written -/

variable {T : Type} {set : MessageSet φ T} {message : T} {object : Json.Map φ} {typeName : String}

/-- What goes on a stream of a message is its object with its critical members in upper case. -/
theorem written_object (hvalue : set.toValue message = .object object)
    (htype : Json.get object "type" = some (.string typeName)) :
    written set message = .object ((set.criticalMembers typeName).foldl upperCased object) := by
  unfold written
  rw [hvalue]
  simp [htype, Json.asStr]

/-- A message of plain names that its set reads back is read as it was written, where what is
marked critical of it is what its type is held to. -/
theorem readRaw_written (hvalue : set.toValue message = .object object)
    (hkept : Kept (.object object)) (hback : set.fromValue (.object object) = .ok message)
    (htype : Json.get object "type" = some (.string typeName))
    (hknown : set.knows typeName = true)
    (hcased : ∀ name ∈ set.criticalMembers typeName, Cased name)
    (hpinned : ∀ critical : Paths,
      (∀ p, p ∈ critical ↔
        Marked "" ((set.criticalMembers typeName).foldl upperCased object) p) →
      checkPinned typeName object critical (set.criticality typeName) = .ok ()) :
    readRaw set (Raw.ofJson (written set message)) = .ok (.message message) := by
  rw [written_object hvalue htype]
  obtain ⟨critical, hread, hmarked⟩ := normalise_written hcased hkept
  have hunknown : collectUnknown "" ∅ (.object object) (.object object) = ∅ :=
    collectUnknown_self _ hkept.ascending
  unfold readRaw
  rw [hread, Fallible.ok_bind]
  simp only [readNormalised, htype, hknown, if_true]
  unfold readKnown
  rw [hpinned critical hmarked, Fallible.ok_bind, hback]
  simp only [Except.mapError, Fallible.ok_bind, hvalue, hunknown]
  simp [pure, Except.pure]

/-- The bytes of a text are the text's. -/
theorem fromUTF8?_toByteArray (text : String) : String.fromUTF8? text.toByteArray = some text := by
  unfold String.fromUTF8?
  rw [dif_pos text.isValidUTF8]
  rfl

variable [ToString φ] {fromStr : String → Except String (Raw φ)}

/-- Reading what was written is reading it as it arrives, where the JSON reader reads what is
printed. -/
theorem read_write (hparsed : fromStr (written set message).text =
    .ok (Raw.ofJson (written set message))) :
    read set fromStr (write set message) = readRaw set (Raw.ofJson (written set message)) := by
  unfold read write
  rw [fromUTF8?_toByteArray]
  simp only
  rw [hparsed]
  rfl

end Bliti.Channel.Envelope
