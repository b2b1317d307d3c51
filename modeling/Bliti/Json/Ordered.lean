import Bliti.Json
import Mathlib.Data.String.Basic
import Mathlib.Order.Basic

/-!
# JSON values - objects in key order

The members of an object are held in key order, so that an object is what is found in
it.  Conditions on the names of every object of a value are given at once.
-/

namespace Bliti.Json

variable {φ : Type}

/-! ## Every object of a value -/

mutual

/-- The names of every object of a value meet a condition. -/
def EveryObject (p : List String → Prop) : Json φ → Prop
  | .array items => EveryItem p items
  | .object members => p (members.map Prod.fst) ∧ EveryValue p members
  | _ => True
termination_by structural value => value

/-- Those of every item of an array do. -/
def EveryItem (p : List String → Prop) : List (Json φ) → Prop
  | [] => True
  | item :: rest => EveryObject p item ∧ EveryItem p rest
termination_by structural items => items

/-- Those of the value of every member of an object do. -/
def EveryValue (p : List String → Prop) : Map φ → Prop
  | [] => True
  | member :: rest => EveryMember p member ∧ EveryValue p rest
termination_by structural members => members

/-- Those of the value of a member do. -/
def EveryMember (p : List String → Prop) : String × Json φ → Prop
  | (_, value) => EveryObject p value
termination_by structural member => member

end

/-- Every item meets a condition item by item. -/
theorem everyItem_iff {p : List String → Prop} {items : List (Json φ)} :
    EveryItem p items ↔ ∀ item ∈ items, EveryObject p item := by
  induction items with
  | nil => simp [EveryItem]
  | cons item rest ih => simp [EveryItem, ih]

/-- Every value meets a condition member by member. -/
theorem everyValue_iff {p : List String → Prop} {members : Map φ} :
    EveryValue p members ↔ ∀ member ∈ members, EveryObject p member.2 := by
  induction members with
  | nil => simp [EveryValue]
  | cons member rest ih =>
      obtain ⟨name, value⟩ := member
      simp [EveryValue, EveryMember, ih]

/-- A condition on the objects of an array. -/
@[simp]
theorem everyObject_array {p : List String → Prop} {items : List (Json φ)} :
    EveryObject p (.array items) ↔ ∀ item ∈ items, EveryObject p item := by
  rw [EveryObject, everyItem_iff]

/-- A condition on an object and the objects of its members. -/
@[simp]
theorem everyObject_object {p : List String → Prop} {members : Map φ} :
    EveryObject p (.object members) ↔
      p (members.map Prod.fst) ∧ ∀ member ∈ members, EveryObject p member.2 := by
  rw [EveryObject, everyValue_iff]

/-- A text has no objects. -/
@[simp]
theorem everyObject_string (p : List String → Prop) (s : String) :
    EveryObject (φ := φ) p (.string s) :=
  trivial

/-- A truth value has no objects. -/
@[simp]
theorem everyObject_bool (p : List String → Prop) (b : Bool) :
    EveryObject (φ := φ) p (.bool b) :=
  trivial

/-- A number has no objects. -/
@[simp]
theorem everyObject_number (p : List String → Prop) (n : Number φ) :
    EveryObject p (.number n) :=
  trivial

/-- The null value has no objects. -/
@[simp]
theorem everyObject_null (p : List String → Prop) : EveryObject (φ := φ) p .null :=
  trivial

mutual

theorem EveryObject.mono {p q : List String → Prop} (hweaker : ∀ names, p names → q names)
    (value : Json φ) (hevery : EveryObject p value) : EveryObject q value := by
  cases value with
  | array items =>
      rw [everyObject_array] at hevery ⊢
      exact EveryItem.mono hweaker items hevery
  | object members =>
      rw [everyObject_object] at hevery ⊢
      exact ⟨hweaker _ hevery.1, EveryValue.mono hweaker members hevery.2⟩
  | _ => simp

theorem EveryItem.mono {p q : List String → Prop} (hweaker : ∀ names, p names → q names)
    (items : List (Json φ)) (hevery : ∀ item ∈ items, EveryObject p item) :
    ∀ item ∈ items, EveryObject q item := by
  cases items with
  | nil => simp
  | cons item rest =>
      rw [List.forall_mem_cons] at hevery ⊢
      exact ⟨EveryObject.mono hweaker item hevery.1, EveryItem.mono hweaker rest hevery.2⟩

theorem EveryValue.mono {p q : List String → Prop} (hweaker : ∀ names, p names → q names)
    (members : Map φ) (hevery : ∀ member ∈ members, EveryObject p member.2) :
    ∀ member ∈ members, EveryObject q member.2 := by
  cases members with
  | nil => simp
  | cons member rest =>
      rw [List.forall_mem_cons] at hevery ⊢
      exact ⟨EveryMember.mono hweaker member hevery.1, EveryValue.mono hweaker rest hevery.2⟩

theorem EveryMember.mono {p q : List String → Prop} (hweaker : ∀ names, p names → q names)
    (member : String × Json φ) (hevery : EveryObject p member.2) : EveryObject q member.2 := by
  obtain ⟨name, value⟩ := member
  exact EveryObject.mono hweaker value hevery

end

/-! ## Key order -/

/-- Names in ascending order. -/
def Ascending (names : List String) : Prop :=
  names.Pairwise (· < ·)

instance (names : List String) : Decidable (Ascending names) :=
  inferInstanceAs (Decidable (names.Pairwise (· < ·)))

/-- No two names in ascending order are one. -/
theorem Ascending.nodup {names : List String} (hnames : Ascending names) : names.Nodup :=
  hnames.imp fun hlt => ne_of_lt hlt

/-- The names of an object after a member is set are that one's and those it had. -/
theorem mem_names_insert {map : Map φ} {name other : String} {value : Json φ}
    (hother : other ∈ (insert map name value).map Prod.fst) :
    other = name ∨ other ∈ map.map Prod.fst := by
  obtain ⟨member, hmember, rfl⟩ := List.mem_map.mp hother
  rcases mem_insert hmember with hnew | hold
  · exact .inl (congrArg Prod.fst hnew)
  · exact .inr (List.mem_map.mpr ⟨member, hold, rfl⟩)

/-- An object in key order stays so as a member is set. -/
theorem ascending_insert {map : Map φ} (hmap : Ascending (map.map Prod.fst)) (name : String)
    (value : Json φ) : Ascending ((insert map name value).map Prod.fst) := by
  unfold Ascending at hmap ⊢
  induction map with
  | nil => simp [insert]
  | cons member rest ih =>
      obtain ⟨other, old⟩ := member
      rw [List.map_cons, List.pairwise_cons] at hmap
      obtain ⟨hfirst, hrest⟩ := hmap
      by_cases hsame : other = name
      · rw [insert, if_pos hsame, List.map_cons, List.pairwise_cons]
        exact ⟨fun later hlater => hsame ▸ hfirst later hlater, hrest⟩
      · by_cases hbefore : name < other
        · rw [insert, if_neg hsame, if_pos hbefore, List.map_cons, List.map_cons,
            List.pairwise_cons, List.pairwise_cons]
          refine ⟨fun later hlater => ?_, hfirst, hrest⟩
          rcases List.mem_cons.mp hlater with rfl | hin
          · exact hbefore
          · exact lt_trans hbefore (hfirst later hin)
        · rw [insert, if_neg hsame, if_neg hbefore, List.map_cons, List.pairwise_cons]
          refine ⟨fun later hlater => ?_, ih hrest⟩
          rcases mem_names_insert hlater with rfl | hin
          · exact lt_of_le_of_ne (not_lt.mp hbefore) hsame
          · exact hfirst later hin

/-- An object in key order stays so as some members are set. -/
theorem ascending_insertAll {map : Map φ} (hmap : Ascending (map.map Prod.fst))
    (members : List (String × Json φ)) :
    Ascending ((insertAll map members).map Prod.fst) := by
  induction members generalizing map with
  | nil => exact hmap
  | cons member rest ih => exact ih (ascending_insert hmap member.1 member.2)

/-- An object of some members is in key order. -/
theorem ascending_collect (members : List (String × Json φ)) :
    Ascending ((collect members).map Prod.fst) := by
  have hnil : Ascending (([] : Map φ).map Prod.fst) := List.Pairwise.nil
  exact ascending_insertAll hnil members

/-- A name before every name of an object is not one of its members. -/
theorem get_of_before {map : Map φ} {name : String}
    (hbefore : ∀ other ∈ map.map Prod.fst, name < other) : get map name = none :=
  get_eq_none fun hin => lt_irrefl _ (hbefore name hin)

/-- The first names of two objects in key order that hold the same are one. -/
theorem first_le_of_get {name other : String} {value held : Json φ} {rest rest' : Map φ}
    (hother : Ascending (((other, held) :: rest').map Prod.fst))
    (hget : get ((name, value) :: rest) name = get ((other, held) :: rest') name) :
    other ≤ name := by
  rw [List.map_cons, Ascending, List.pairwise_cons] at hother
  apply not_lt.mp
  intro hbefore
  have hnone : get ((other, held) :: rest') name = none := by
    apply get_of_before
    intro later hlater
    rcases List.mem_cons.mp hlater with hsame | hin
    · rw [hsame]
      exact hbefore
    · exact lt_trans hbefore (hother.1 later hin)
  rw [hnone, get, if_pos rfl] at hget
  cases hget

/-- Objects in key order are equal where the same is found in both. -/
theorem ext_of_ascending {one other : Map φ} (hone : Ascending (one.map Prod.fst))
    (hother : Ascending (other.map Prod.fst)) (hget : ∀ name, get one name = get other name) :
    one = other := by
  induction one generalizing other with
  | nil =>
      cases other with
      | nil => rfl
      | cons member rest =>
          have hfirst := hget member.1
          rw [get, get, if_pos rfl] at hfirst
          cases hfirst
  | cons member rest ih =>
      cases other with
      | nil =>
          have hfirst := hget member.1
          rw [get, get, if_pos rfl] at hfirst
          cases hfirst
      | cons member' rest' =>
          obtain ⟨name, value⟩ := member
          obtain ⟨name', value'⟩ := member'
          have hle : name' ≤ name := first_le_of_get hother (hget name)
          have hge : name ≤ name' := first_le_of_get hone (hget name').symm
          obtain rfl := le_antisymm hge hle
          have hvalue := hget name
          rw [get, get, if_pos rfl, if_pos rfl] at hvalue
          cases hvalue
          rw [List.map_cons, Ascending, List.pairwise_cons] at hone hother
          have hrest : rest = rest' := by
            apply ih hone.2 hother.2
            intro later
            by_cases hsame : name = later
            · rw [← hsame, get_of_before hone.1, get_of_before hother.1]
            · have hlater := hget later
              rw [get, get, if_neg hsame, if_neg hsame] at hlater
              exact hlater
          rw [hrest]

/-- Setting a member past every member of an object puts it at its end. -/
theorem insert_of_after {map : Map φ} {name : String} (value : Json φ)
    (hafter : ∀ other ∈ map.map Prod.fst, other < name) :
    insert map name value = map ++ [(name, value)] := by
  induction map with
  | nil => rfl
  | cons member rest ih =>
      obtain ⟨other, old⟩ := member
      have hfirst : other < name := hafter other (by simp)
      rw [insert, if_neg (ne_of_lt hfirst), if_neg (not_lt.mpr (le_of_lt hfirst)),
        ih fun later hlater => hafter later (List.mem_cons_of_mem _ hlater)]
      rfl

/-- Setting members that follow those of an object in key order puts them at its end. -/
theorem insertAll_of_ascending {map members : Map φ}
    (hascending : Ascending ((map ++ members).map Prod.fst)) :
    insertAll map members = map ++ members := by
  induction members generalizing map with
  | nil => simp [insertAll]
  | cons member rest ih =>
      have hafter : ∀ other ∈ map.map Prod.fst, other < member.1 := by
        rw [List.map_append, Ascending, List.pairwise_append] at hascending
        intro other hother
        exact hascending.2.2 other hother member.1 (by simp)
      have hone : insertAll map (member :: rest) = insertAll (insert map member.1 member.2) rest :=
        rfl
      rw [hone, insert_of_after member.2 hafter, ih (by simpa using hascending)]
      simp

/-- An object in key order is that of its members. -/
theorem collect_of_ascending {members : Map φ} (hascending : Ascending (members.map Prod.fst)) :
    collect members = members := by
  have hall : Ascending (([] ++ members).map Prod.fst) := hascending
  exact insertAll_of_ascending hall

end Bliti.Json
