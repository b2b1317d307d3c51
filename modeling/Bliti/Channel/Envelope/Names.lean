import Bliti.Channel.Envelope
import Bliti.Json.Ordered
import Mathlib

/-!
# The message envelope - the names of members

What checking the member names of a message makes of it.  Whatever is read has lower
case names alone, and a value with such names is read as it was written.
-/

namespace Bliti.Channel.Envelope

open Std (ExtTreeSet)

variable {φ : Type}

/-! ## Lower case names -/

/-- A member name that is well formed and not critical. -/
def Plain (name : String) : Prop :=
  classify name = some false

instance (name : String) : Decidable (Plain name) :=
  inferInstanceAs (Decidable (classify name = some false))

/-- A character a name may hold is one it may hold in lower case. -/
theorem toLower_ok {c : Char} (hc : (c.isAlphanum || c == '-') = true) :
    (c.toLower.isAlphanum || c.toLower == '-') = true := by
  by_cases hupper : c.isUpper = true
  · have halpha : c.toLower.isAlpha = true := by
      simp [Char.isAlpha, hupper]
    simp [Char.isAlphanum, halpha]
  · rwa [Char.toLower_eq_of_not_isUpper hupper]

/-- A character a name may hold is one it may hold in upper case. -/
theorem toUpper_ok {c : Char} (hc : (c.isAlphanum || c == '-') = true) :
    (c.toUpper.isAlphanum || c.toUpper == '-') = true := by
  by_cases hlower : c.isLower = true
  · have halpha : c.toUpper.isAlpha = true := by
      simp [Char.isAlpha, hlower]
    simp [Char.isAlphanum, halpha]
  · rwa [Char.toUpper_eq_of_not_isLower hlower]

/-- No letter of a text in upper case is in lower case. -/
theorem any_isLower_toUpper (text : String) : text.toUpper.toList.any Char.isLower = false := by
  have hlist : text.toUpper.toList = text.toList.map Char.toUpper := String.toList_map
  rw [hlist, List.any_map, List.any_eq_false]
  intro c _
  simp

/-- A name is well formed where it is of letters, digits and hyphens in one case. -/
theorem classify_eq_some {name : String} {critical : Bool} :
    classify name = some critical ↔ name.toList ≠ [] ∧
      (∀ c ∈ name.toList, (c.isAlphanum || c == '-') = true) ∧
      name.toList.any Char.isUpper = critical ∧
      ¬ (name.toList.any Char.isLower = true ∧ name.toList.any Char.isUpper = true) := by
  have hempty : name.isEmpty = true ↔ name.toList = [] := by
    simp
  unfold classify
  split
  · rename_i hnil
    simp [hempty.mp hnil]
  · rename_i hnil
    rw [hempty] at hnil
    split
    · rename_i hall
      rw [Bool.not_eq_true', ← Bool.not_eq_true, List.all_eq_true] at hall
      refine iff_of_false (by simp) fun hform => hall hform.2.1
    · rename_i hall
      rw [Bool.not_eq_true', Bool.not_eq_false, List.all_eq_true] at hall
      split
      · rename_i hlower hupper
        simp [hlower, hupper]
      · rename_i hnot
        rw [Option.some.injEq]
        constructor
        · intro hcritical
          exact ⟨hnil, hall, hcritical, fun hboth => hnot hboth.1 hboth.2⟩
        · intro hform
          exact hform.2.2.1

/-- A well-formed name in lower case is well formed and not critical. -/
theorem plain_toLower {name : String} {critical : Bool} (hname : classify name = some critical) :
    Plain name.toLower := by
  obtain ⟨hnil, hall, -, -⟩ := classify_eq_some.mp hname
  have hlist : name.toLower.toList = name.toList.map Char.toLower := String.toList_map
  have hupper : name.toLower.toList.any Char.isUpper = false := by
    rw [hlist, List.any_map, List.any_eq_false]
    intro c hc
    simp
  apply classify_eq_some.mpr
  refine ⟨?_, ?_, hupper, by simp [hupper]⟩
  · rw [hlist]
    simpa using hnil
  · rw [hlist]
    intro c hc
    obtain ⟨c', hc', rfl⟩ := List.mem_map.mp hc
    exact toLower_ok (hall c' hc')

/-- A name that is not critical is in lower case already. -/
theorem toLower_of_plain {name : String} (hname : Plain name) : name.toLower = name := by
  obtain ⟨-, -, hupper, -⟩ := classify_eq_some.mp hname
  rw [List.any_eq_false] at hupper
  apply String.toList_inj.mp
  have hlist : name.toLower.toList = name.toList.map Char.toLower := String.toList_map
  rw [hlist]
  conv_rhs => rw [← List.map_id name.toList]
  apply List.map_congr_left
  intro c hc
  exact Char.toLower_eq_of_not_isUpper (hupper c hc)

/-! ## Whatever is read -/

/-- Names that are all well formed and not critical. -/
def AllPlain (names : List String) : Prop :=
  ∀ name ∈ names, Plain name

instance (names : List String) : Decidable (AllPlain names) :=
  inferInstanceAs (Decidable (∀ name ∈ names, Plain name))

/-- An object of plain names keeps to them as a member of one is set. -/
theorem everyObject_insert {object : Json.Map φ} {name : String} {value : Json φ}
    (hobject : (Json.object object).EveryObject AllPlain) (hname : Plain name)
    (hvalue : value.EveryObject AllPlain) :
    (Json.object (Json.insert object name value)).EveryObject AllPlain := by
  rw [Json.everyObject_object] at hobject ⊢
  obtain ⟨hnames, hvalues⟩ := hobject
  constructor
  · intro other hother
    rcases Json.mem_names_insert hother with rfl | hin
    · exact hname
    · exact hnames other hin
  · intro member hmember
    rcases Json.mem_insert hmember with rfl | hin
    · exact hvalue
    · exact hvalues member hin

/-- A value that is neither an array nor an object has no objects. -/
theorem everyObject_scalar {p : List String → Prop} {value : Json φ}
    (hscalar : value.isScalar = true) : value.EveryObject p := by
  cases value with
  | array items => cases hscalar
  | object members => cases hscalar
  | _ => simp

mutual

/-- What is read has well-formed lower case names alone. -/
theorem normalise_plain (raw : Raw φ) {path : String} {critical critical' : Paths}
    {value : Json φ} (hread : normalise path critical raw = .ok (value, critical')) :
    value.EveryObject AllPlain := by
  cases raw with
  | object entries =>
      rw [normalise] at hread
      obtain ⟨⟨object, paths⟩, hentries, hpure⟩ := Fallible.bind_ok.mp hread
      cases hpure
      exact normaliseEntries_plain entries hentries (by simp [AllPlain])
  | array items =>
      rw [normalise] at hread
      obtain ⟨⟨out, paths⟩, hitems, hpure⟩ := Fallible.bind_ok.mp hread
      cases hpure
      exact Json.everyObject_array.mpr (normaliseItems_plain items hitems)
  | other held hscalar =>
      rw [normalise] at hread
      cases hread
      exact everyObject_scalar hscalar

/-- An object of plain names keeps to them as its entries are read. -/
theorem normaliseEntries_plain (entries : List (String × Raw φ)) {path : String}
    {critical critical' : Paths} {seen : ExtTreeSet String} {object object' : Json.Map φ}
    (hread : normaliseEntries path critical seen object entries = .ok (object', critical'))
    (hobject : (Json.object object).EveryObject AllPlain) :
    (Json.object object').EveryObject AllPlain := by
  cases entries with
  | nil =>
      rw [normaliseEntries] at hread
      cases hread
      exact hobject
  | cons entry rest =>
      rw [normaliseEntries] at hread
      obtain ⟨⟨lowered, value, paths⟩, hentry, hrest⟩ := Fallible.bind_ok.mp hread
      obtain ⟨hname, hvalue⟩ := normaliseEntry_plain entry hentry
      exact normaliseEntries_plain rest hrest (everyObject_insert hobject hname hvalue)

/-- An entry read has a plain name, and plain names below it. -/
theorem normaliseEntry_plain (entry : String × Raw φ) {path lowered : String}
    {critical critical' : Paths} {seen : ExtTreeSet String} {value : Json φ}
    (hread : normaliseEntry path critical seen entry = .ok (lowered, value, critical')) :
    Plain lowered ∧ value.EveryObject AllPlain := by
  obtain ⟨name, raw⟩ := entry
  rw [normaliseEntry] at hread
  split at hread
  · cases hread
  · rename_i isCritical hname
    simp only at hread
    split at hread
    · cases hread
    · obtain ⟨⟨found, paths⟩, hvalue, hpure⟩ := Fallible.bind_ok.mp hread
      cases hpure
      exact ⟨plain_toLower hname, normalise_plain raw hvalue⟩

/-- Items read have plain names. -/
theorem normaliseItems_plain (items : List (Raw φ)) {path : String}
    {critical critical' : Paths} {index : Nat} {out : List (Json φ)}
    (hread : normaliseItems path critical index items = .ok (out, critical')) :
    ∀ value ∈ out, value.EveryObject AllPlain := by
  cases items with
  | nil =>
      rw [normaliseItems] at hread
      cases hread
      simp
  | cons item rest =>
      rw [normaliseItems] at hread
      obtain ⟨⟨value, paths⟩, hitem, hread⟩ := Fallible.bind_ok.mp hread
      obtain ⟨⟨others, paths⟩, hothers, hpure⟩ := Fallible.bind_ok.mp hread
      cases hpure
      intro other hother
      rcases List.mem_cons.mp hother with rfl | hin
      · exact normalise_plain item hitem
      · exact normaliseItems_plain rest hothers other hin

end

/-- A message read is one its set reads of an object of plain names. -/
theorem message_of_readRaw {T : Type} {set : MessageSet φ T} {raw : Raw φ} {message : T}
    (hread : readRaw set raw = .ok (.message message)) :
    ∃ object, (Json.object object).EveryObject AllPlain ∧
      set.fromValue (.object object) = .ok message := by
  unfold readRaw at hread
  obtain ⟨⟨value, critical⟩, hvalue, hread⟩ := Fallible.bind_ok.mp hread
  cases value with
  | object object =>
      refine ⟨object, normalise_plain raw hvalue, ?_⟩
      simp only [readNormalised] at hread
      split at hread
      · cases hread
      · split at hread
        · unfold readKnown at hread
          obtain ⟨_, -, hread⟩ := Fallible.bind_ok.mp hread
          obtain ⟨parsed, hparsed, hread⟩ := Fallible.bind_ok.mp hread
          simp only at hread
          split at hread
          · cases hread
            cases hback : set.fromValue (.object object) with
            | error detail =>
                rw [hback] at hparsed
                cases hparsed
            | ok found =>
                rw [hback] at hparsed
                cases hparsed
                rfl
          · cases hread
        · split at hread <;> cases hread
      · cases hread
  | _ => cases hread

end Bliti.Channel.Envelope
