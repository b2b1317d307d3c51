import Bliti.Library.Loops
import Std.Data.ExtTreeMap
import Std.Data.ExtTreeSet

/-!
# Ordered maps - values, positions and loops over entries

Ordered maps are `Std.ExtTreeMap`: two of them are equal exactly when they hold
the same entries.  This module adds what a program that walks its maps in key
order needs to know.

Main results:

- Theorem `values_eq_map_snd_toList` and `mem_values_iff`: the values in key
  order are those of the entries.
- Theorem `getElem?_values_of_keys_lt`: the values of a map whose keys are the
  numbers below `n` are its entries by position.
- Theorem `foldl_invariant_of_toList`: the invariant rule of a loop over a map's
  entries, where no key comes twice.
-/

namespace OrderedMap

open Std (ExtTreeMap ExtTreeSet ExtDTreeMap TransOrd LawfulEqOrd)

variable {α β : Type*} [Ord α] [TransOrd α]

/-- The values of a map are those of its entries, in key order. -/
theorem values_eq_map_snd_toList (t : ExtTreeMap α β) :
    t.values = t.toList.map Prod.snd := by
  have hfoldr : t.values = t.foldr (fun _ value rest => value :: rest) [] := by
    rcases t with ⟨t⟩
    induction t using ExtDTreeMap.inductionOn with
    | _ t => rfl
  rw [hfoldr, ExtTreeMap.foldr_eq_foldr_toList]
  induction t.toList with
  | nil => rfl
  | cons entry rest ih => simp [ih]

/-- A value of a map is the value at some key. -/
theorem mem_values_iff [LawfulEqOrd α] {t : ExtTreeMap α β} {value : β} :
    value ∈ t.values ↔ ∃ key : α, t[key]? = some value := by
  simp [values_eq_map_snd_toList]

/-- Looking a key up after an insertion. -/
theorem getElem?_insert_ite [LawfulEqOrd α] [DecidableEq α] {t : ExtTreeMap α β}
    {key other : α} {value : β} :
    (t.insert key value)[other]? = if key = other then some value else t[other]? := by
  simp only [ExtTreeMap.getElem?_insert, Std.compare_eq_iff_eq]

/-- Looking up another key is not changed by an insertion. -/
theorem getElem?_insert_of_ne [LawfulEqOrd α] {t : ExtTreeMap α β} {key other : α}
    {value : β} (hne : key ≠ other) : (t.insert key value)[other]? = t[other]? := by
  classical
  rw [getElem?_insert_ite, if_neg hne]

/-- The keys after an insertion. -/
theorem mem_insert_iff [LawfulEqOrd α] {t : ExtTreeMap α β} {key other : α} {value : β} :
    other ∈ t.insert key value ↔ key = other ∨ other ∈ t := by
  rw [ExtTreeMap.mem_insert, Std.compare_eq_iff_eq]

/-- Inserting an entry a map holds leaves the map as it is. -/
theorem insert_of_getElem? [LawfulEqOrd α] {t : ExtTreeMap α β} {key : α} {value : β}
    (hvalue : t[key]? = some value) : t.insert key value = t := by
  classical
  apply ExtTreeMap.ext_getElem?
  intro other
  rw [getElem?_insert_ite]
  split
  · rename_i hsame
    rw [← hsame, hvalue]
  · rfl

/-- Erasing a key a map does not hold leaves the map as it is. -/
theorem erase_of_getElem? [LawfulEqOrd α] {t : ExtTreeMap α β} {key : α}
    (hnone : t[key]? = none) : t.erase key = t := by
  apply ExtTreeMap.ext_getElem?
  intro other
  rw [ExtTreeMap.getElem?_erase]
  split
  · rename_i hsame
    rw [← Std.compare_eq_iff_eq.mp hsame, hnone]
  · rfl

/-- Erasing what a set does not hold leaves the set as it is. -/
theorem erase_of_notMem [LawfulEqOrd α] {t : ExtTreeSet α} {key : α} (hnone : key ∉ t) :
    t.erase key = t := by
  apply ExtTreeSet.ext_mem
  intro other
  rw [ExtTreeSet.mem_erase]
  refine and_iff_right_of_imp fun hin hsame => hnone ?_
  rwa [Std.compare_eq_iff_eq.mp hsame]

/-- What a map holds after entries are inserted, it held before or was
inserted. -/
theorem mem_of_getElem?_insertMany [LawfulEqOrd α] [DecidableEq α] {t : ExtTreeMap α β}
    {entries : List (α × β)} {key : α} {value : β}
    (hvalue : (t.insertMany entries)[key]? = some value) :
    t[key]? = some value ∨ (key, value) ∈ entries := by
  induction entries generalizing t with
  | nil => exact .inl hvalue
  | cons entry rest ih =>
      rw [show entry = (entry.1, entry.2) from rfl, ExtTreeMap.insertMany_cons] at hvalue
      rcases ih hvalue with hbefore | hrest
      · rw [getElem?_insert_ite] at hbefore
        split at hbefore
        · rename_i hkey
          right
          rw [← hkey, ← Option.some.inj hbefore]
          exact List.mem_cons_self
        · exact .inl hbefore
      · exact .inr (List.mem_cons_of_mem _ hrest)

/-- What a map of a list holds is one of the list's entries. -/
theorem mem_of_getElem?_ofList [LawfulEqOrd α] [DecidableEq α] {entries : List (α × β)}
    {key : α} {value : β}
    (hvalue : (ExtTreeMap.ofList entries compare)[key]? = some value) :
    (key, value) ∈ entries := by
  rw [ExtTreeMap.ofList_eq_insertMany_empty] at hvalue
  rcases mem_of_getElem?_insertMany hvalue with hempty | hmem
  · simp at hempty
  · exact hmem

/-- No key comes twice among a map's entries. -/
theorem nodup_map_fst_toList (t : ExtTreeMap α β) : (t.toList.map Prod.fst).Nodup := by
  rw [ExtTreeMap.map_fst_toList_eq_keys]
  exact ExtTreeMap.nodup_keys

/-- Maps that hold the same keys list them alike. -/
theorem keys_eq_of_mem_iff [LawfulEqOrd α] {γ : Type*} {t : ExtTreeMap α β}
    {u : ExtTreeMap α γ} (hkeys : ∀ key, key ∈ t ↔ key ∈ u) : t.keys = u.keys := by
  have hperm : t.keys.Perm u.keys := by
    rw [List.perm_ext_iff_of_nodup ExtTreeMap.nodup_keys ExtTreeMap.nodup_keys]
    intro key
    rw [ExtTreeMap.mem_keys, ExtTreeMap.mem_keys, hkeys]
  refine hperm.eq_of_pairwise (fun a b _ _ hab hba => ?_) ExtTreeMap.ordered_keys
    ExtTreeMap.ordered_keys
  rw [Std.OrientedCmp.gt_of_lt hab] at hba
  cases hba

/-- The values of a map are those its keys are looked up to. -/
theorem values_eq_filterMap_keys [LawfulEqOrd α] (t : ExtTreeMap α β) :
    t.values = t.keys.filterMap fun key => t[key]? := by
  rw [values_eq_map_snd_toList, ← ExtTreeMap.map_fst_toList_eq_keys, List.filterMap_map,
    ← List.filterMap_eq_map]
  refine List.filterMap_congr ?_
  rintro ⟨key, value⟩ hentry
  have hvalue : t[key]? = some value := by simpa using hentry
  exact hvalue.symm

/-- The invariant rule of a loop over a map's entries: each key is new to the
entries taken before it. -/
theorem foldl_invariant_of_toList [LawfulEqOrd α] {γ : Type*} (t : ExtTreeMap α β)
    (step : γ → α × β → γ) (Inv : List (α × β) → γ → Prop) (init : γ)
    (hinit : Inv [] init)
    (hstep : ∀ taken key value acc, t[key]? = some value →
      (∀ entry ∈ taken, t[entry.1]? = some entry.2 ∧ entry.1 ≠ key) →
      Inv taken acc → Inv (taken ++ [(key, value)]) (step acc (key, value))) :
    Inv t.toList (t.toList.foldl step init) := by
  refine Loops.foldl_invariant_of_prefix step t.toList Inv init hinit ?_
  rintro taken ⟨key, value⟩ rest acc hsplit hinv
  have hmem : ∀ entry ∈ t.toList, t[entry.1]? = some entry.2 := by
    rintro ⟨k, v⟩ hentry
    simpa using hentry
  have hnodup := nodup_map_fst_toList t
  rw [hsplit, List.map_append, List.nodup_append] at hnodup
  refine hstep taken key value acc (hmem (key, value) (by simp [hsplit])) ?_ hinv
  intro entry hentry
  refine ⟨hmem entry (by simp [hsplit, hentry]), ?_⟩
  exact hnodup.2.2 _ (List.mem_map_of_mem hentry) _ (by simp)

/-- A map whose keys are the numbers below `n` lists them in order. -/
theorem keys_eq_range {t : ExtTreeMap Nat β} {n : Nat}
    (hkeys : ∀ key, key ∈ t ↔ key < n) : t.keys = List.range n := by
  have hsorted : t.keys.Pairwise (· < ·) := by
    have hordered := ExtTreeMap.ordered_keys (t := t)
    simpa [Nat.compare_eq_lt] using hordered
  have hperm : t.keys.Perm (List.range n) := by
    rw [List.perm_ext_iff_of_nodup ExtTreeMap.nodup_keys List.nodup_range]
    intro key
    rw [ExtTreeMap.mem_keys, hkeys, List.mem_range]
  exact hperm.eq_of_pairwise (fun a b _ _ hab hba => absurd hab (by omega)) hsorted
    List.pairwise_lt_range

/-- The values of a map whose keys are the numbers below `n` are `n` in number. -/
theorem length_values_of_keys_lt {t : ExtTreeMap Nat β} {n : Nat}
    (hkeys : ∀ key, key ∈ t ↔ key < n) : t.values.length = n := by
  have hlength := congrArg List.length (keys_eq_range hkeys)
  rw [← ExtTreeMap.map_fst_toList_eq_keys] at hlength
  simpa [values_eq_map_snd_toList] using hlength

/-- The values of a map whose keys are the numbers below `n` are its entries by
position. -/
theorem getElem?_values_of_keys_lt {t : ExtTreeMap Nat β} {n : Nat}
    (hkeys : ∀ key, key ∈ t ↔ key < n) (i : Nat) : t.values[i]? = t[i]? := by
  by_cases hi : i < n
  · have hfst : (t.toList.map Prod.fst)[i]? = some i := by
      rw [ExtTreeMap.map_fst_toList_eq_keys, keys_eq_range hkeys]
      simp [hi]
    rw [List.getElem?_map, Option.map_eq_some_iff] at hfst
    obtain ⟨⟨key, value⟩, hentry, rfl⟩ := hfst
    have hvalue : t[key]? = some value := by
      simpa using List.mem_of_getElem? hentry
    rw [values_eq_map_snd_toList, List.getElem?_map, hentry, hvalue]
    rfl
  · have hnone : t[i]? = none := by
      rw [← hkeys] at hi
      simpa using hi
    rw [hnone, List.getElem?_eq_none_iff, length_values_of_keys_lt hkeys]
    omega

end OrderedMap
