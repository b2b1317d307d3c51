import Mathlib.Data.List.Basic
import Mathlib.Data.List.Count
import Mathlib.Data.List.Nodup

/-!
# Matchings - equal entries of two lists, paired by a scan

A scan down one list that gives each entry the first entry equal to it of another list that
is still free.  Which entries are left over is a matter of how many equal ones come before
them, so a scan down either list leaves the same entries of the other over.

Main results:

- Theorem `free_set`: marking a place taken is taking it out of those that are free.
- Theorem `seek_eq_none_iff`: an entry finds nothing where as many equal to it were sought
  before it as there are.
- Theorem `mem_seek_iff`: an entry is found where fewer equal to it come before it than are
  sought.
- Theorem `seek_eq_none_iff_not_mem`: what a scan down one list leaves over is what a scan
  down the other does not find.
-/

namespace Matching

variable {α : Type*} [BEq α]

/-- Whether the entry at a place equals a value. -/
def Holds (pool : List α) (a : α) (place : Nat) : Bool :=
  pool[place]?.any (· == a)

/-- Give each value the first free place whose entry equals it. -/
def seek (pool : List α) : List α → List Nat → List (Option Nat)
  | [], _ => []
  | a :: rest, free =>
      match free.find? (Holds pool a) with
      | some place => some place :: seek pool rest (free.erase place)
      | none => none :: seek pool rest free

variable {pool seekers : List α} {places : List Nat}

/-! ## Places marked taken -/

/-- The places below one that are not marked taken. -/
def free (taken : List Bool) (n : Nat) : List Nat :=
  (List.range n).filter fun place => !(taken[place]?.getD false)

/-- Where nothing is marked taken, every place is free. -/
@[simp] theorem free_replicate (n : Nat) : free (List.replicate n false) n = List.range n := by
  rw [free, List.filter_eq_self]
  intro place hplace
  simp [List.mem_range.mp hplace]

/-- The first place not marked taken that meets a condition is the first free one that does. -/
theorem find?_free (taken : List Bool) (n : Nat) (p : Nat → Bool) :
    (List.range n).find? (fun place => !(taken[place]?.getD false) && p place) =
      (free taken n).find? p := by
  rw [free, List.find?_filter]
  congr 1
  funext place
  rw [Bool.eq_iff_iff]
  simp

/-- A place marked taken is free no longer, and the others stay as they are. -/
theorem free_set {taken : List Bool} {n place : Nat} (hlength : taken.length = n)
    (hplace : place < n) : free (taken.set place true) n = (free taken n).erase place := by
  have hnodup : (free taken n).Nodup := List.nodup_range.filter _
  rw [hnodup.erase_eq_filter, free, free, List.filter_filter]
  apply List.filter_congr
  intro other _
  by_cases hsame : place = other
  · subst hsame
    have hset : (taken.set place true)[place]? = some true :=
      List.getElem?_set_self (hlength ▸ hplace)
    simp [hset]
  · simp [List.getElem?_set_ne hsame, Ne.symm hsame]

/-! ## Equality -/

/-- A scan comes to one answer for each value. -/
@[simp] theorem seek_length : (seek pool seekers places).length = seekers.length := by
  induction seekers generalizing places with
  | nil => rfl
  | cons a rest ih =>
      simp only [seek]
      split <;> simp [ih]

/-- As many places before one equal a value as entries before it do. -/
theorem countP_range (a : α) (n : Nat) :
    (List.range n).countP (Holds pool a) = (pool.take n).countP (· == a) := by
  induction n with
  | zero => simp
  | succ n ih =>
      rw [List.range_succ, List.countP_append, ih, List.take_add_one, List.countP_append]
      cases hentry : pool[n]? <;> simp [Holds, hentry]

/-- The places of a list fall into those before one, it, and the others. -/
theorem range_eq_append_cons {n length : Nat} (hn : n < length) :
    ∃ post, List.range length = List.range n ++ n :: post := by
  obtain ⟨k, rfl⟩ := Nat.exists_eq_add_of_lt hn
  exact ⟨_, by rw [Nat.add_assoc, List.range_add, List.range_succ_eq_map, List.map_cons,
    Nat.add_zero]⟩

section

variable [PartialEquivBEq α]

/-- A value equal to one of two equal ones is equal to the other. -/
theorem beq_congr_left {a b c : α} (hequal : (a == b) = true) : (a == c) = (b == c) := by
  rw [Bool.eq_iff_iff]
  exact ⟨fun h => PartialEquivBEq.trans (PartialEquivBEq.symm hequal) h,
    fun h => PartialEquivBEq.trans hequal h⟩

/-- An entry that equals one value equals exactly those equal to it. -/
theorem holds_congr {a b : α} {place : Nat} (hholds : Holds pool a place = true) :
    Holds pool b place = (a == b) := by
  obtain ⟨entry, hentry, hequal⟩ := (Option.any_eq_true _ _).mp hholds
  simp only [Holds, hentry, Option.any_some]
  exact beq_congr_left hequal

/-- Equal values are equal to as many places. -/
theorem countP_holds_congr {a b : α} (hequal : (a == b) = true) :
    places.countP (Holds pool a) = places.countP (Holds pool b) := by
  apply List.countP_congr
  intro place _
  constructor
  · intro hholds
    rw [holds_congr hholds, hequal]
  · intro hholds
    rw [holds_congr hholds, BEq.comm, hequal]

/-- Taking a place that equals a value leaves one place fewer to those equal to it. -/
theorem countP_erase_add {a b : α} {place : Nat} (hmem : place ∈ places)
    (hholds : Holds pool a place = true) :
    (places.erase place).countP (Holds pool b) + (if a == b then 1 else 0) =
      places.countP (Holds pool b) := by
  rw [(List.perm_cons_erase hmem).countP_eq, List.countP_cons, holds_congr hholds]

/-! ## What is left over -/

/-- A value finds nothing exactly where as many equal to it were sought before it as there are
places that equal it. -/
theorem seek_eq_none_iff {a : α} {k : Nat} (ha : seekers[k]? = some a) :
    (seek pool seekers places)[k]? = some none ↔
      places.countP (Holds pool a) ≤ (seekers.take k).countP (· == a) := by
  induction seekers generalizing places k with
  | nil => simp at ha
  | cons first rest ih =>
      cases hfind : places.find? (Holds pool first) with
      | none =>
          have hfree : places.countP (Holds pool first) = 0 := by
            rw [List.countP_eq_zero]
            exact fun place hplace => List.find?_eq_none.mp hfind place hplace
          simp only [seek, hfind]
          cases k with
          | zero =>
              obtain rfl : first = a := by simpa using ha
              simp [hfree]
          | succ k =>
              rw [List.getElem?_cons_succ, ih (by simpa using ha), List.take_succ_cons,
                List.countP_cons]
              split
              · rename_i hequal
                rw [← countP_holds_congr hequal, hfree]
                simp
              · simp
      | some place =>
          have hplace := List.mem_of_find?_eq_some hfind
          have hholds := List.find?_some hfind
          simp only [seek, hfind]
          cases k with
          | zero =>
              obtain rfl : first = a := by simpa using ha
              have hsome : 0 < places.countP (Holds pool first) :=
                List.countP_pos_iff.mpr ⟨place, hplace, hholds⟩
              simp only [List.getElem?_cons_zero, List.take_zero, List.countP_nil]
              constructor
              · intro hnone
                cases hnone
              · intro hle
                omega
          | succ k =>
              rw [List.getElem?_cons_succ, ih (by simpa using ha), List.take_succ_cons,
                List.countP_cons, ← countP_erase_add (b := a) hplace hholds]
              omega

/-- A free place is found exactly where fewer places before it equal its entry than are sought. -/
theorem mem_seek_iff {a : α} {pre post : List Nat} {place : Nat} (ha : pool[place]? = some a)
    (hnodup : (pre ++ place :: post).Nodup) :
    some place ∈ seek pool seekers (pre ++ place :: post) ↔
      pre.countP (Holds pool a) < seekers.countP (· == a) := by
  have hself (b : α) : Holds pool b place = (a == b) := by simp [Holds, ha]
  induction seekers generalizing pre post with
  | nil => simp [seek]
  | cons first rest ih =>
      cases hpre : pre.find? (Holds pool first) with
      | some earlier =>
          have hmem := List.mem_of_find?_eq_some hpre
          have hholds := List.find?_some hpre
          have hne : earlier ≠ place := by
            rintro rfl
            exact (List.nodup_append.mp hnodup).2.2 _ hmem _ (List.mem_cons_self) rfl
          have hfind : (pre ++ place :: post).find? (Holds pool first) = some earlier := by
            rw [List.find?_append, hpre, Option.some_or]
          have herase : (pre ++ place :: post).erase earlier = pre.erase earlier ++ place :: post :=
            List.erase_append_left _ hmem
          have hrest : (pre.erase earlier ++ place :: post).Nodup := herase ▸ hnodup.erase earlier
          simp only [seek, hfind, List.mem_cons, Option.some.injEq, hne.symm, false_or, herase]
          refine (ih hrest).trans ?_
          rw [← countP_erase_add (b := a) hmem hholds, List.countP_cons]
          omega
      | none =>
          have hnone := List.find?_eq_none.mp hpre
          by_cases hhere : (a == first) = true
          · have hfind : (pre ++ place :: post).find? (Holds pool first) = some place := by
              rw [List.find?_append, hpre, Option.none_or, List.find?_cons_of_pos]
              rw [hself, hhere]
            have hfree : pre.countP (Holds pool a) = 0 := by
              rw [countP_holds_congr hhere, List.countP_eq_zero]
              exact hnone
            have hsought : (first == a) = true := by rw [BEq.comm, hhere]
            simp [seek, hfind, hfree, hsought]
          · have hother : (first == a) = false := by
              rw [BEq.comm]
              exact Bool.eq_false_iff.mpr hhere
            have hskip : ¬ Holds pool first place = true := by rw [hself]; exact hhere
            rw [List.countP_cons_of_neg (by simp [hother])]
            cases hpost : post.find? (Holds pool first) with
            | none =>
                have hfind : (pre ++ place :: post).find? (Holds pool first) = none := by
                  rw [List.find?_append, hpre, Option.none_or, List.find?_cons_of_neg hskip, hpost]
                simp only [seek, hfind, List.mem_cons, reduceCtorEq, false_or]
                exact ih hnodup
            | some later =>
                have hmem := List.mem_of_find?_eq_some hpost
                have hfind : (pre ++ place :: post).find? (Holds pool first) = some later := by
                  rw [List.find?_append, hpre, Option.none_or, List.find?_cons_of_neg hskip, hpost]
                have hnot : later ∉ pre := by
                  intro hbefore
                  exact (List.nodup_append.mp hnodup).2.2 _ hbefore _
                    (List.mem_cons_of_mem place hmem) rfl
                have hne : place ≠ later := by
                  rintro rfl
                  exact (List.nodup_cons.mp (List.nodup_append.mp hnodup).2.1).1 hmem
                have herase : (pre ++ place :: post).erase later = pre ++ place :: post.erase later := by
                  rw [List.erase_append_right _ hnot, List.erase_cons_tail (by simpa using hne)]
                have hrest : (pre ++ place :: post.erase later).Nodup := herase ▸ hnodup.erase later
                simp only [seek, hfind, List.mem_cons, Option.some.injEq, hne, false_or, herase]
                exact ih hrest

/-! ## Every place free -/

/-- The values a scan down one list finds nothing for are those a scan down the other does not
find. -/
theorem seek_eq_none_iff_not_mem {olds news : List α} {n : Nat} (hn : n < news.length) :
    (seek olds news (List.range olds.length))[n]? = some none ↔
      some n ∉ seek news olds (List.range news.length) := by
  obtain ⟨a, ha⟩ : ∃ a, news[n]? = some a := ⟨_, List.getElem?_eq_getElem hn⟩
  obtain ⟨post, hsplit⟩ := range_eq_append_cons hn
  have hfound : some n ∈ seek news olds (List.range news.length) ↔
      (news.take n).countP (· == a) < olds.countP (· == a) := by
    have hnodup : (List.range n ++ n :: post).Nodup := hsplit ▸ List.nodup_range
    rw [hsplit, ← countP_range]
    exact mem_seek_iff ha hnodup
  rw [seek_eq_none_iff ha, hfound, countP_range, List.take_length, Nat.not_lt]

/-- Lists with the same entries, in whatever order, leave nothing over. -/
theorem seek_ne_none_of_perm [ReflBEq α] {olds news : List α} (hperm : olds.Perm news) (n : Nat) :
    (seek olds news (List.range olds.length))[n]? ≠ some none := by
  intro hnone
  obtain ⟨hlt, -⟩ := List.getElem?_eq_some_iff.mp hnone
  have hn : n < news.length := by simpa using hlt
  obtain ⟨a, ha⟩ : ∃ a, news[n]? = some a := ⟨_, List.getElem?_eq_getElem hn⟩
  have hdrop : 0 < (news.drop n).countP (· == a) :=
    List.countP_pos_iff.mpr ⟨a, List.mem_of_getElem? (i := 0) (by simpa using ha), BEq.rfl⟩
  have hcount : news.countP (· == a) =
      (news.take n).countP (· == a) + (news.drop n).countP (· == a) := by
    rw [← List.countP_append, List.take_append_drop]
  have hle := (seek_eq_none_iff ha).mp hnone
  rw [countP_range, List.take_length, hperm.countP_eq] at hle
  omega

end

end Matching
