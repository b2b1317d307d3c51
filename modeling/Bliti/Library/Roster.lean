import Mathlib.Data.List.Basic
import Mathlib.Data.List.Count

/-!
# Rosters - parties known by their position

The parties of a system that come and go are kept in a list that only grows,
each known by its position in it, and what changes of a party is set in place.
This module gives what such a list is reasoned with: which parties an update
concerns, and how it changes the number of those meeting a condition.

Main results:

- Theorem `getElem?_set_cases`: a party after an update is the one updated, or
  one before.
- Theorem `countP_set_add`: how an update changes a number of parties.
- Theorem `eq_of_countP_le_one`: the one party that meets a condition.
-/

namespace Roster

variable {α : Type*}

/-- A party after an update is the one updated, or was so before. -/
theorem getElem?_set_cases {l : List α} {i j : Nat} {a b : α}
    (hget : (l.set i a)[j]? = some b) : (j = i ∧ b = a) ∨ (j ≠ i ∧ l[j]? = some b) := by
  by_cases hij : i = j
  · left
    subst hij
    rw [List.getElem?_set_self'] at hget
    cases hl : l[i]? with
    | none => simp [hl] at hget
    | some c => exact ⟨rfl, by simpa [hl] using hget.symm⟩
  · right
    rw [List.getElem?_set_ne hij] at hget
    exact ⟨fun h => hij h.symm, hget⟩

/-- A party after another joins is the one that joined, or was there before. -/
theorem getElem?_append_cases {l : List α} {j : Nat} {a b : α}
    (hget : (l ++ [a])[j]? = some b) : (j = l.length ∧ b = a) ∨ l[j]? = some b := by
  rcases Nat.lt_trichotomy j l.length with hlt | heq | hgt
  · right
    rwa [List.getElem?_append_left hlt] at hget
  · left
    subst heq
    simpa [eq_comm] using hget
  · rw [List.getElem?_append_right (by omega)] at hget
    have hone : 0 < j - l.length := by omega
    simp [Nat.ne_of_gt hone] at hget

/-- A party stays where another joins. -/
theorem getElem?_append_of_some {l l' : List α} {i : Nat} {a : α} (hget : l[i]? = some a) :
    (l ++ l')[i]? = some a := by
  rw [List.getElem?_append_left (List.getElem?_eq_some_iff.mp hget).1]
  exact hget

/-- A party meeting the condition is counted. -/
theorem countP_pos_of_getElem? {l : List α} {p : α → Bool} {i : Nat} {a : α}
    (hget : l[i]? = some a) (hp : p a = true) : 0 < l.countP p :=
  List.countP_pos_iff.mpr ⟨a, List.mem_of_getElem? hget, hp⟩

/-- No party meets a condition none is counted for. -/
theorem eq_false_of_countP_eq_zero {l : List α} {p : α → Bool} (hzero : l.countP p = 0)
    {i : Nat} {a : α} (hget : l[i]? = some a) : p a = false := by
  by_contra hp
  have hpos := countP_pos_of_getElem? hget (by simpa using hp)
  omega

/-- An update counts the party as it is after, and no longer as it was before. -/
theorem countP_set_add {l : List α} {i : Nat} {a : α} (hget : l[i]? = some a) (p : α → Bool)
    (b : α) :
    (l.set i b).countP p + (if p a then 1 else 0) = l.countP p + (if p b then 1 else 0) := by
  have hcounted : (if p a then 1 else 0) ≤ l.countP p := by
    split
    · rename_i hp
      exact countP_pos_of_getElem? hget hp
    · exact Nat.zero_le _
  obtain ⟨hlt, hat⟩ := List.getElem?_eq_some_iff.mp hget
  rw [List.countP_set hlt, hat]
  omega

/-- A party that joins is counted where it meets the condition. -/
theorem countP_append (l : List α) (p : α → Bool) (a : α) :
    (l ++ [a]).countP p = l.countP p + (if p a then 1 else 0) := by
  simp [List.countP_append, List.countP_cons]

/-- A party meeting the condition exists where one is counted. -/
theorem exists_of_countP_pos {l : List α} {p : α → Bool} (hpos : 0 < l.countP p) :
    ∃ (i : Nat) (a : α), l[i]? = some a ∧ p a = true := by
  obtain ⟨a, hmem, hp⟩ := List.countP_pos_iff.mp hpos
  obtain ⟨i, hget⟩ := List.mem_iff_getElem?.mp hmem
  exact ⟨i, a, hget, hp⟩

/-- Where more than one party meets a condition, one at another place does. -/
theorem exists_ne_of_one_lt_countP {l : List α} {p : α → Bool} (hmany : 1 < l.countP p) (i : Nat) :
    ∃ (j : Nat) (a : α), j ≠ i ∧ l[j]? = some a ∧ p a = true := by
  induction l generalizing i with
  | nil => simp at hmany
  | cons c rest ih =>
      rw [List.countP_cons] at hmany
      cases i with
      | zero =>
          have hrest : 0 < rest.countP p := by
            split at hmany <;> omega
          obtain ⟨j, a, hget, hpa⟩ := exists_of_countP_pos hrest
          exact ⟨j + 1, a, Nat.succ_ne_zero j, hget, hpa⟩
      | succ i =>
          by_cases hpc : p c = true
          · exact ⟨0, c, (Nat.succ_ne_zero i).symm, rfl, hpc⟩
          · rw [if_neg hpc, Nat.add_zero] at hmany
            obtain ⟨j, a, hne, hget, hpa⟩ := ih hmany i
            exact ⟨j + 1, a, by omega, hget, hpa⟩

/-- Where at most one party meets a condition, it is the same one. -/
theorem eq_of_countP_le_one {l : List α} {p : α → Bool} (hone : l.countP p ≤ 1)
    {i j : Nat} {a b : α} (ha : l[i]? = some a) (hpa : p a = true) (hb : l[j]? = some b)
    (hpb : p b = true) : i = j := by
  induction l generalizing i j with
  | nil => cases ha
  | cons c rest ih =>
      rw [List.countP_cons] at hone
      cases i with
      | zero =>
          cases j with
          | zero => rfl
          | succ j =>
              obtain rfl : c = a := by simpa using ha
              have hrest : rest[j]? = some b := by simpa using hb
              have hpos := countP_pos_of_getElem? hrest hpb
              rw [if_pos hpa] at hone
              omega
      | succ i =>
          have hresta : rest[i]? = some a := by simpa using ha
          have hposa := countP_pos_of_getElem? hresta hpa
          cases j with
          | zero =>
              obtain rfl : c = b := by simpa using hb
              rw [if_pos hpb] at hone
              omega
          | succ j =>
              have hrestb : rest[j]? = some b := by simpa using hb
              have hle : rest.countP p ≤ 1 := by omega
              rw [ih hle hresta hrestb]

end Roster
