import Mathlib.Logic.Basic

/-!
# Equality - symmetric and transitive equality tests

An equality test that some values fail with themselves, as doubles do, is symmetric and
transitive all the same.  A test made of such tests part by part is one too.

Main results:

- Instances `PartialEquivBEq` of lists and pairs.
- Theorem `partialEquivBEq_of_key`: a test that compares what is read of two values.
-/

variable {α β : Type*} [BEq α] [BEq β]

instance list_partialEquivBEq [PartialEquivBEq α] : PartialEquivBEq (List α) where
  symm {as bs} hequal := by
    induction as generalizing bs with
    | nil =>
        cases bs with
        | nil => rfl
        | cons => exact hequal
    | cons a as ih =>
        cases bs with
        | nil => exact hequal
        | cons b bs =>
            simp only [List.cons_beq_cons, Bool.and_eq_true] at hequal ⊢
            exact ⟨BEq.symm hequal.1, ih hequal.2⟩
  trans {as bs cs} hequal hnext := by
    induction as generalizing bs cs with
    | nil =>
        cases bs with
        | nil => exact hnext
        | cons => cases hequal
    | cons a as ih =>
        cases bs with
        | nil => cases hequal
        | cons b bs =>
            cases cs with
            | nil => exact hnext
            | cons c cs =>
                simp only [List.cons_beq_cons, Bool.and_eq_true] at hequal hnext ⊢
                exact ⟨BEq.trans hequal.1 hnext.1, ih hequal.2 hnext.2⟩

instance prod_partialEquivBEq [PartialEquivBEq α] [PartialEquivBEq β] :
    PartialEquivBEq (α × β) where
  symm hequal := by
    have hparts := (Bool.and_eq_true _ _).mp hequal
    exact (Bool.and_eq_true _ _).mpr ⟨BEq.symm hparts.1, BEq.symm hparts.2⟩
  trans hequal hnext := by
    have hparts := (Bool.and_eq_true _ _).mp hequal
    have hothers := (Bool.and_eq_true _ _).mp hnext
    exact (Bool.and_eq_true _ _).mpr ⟨BEq.trans hparts.1 hothers.1, BEq.trans hparts.2 hothers.2⟩

/-- A test that compares what is read of two values is symmetric and transitive where that test
is. -/
theorem partialEquivBEq_of_key [PartialEquivBEq β] (key : α → β)
    (hkey : ∀ a b, (a == b) = (key a == key b)) : PartialEquivBEq α where
  symm hequal := by
    rw [hkey] at hequal ⊢
    exact BEq.symm hequal
  trans hequal hnext := by
    rw [hkey] at hequal hnext ⊢
    exact BEq.trans hequal hnext
