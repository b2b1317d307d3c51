import Mathlib.Data.List.Basic
import Mathlib.Data.List.Range
import Mathlib.Data.List.Enum

/-!
# Loops - invariants of left folds

A loop of an imperative program over a list is a left fold.  This module gives
the two invariant rules such a loop is reasoned with: the invariant speaks
about the part of the list already taken, either as a prefix or, where the loop
counts its positions, as a number.

Main results:

- Theorem `foldl_invariant_of_prefix`: an invariant of the prefix taken so far
  holds of the whole list when the loop ends.
- Theorem `foldl_invariant_of_zipIdx`: the same for a loop over positions.
- Theorem `foldl_eq_of_outcome`: a second loop that reads what the first came to.
-/

namespace Loops

variable {α β : Type*}

/-- The invariant rule of a loop, indexed by the prefix already taken. -/
theorem foldl_invariant_of_prefix (step : β → α → β) (l : List α)
    (Inv : List α → β → Prop) (init : β) (hinit : Inv [] init)
    (hstep : ∀ pre a post acc, l = pre ++ a :: post → Inv pre acc →
      Inv (pre ++ [a]) (step acc a)) :
    Inv l (l.foldl step init) := by
  suffices hgen : ∀ post pre acc, l = pre ++ post → Inv pre acc →
      Inv l (post.foldl step acc) from hgen l [] init rfl hinit
  intro post
  induction post with
  | nil =>
      intro pre acc hsplit hinv
      simpa [hsplit] using hinv
  | cons a post ih =>
      intro pre acc hsplit hinv
      have hnext := hstep pre a post acc hsplit hinv
      exact ih (pre ++ [a]) (step acc a) (by simp [hsplit]) hnext

/-- A position of an enumerated list is the number of elements before it. -/
theorem zipIdx_eq_append_cons {l : List α} {pre post : List (α × Nat)} {a : α}
    {i : Nat} (hsplit : l.zipIdx = pre ++ (a, i) :: post) :
    i = pre.length ∧ l[i]? = some a := by
  have hat : l.zipIdx[pre.length]? = some (a, i) := by simp [hsplit]
  rw [List.getElem?_zipIdx] at hat
  simp only [Nat.zero_add, Option.map_eq_some_iff, Prod.mk.injEq] at hat
  obtain ⟨b, hb, rfl, rfl⟩ := hat
  exact ⟨rfl, hb⟩

/-- The invariant rule of a loop over an enumerated list, indexed by the number
of positions already taken. -/
theorem foldl_invariant_of_zipIdx (step : β → α × Nat → β) (l : List α)
    (Inv : Nat → β → Prop) (init : β) (hinit : Inv 0 init)
    (hstep : ∀ i a acc, l[i]? = some a → Inv i acc → Inv (i + 1) (step acc (a, i))) :
    Inv l.length (l.zipIdx.foldl step init) := by
  have hloop := foldl_invariant_of_prefix step l.zipIdx
    (fun pre acc => Inv pre.length acc) init hinit (by
      rintro pre ⟨a, i⟩ post acc hsplit hinv
      obtain ⟨rfl, hat⟩ := zipIdx_eq_append_cons hsplit
      simpa using hstep pre.length a acc hat hinv)
  simpa using hloop

/-- A loop comes to what another came to where each of its turns does what the other's did.
What the turns may be compared by is carried both ways: an invariant from the start, and what
is left of the outcome from the end. -/
theorem foldl_eq_of_outcome (step again : β → α × Nat → β) (l : List α)
    (Inv Leads : Nat → β → Prop) (init : β) (hinit : Inv 0 init)
    (hstep : ∀ i a acc, l[i]? = some a → Inv i acc → Inv (i + 1) (step acc (a, i)))
    (hend : Leads l.length (l.zipIdx.foldl step init))
    (hback : ∀ i a acc, l[i]? = some a → Inv i acc → Leads (i + 1) (step acc (a, i)) →
      Leads i acc)
    (hagree : ∀ i a acc, l[i]? = some a → Inv i acc → Leads (i + 1) (step acc (a, i)) →
      again acc (a, i) = step acc (a, i)) :
    l.zipIdx.foldl again init = l.zipIdx.foldl step init := by
  suffices hgen : ∀ post pre acc, l.zipIdx = pre ++ post → Inv pre.length acc →
      post.foldl step acc = l.zipIdx.foldl step init →
      Leads pre.length acc ∧ post.foldl again acc = post.foldl step acc from
    (hgen l.zipIdx [] init rfl hinit rfl).2
  intro post
  induction post with
  | nil =>
      intro pre acc hsplit _ hlast
      have hlength : pre.length = l.length := by
        simpa using (congrArg List.length hsplit).symm
      rw [hlength, show acc = l.zipIdx.foldl step init from hlast]
      exact ⟨hend, rfl⟩
  | cons entry post ih =>
      obtain ⟨a, i⟩ := entry
      intro pre acc hsplit hinv hlast
      obtain ⟨rfl, hat⟩ := zipIdx_eq_append_cons hsplit
      have hnext := hstep pre.length a acc hat hinv
      have hrest := ih (pre ++ [(a, pre.length)]) (step acc (a, pre.length)) (by simp [hsplit])
        (by simpa using hnext) hlast
      rw [List.length_append, List.length_singleton] at hrest
      refine ⟨hback pre.length a acc hat hinv hrest.1, ?_⟩
      rw [List.foldl_cons, List.foldl_cons, hagree pre.length a acc hat hinv hrest.1]
      exact hrest.2

end Loops
