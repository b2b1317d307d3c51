import Mathlib.Logic.Relation

/-!
# Closures - marks carried along a well-founded relation

A mark that each point takes from the points before it, over any relation that goes
back only finitely far.  Whoever computes such a mark point by point has computed the
transitive closure.

Main results:

- Theorem `marked_iff_transGen`: a point is marked exactly where a chain leads to it
  from one marked to begin with.
-/

namespace Closure

variable {α : Type*} {R : α → α → Prop} {base marked within : α → Prop}

/-- A point at the end of a chain from a marked one is marked. -/
theorem marked_of_transGen (hback : ∀ a b, R a b → within b → within a)
    (hstep : ∀ b, within b → (marked b ↔ base b ∨ ∃ a, R a b ∧ marked a)) {a b : α}
    (hchain : Relation.TransGen R a b) (hwithin : within b) (hmarked : base a) : marked b := by
  induction hchain with
  | single hlast =>
      have hfirst : marked a := (hstep a (hback a _ hlast hwithin)).mpr (.inl hmarked)
      exact (hstep _ hwithin).mpr (.inr ⟨a, hlast, hfirst⟩)
  | tail _ hlast ih =>
      have hbefore := ih (hback _ _ hlast hwithin)
      exact (hstep _ hwithin).mpr (.inr ⟨_, hlast, hbefore⟩)

/-- Where each point is marked to begin with or by one before it, a point is marked exactly
where it was to begin with or a chain leads to it from one that was. -/
theorem marked_iff_transGen (hwf : WellFounded R) (hback : ∀ a b, R a b → within b → within a)
    (hstep : ∀ b, within b → (marked b ↔ base b ∨ ∃ a, R a b ∧ marked a)) (b : α)
    (hwithin : within b) :
    marked b ↔ base b ∨ ∃ a, base a ∧ Relation.TransGen R a b := by
  constructor
  · induction b using hwf.induction with
    | _ b ih =>
        intro hmarked
        rcases (hstep b hwithin).mp hmarked with hbase | ⟨a, hlast, hbefore⟩
        · exact .inl hbase
        · right
          rcases ih a hlast (hback a b hlast hwithin) hbefore with hbase | ⟨first, hbase, hchain⟩
          · exact ⟨a, hbase, .single hlast⟩
          · exact ⟨first, hbase, .tail hchain hlast⟩
  · rintro (hbase | ⟨a, hbase, hchain⟩)
    · exact (hstep b hwithin).mpr (.inl hbase)
    · exact marked_of_transGen hback hstep hchain hwithin hbase

end Closure
