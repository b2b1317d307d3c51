import Mathlib.Algebra.Order.Field.Basic
import Mathlib.Tactic.Linarith
import Mathlib.Tactic.Positivity
import Mathlib.Tactic.FieldSimp
import Mathlib.Tactic.GCongr
import Mathlib.Tactic.Ring

/-!
# Interpolation - a function through points, straight between them

A list of points with rising places and values that do not fall gives a function over an ordered
field: the value of a point at its place, straight between two points, and level beyond the ends.

Main results:

- Theorem `interpolate_of_mem`: the function goes through its points.
- Theorem `interpolate_of_infix`: it is straight between neighbours.
- Theorem `interpolate_mono`: it does not fall.
-/

namespace Interpolation

variable {K : Type*} [Field K]

/-- The value at a place, given the points around it. -/
def between (p q : K × K) (x : K) : K :=
  p.2 + (q.2 - p.2) * (x - p.1) / (q.1 - p.1)

/-- Where two points meet the function is at the first. -/
@[simp]
theorem between_left (p q : K × K) : between p q p.1 = p.2 := by
  simp [between]

/-- Values moved and scaled move and scale what lies straight between them. -/
theorem between_scaled (p q : K × K) (shift scale x : K) :
    between (p.1, (p.2 - shift) / scale) (q.1, (q.2 - shift) / scale) x =
      (between p q x - shift) / scale := by
  unfold between
  ring

/-- What is straight between two points is straight from any place before the second. -/
theorem between_from {p q : K × K} {place : K} (hwidth : q.1 - p.1 ≠ 0) (hplace : q.1 - place ≠ 0)
    (x : K) : between (place, between p q place) q x = between p q x := by
  unfold between
  field_simp
  ring

variable [LinearOrder K]

/-- A point comes before another: at a lower place, and no higher. -/
def Before (p q : K × K) : Prop :=
  p.1 < q.1 ∧ p.2 ≤ q.2

instance (p q : K × K) : Decidable (Before p q) :=
  inferInstanceAs (Decidable (_ ∧ _))

instance : IsTrans (K × K) Before where
  trans _ _ _ hpq hqr := ⟨hpq.1.trans hqr.1, hpq.2.trans hqr.2⟩

/-- Points with rising places, whose values do not fall. -/
def Rising (points : List (K × K)) : Prop :=
  points.IsChain Before

instance (points : List (K × K)) : Decidable (Rising points) :=
  inferInstanceAs (Decidable (points.IsChain Before))

/-- The value at a place: that of the first point up to it, straight between two points, and that
of the last point beyond it. -/
def interpolate : List (K × K) → K → K
  | [], _ => 0
  | [p], _ => p.2
  | p :: q :: rest, x =>
      if x ≤ p.1 then p.2 else if x < q.1 then between p q x else interpolate (q :: rest) x

/-! ## Between two points -/

section Between

variable [IsStrictOrderedRing K] {p q : K × K} {x y : K}

/-- Between two points the function does not fall. -/
theorem between_mono (hbefore : Before p q) (hle : x ≤ y) : between p q x ≤ between p q y := by
  have hwidth : 0 < q.1 - p.1 := sub_pos.mpr hbefore.1
  have hheight : 0 ≤ q.2 - p.2 := sub_nonneg.mpr hbefore.2
  unfold between
  gcongr

/-- Where two points meet the function is at the second. -/
theorem between_right (hbefore : Before p q) : between p q q.1 = q.2 := by
  have hwidth : q.1 - p.1 ≠ 0 := (sub_pos.mpr hbefore.1).ne'
  rw [between, mul_div_assoc, div_self hwidth, mul_one, add_sub_cancel]

end Between

/-! ## Along the points -/

section Points

variable {points rest : List (K × K)} {p q : K × K} {x y : K}

/-- Up to the first point the function is level. -/
theorem interpolate_of_le_head (hle : x ≤ p.1) : interpolate (p :: rest) x = p.2 := by
  cases rest with
  | nil => rfl
  | cons q rest => rw [interpolate, if_pos hle]

omit [Field K] in
/-- The first of rising points is at the lowest place. -/
theorem place_le_of_mem (hrising : Rising (p :: rest)) (hq : q ∈ p :: rest) : p.1 ≤ q.1 := by
  rcases List.mem_cons.mp hq with rfl | hlater
  · exact le_rfl
  · exact ((List.pairwise_cons.mp (List.isChain_iff_pairwise.mp hrising)).1 q hlater).1.le

omit [Field K] in
/-- A point comes before the next. -/
theorem before_of_next {i : ℕ} (hrising : Rising points) (hp : points[i]? = some p)
    (hq : points[i + 1]? = some q) : Before p q := by
  obtain ⟨hi, rfl⟩ := List.getElem?_eq_some_iff.mp hp
  obtain ⟨hnext, rfl⟩ := List.getElem?_eq_some_iff.mp hq
  exact List.isChain_iff_getElem.mp hrising i hnext

/-- Beyond the second point the first is of no account. -/
theorem interpolate_cons_of_le (hbefore : Before p q) (hle : q.1 ≤ x) :
    interpolate (p :: q :: rest) x = interpolate (q :: rest) x := by
  rw [interpolate, if_neg (hbefore.1.trans_le hle).not_ge, if_neg hle.not_gt]

/-- The function goes through its points. -/
theorem interpolate_of_mem (hrising : Rising points) (hp : p ∈ points) :
    interpolate points p.1 = p.2 := by
  induction points with
  | nil => cases hp
  | cons first rest ih =>
      rcases List.mem_cons.mp hp with rfl | hrest
      · exact interpolate_of_le_head le_rfl
      · cases rest with
        | nil => cases hrest
        | cons q rest =>
            obtain ⟨hbefore, htail⟩ := List.isChain_cons_cons.mp hrising
            rw [interpolate_cons_of_le hbefore (place_le_of_mem htail hrest)]
            exact ih htail hrest

/-- Beyond the last point the function is level. -/
theorem interpolate_of_getLast_le (hrising : Rising points) (hlast : points.getLast? = some p)
    (hle : p.1 ≤ x) : interpolate points x = p.2 := by
  induction points with
  | nil => cases hlast
  | cons first rest ih =>
      cases rest with
      | nil =>
          obtain rfl : first = p := by simpa using hlast
          rfl
      | cons q rest =>
          obtain ⟨hbefore, htail⟩ := List.isChain_cons_cons.mp hrising
          rw [List.getLast?_cons_cons] at hlast
          have hq : q.1 ≤ p.1 := place_le_of_mem htail (List.mem_of_getLast? hlast)
          rw [interpolate_cons_of_le hbefore (hq.trans hle)]
          exact ih htail hlast

variable [IsStrictOrderedRing K]

/-- Up to the second point the function is straight. -/
theorem interpolate_cons_of_between (hbefore : Before p q) (hleft : p.1 ≤ x) (hright : x ≤ q.1) :
    interpolate (p :: q :: rest) x = between p q x := by
  rcases hleft.eq_or_lt with heq | hlt
  · rw [← heq, between_left, interpolate_of_le_head le_rfl]
  · rcases hright.eq_or_lt with heq | hgt
    · rw [heq, between_right hbefore, interpolate_cons_of_le hbefore le_rfl,
        interpolate_of_le_head le_rfl]
    · rw [interpolate, if_neg hlt.not_ge, if_pos hgt]

/-- Between two neighbours the function is straight. -/
theorem interpolate_of_infix (hrising : Rising points) (hnext : [p, q] <:+: points)
    (hleft : p.1 ≤ x) (hright : x ≤ q.1) : interpolate points x = between p q x := by
  induction points with
  | nil => exact absurd hnext (by simp)
  | cons first rest ih =>
      rcases List.infix_cons_iff.mp hnext with hhere | hlater
      · obtain ⟨later, hlist⟩ := hhere
        rw [← hlist] at hrising ⊢
        exact interpolate_cons_of_between (List.isChain_cons_cons.mp hrising).1 hleft hright
      · cases rest with
        | nil => exact absurd hlater (by simp)
        | cons second rest =>
            obtain ⟨hbefore, htail⟩ := List.isChain_cons_cons.mp hrising
            have hp : p ∈ second :: rest := hlater.subset (List.mem_cons_self ..)
            rw [interpolate_cons_of_le hbefore ((place_le_of_mem htail hp).trans hleft)]
            exact ih htail hlater

/-- The function is nowhere below its first point. -/
theorem head_le_interpolate (hrising : Rising (p :: rest)) (x : K) :
    p.2 ≤ interpolate (p :: rest) x := by
  induction rest generalizing p with
  | nil => exact le_rfl
  | cons q rest ih =>
      obtain ⟨hbefore, hrest⟩ := List.isChain_cons_cons.mp hrising
      rcases le_total x p.1 with hle | hge
      · exact (interpolate_of_le_head hle).ge
      · rcases le_total x q.1 with hbelow | habove
        · calc p.2 = between p q p.1 := (between_left p q).symm
            _ ≤ between p q x := between_mono hbefore hge
            _ = _ := (interpolate_cons_of_between hbefore hge hbelow).symm
        · rw [interpolate_cons_of_le hbefore habove]
          exact hbefore.2.trans (ih hrest)

/-- The function does not fall. -/
theorem interpolate_mono (hrising : Rising points) : Monotone (interpolate points) := by
  induction points with
  | nil => exact fun _ _ _ => le_rfl
  | cons p rest ih =>
      intro x y hle
      cases rest with
      | nil => exact le_rfl
      | cons q rest =>
          obtain ⟨hbefore, hrest⟩ := List.isChain_cons_cons.mp hrising
          rcases le_total x p.1 with hx | hx
          · rw [interpolate_of_le_head hx]
            exact head_le_interpolate hrising y
          · rcases le_total q.1 x with hbeyond | hbetween
            · rw [interpolate_cons_of_le hbefore hbeyond,
                interpolate_cons_of_le hbefore (hbeyond.trans hle)]
              exact ih hrest hle
            · rw [interpolate_cons_of_between hbefore hx hbetween]
              rcases le_total q.1 y with hy | hy
              · rw [interpolate_cons_of_le hbefore hy]
                calc between p q x ≤ between p q q.1 := between_mono hbefore hbetween
                  _ = q.2 := between_right hbefore
                  _ ≤ interpolate (q :: rest) y := head_le_interpolate hrest y
              · rw [interpolate_cons_of_between hbefore (hx.trans hle) hy]
                exact between_mono hbefore hle

end Points

end Interpolation
