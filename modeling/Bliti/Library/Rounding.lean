import Mathlib

/-!
# Rounding to decimal places - halves away from zero

A rational is rounded to the nearest integer, a half away from zero, and to a number of decimal
places by rounding it scaled.

Main results:

- Theorem `toPlaces_mono`: rounding to places keeps order.
- Theorem `toPlaces_toPlaces`: what is rounded rounds to itself.
- Theorem `toPlaces_lt`: numbers far enough apart stay apart.
-/

namespace Rounding

/-- The nearest integer, a half going away from zero. -/
def nearest (x : ℚ) : ℤ :=
  if 0 ≤ x then ⌊x + 1 / 2⌋ else -⌊-x + 1 / 2⌋

/-- A number rounded to decimal places. -/
def toPlaces (places : ℕ) (x : ℚ) : ℚ :=
  nearest (x * 10 ^ places) / 10 ^ places

/-- The nearest integer is no more than a half above. -/
theorem nearest_le (x : ℚ) : (nearest x : ℚ) ≤ x + 1 / 2 := by
  unfold nearest
  split
  · exact Int.floor_le _
  · have hlt := Int.lt_floor_add_one (-x + 1 / 2)
    push_cast
    linarith

/-- The nearest integer is no more than a half below. -/
theorem le_nearest (x : ℚ) : x - 1 / 2 ≤ nearest x := by
  unfold nearest
  split
  · have hlt := Int.lt_floor_add_one (x + 1 / 2)
    linarith
  · have hle := Int.floor_le (-x + 1 / 2)
    push_cast
    linarith

/-- An integer is the nearest to itself. -/
@[simp]
theorem nearest_intCast (n : ℤ) : nearest n = n := by
  have hhalf : ⌊(1 / 2 : ℚ)⌋ = 0 := by
    rw [Int.floor_eq_zero_iff]
    constructor <;> norm_num
  unfold nearest
  split
  · rw [Int.floor_intCast_add, hhalf, add_zero]
  · rw [← Int.cast_neg, Int.floor_intCast_add, hhalf, add_zero, neg_neg]

/-- Going to the nearest integer keeps order. -/
theorem nearest_mono : Monotone nearest := by
  intro x y hle
  unfold nearest
  split_ifs with hx hy hy
  · exact Int.floor_le_floor (by linarith)
  · exact absurd (hx.trans hle) hy
  · have hneg : 0 ≤ ⌊-x + 1 / 2⌋ := Int.floor_nonneg.mpr (by linarith)
    have hpos : 0 ≤ ⌊y + 1 / 2⌋ := Int.floor_nonneg.mpr (by linarith)
    omega
  · have hfloor : ⌊-y + 1 / 2⌋ ≤ ⌊-x + 1 / 2⌋ := Int.floor_le_floor (by linarith)
    omega

section Places

variable {places : ℕ} {x y : ℚ}

/-- Rounding to places keeps order. -/
theorem toPlaces_mono : Monotone (toPlaces places) := by
  intro x y hle
  have hscale : (0 : ℚ) < 10 ^ places := by positivity
  unfold toPlaces
  gcongr
  exact_mod_cast nearest_mono (mul_le_mul_of_nonneg_right hle hscale.le)

/-- A number of that many places rounds to itself. -/
theorem toPlaces_of_scaled {n : ℤ} (hscaled : x * 10 ^ places = n) : toPlaces places x = x := by
  have hscale : (10 : ℚ) ^ places ≠ 0 := by positivity
  rw [toPlaces, hscaled, nearest_intCast, ← hscaled, mul_div_assoc, div_self hscale, mul_one]

/-- What is rounded rounds to itself. -/
@[simp]
theorem toPlaces_toPlaces (places : ℕ) (x : ℚ) :
    toPlaces places (toPlaces places x) = toPlaces places x := by
  have hscale : (10 : ℚ) ^ places ≠ 0 := by positivity
  have hscaled : toPlaces places x * 10 ^ places = nearest (x * 10 ^ places) := by
    rw [toPlaces, div_mul_cancel₀ _ hscale]
  exact toPlaces_of_scaled hscaled

/-- An integer rounds to itself. -/
@[simp]
theorem toPlaces_intCast (places : ℕ) (n : ℤ) : toPlaces places (n : ℚ) = n :=
  toPlaces_of_scaled (n := n * 10 ^ places) (by push_cast; ring)

/-- Zero rounds to itself. -/
@[simp]
theorem toPlaces_zero (places : ℕ) : toPlaces places 0 = 0 := by
  simpa using toPlaces_intCast places 0

/-- One rounds to itself. -/
@[simp]
theorem toPlaces_one (places : ℕ) : toPlaces places 1 = 1 := by
  simpa using toPlaces_intCast places 1

/-- Numbers further apart than one in the last place stay apart once rounded. -/
theorem toPlaces_lt (hapart : x * 10 ^ places + 1 < y * 10 ^ places) :
    toPlaces places x < toPlaces places y := by
  have hscale : (0 : ℚ) < 10 ^ places := by positivity
  have hbelow := nearest_le (x * 10 ^ places)
  have habove := le_nearest (y * 10 ^ places)
  have hlt : (nearest (x * 10 ^ places) : ℚ) < nearest (y * 10 ^ places) := by linarith
  exact div_lt_div_of_pos_right hlt hscale

/-- A number of at least one in the last place stays above zero once rounded. -/
theorem toPlaces_pos (hpos : 1 ≤ x * 10 ^ places) : 0 < toPlaces places x := by
  have hscale : (0 : ℚ) < 10 ^ places := by positivity
  have habove := le_nearest (x * 10 ^ places)
  exact div_pos (by linarith) hscale

/-- A number above zero that rounds to itself is at least one in the last place. -/
theorem one_le_of_toPlaces (hrounded : toPlaces places x = x) (hpos : 0 < x) :
    1 ≤ x * 10 ^ places := by
  have hscale : (0 : ℚ) < 10 ^ places := by positivity
  have hscaled : x * 10 ^ places = nearest (x * 10 ^ places) := by
    rw [← eq_div_iff hscale.ne']
    exact hrounded.symm
  have hwhole : (0 : ℚ) < nearest (x * 10 ^ places) := hscaled ▸ mul_pos hpos hscale
  rw [hscaled]
  exact_mod_cast Int.add_one_le_iff.mpr (Int.cast_pos.mp hwhole)

end Places

end Rounding
