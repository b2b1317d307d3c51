import Mathlib

/-!
# Checked arithmetic - words that must not overflow

Shifts, sums and differences of words, where they do not overflow.

Main results:

- Theorems `add_isSome` and `toNat_one_shl`: when a sum is, and a power of two.
-/

namespace Checked

/-- A shift, where it does not overflow. -/
def shl (x : UInt32) (bits : Nat) : Option UInt32 :=
  if bits < 32 then some (x <<< UInt32.ofNat bits) else none

/-- A sum, where it does not overflow. -/
def add (x y : UInt32) : Option UInt32 :=
  if x.toNat + y.toNat < 2 ^ 32 then some (x + y) else none

/-- A difference, where it does not overflow. -/
def sub (x y : UInt32) : Option UInt32 :=
  if y ≤ x then some (x - y) else none

variable {x y z : UInt32} {bits : Nat}

/-- A shift that does not overflow is the shift. -/
theorem shl_eq_some (hshift : shl x bits = some z) : z = x <<< UInt32.ofNat bits := by
  unfold shl at hshift
  split_ifs at hshift
  exact (Option.some.inj hshift).symm

/-- A difference that does not overflow is the difference. -/
theorem sub_eq_some (hsub : sub x y = some z) : z = x - y := by
  unfold sub at hsub
  split_ifs at hsub
  exact (Option.some.inj hsub).symm

/-- A difference of what is no less does not overflow. -/
theorem sub_of_le (hle : y.toNat ≤ x.toNat) :
    sub x y = some (x - y) ∧ (x - y).toNat = x.toNat - y.toNat := by
  have hword : y ≤ x := UInt32.le_iff_toNat_le.mpr hle
  exact ⟨if_pos hword, UInt32.toNat_sub_of_le _ _ hword⟩

/-- A sum does not overflow where it is a word. -/
theorem add_isSome : (add x y).isSome = true ↔ x.toNat + y.toNat < 2 ^ 32 := by
  unfold add
  split_ifs with hword
  · exact iff_of_true rfl hword
  · exact iff_of_false (by simp) hword

/-- One shifted is a power of two. -/
theorem toNat_one_shl (hbits : bits < 32) :
    ((1 : UInt32) <<< UInt32.ofNat bits).toNat = 2 ^ bits := by
  have hpow : 2 ^ bits < 2 ^ 32 := Nat.pow_lt_pow_right (by decide) hbits
  have hread : (UInt32.ofNat bits).toNat % 32 = bits := by
    rw [UInt32.toNat_ofNat', Nat.mod_eq_of_lt (Nat.lt_trans hbits (by decide)), Nat.mod_eq_of_lt hbits]
  rw [UInt32.toNat_shiftLeft, hread, UInt32.toNat_one, Nat.shiftLeft_eq, Nat.one_mul,
    Nat.mod_eq_of_lt hpow]

end Checked
