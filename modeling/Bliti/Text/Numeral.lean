import Mathlib.Data.Nat.Digits.Defs
import Mathlib.Tactic.IntervalCases
import Bliti.Library.Fallible
import Bliti.Text

/-!
# Text - words read from their digits

A word of 32 bits is read from its digits in a radix, and read back from how it is written in
hexadecimal.
-/

namespace Bliti.Text

/-- The digit a character is in a radix. -/
def toDigit (radix : ℕ) (c : Char) : Option ℕ :=
  let digit :=
    if '0' ≤ c ∧ c ≤ '9' then some (c.toNat - '0'.toNat)
    else if 'a' ≤ c ∧ c ≤ 'z' then some (c.toNat - 'a'.toNat + 10)
    else if 'A' ≤ c ∧ c ≤ 'Z' then some (c.toNat - 'A'.toNat + 10)
    else none
  digit.filter (· < radix)

/-- The number some characters are the digits of, the highest first. -/
def numeral (radix : ℕ) (chars : List Char) : Option ℕ :=
  (chars.mapM (toDigit radix)).map fun digits => Nat.ofDigits radix digits.reverse

/-- A word read from its digits in a radix, which a plus sign may stand before. -/
def fromStrRadix (radix : ℕ) (s : String) : Option UInt32 :=
  let digits :=
    match s.toList with
    | '+' :: digits => digits
    | digits => digits
  if digits = [] then none
  else
    match numeral radix digits with
    | some n => if n < 2 ^ 32 then some (.ofNat n) else none
    | none => none

/-- A hexadecimal digit is read back from its character. -/
theorem toDigit_digitChar {d : ℕ} (hd : d < 16) : toDigit 16 d.digitChar = some d := by
  interval_cases d <;> rfl

/-- A number is read back from its hexadecimal digits. -/
theorem numeral_toDigits (n : ℕ) : numeral 16 (Nat.toDigits 16 n) = some n := by
  induction n using Nat.strongRecOn with
  | ind n ih =>
      unfold numeral at ih ⊢
      rw [Nat.toDigits_eq_if (by decide)]
      split
      · rename_i hsmall
        simp [toDigit_digitChar hsmall]
      · rename_i hlarge
        have hquotient := ih (n / 16) (by omega)
        obtain ⟨digits, hdigits, hvalue⟩ := Option.map_eq_some_iff.mp hquotient
        have hlast := toDigit_digitChar (Nat.mod_lt n (by decide : 16 > 0))
        simp only [List.mapM_append, hdigits, List.mapM_cons, hlast, List.mapM_nil, Option.pure_def,
          Option.bind_eq_bind, Option.bind_some, Option.map_some, List.reverse_append,
          List.reverse_singleton, List.singleton_append, Nat.ofDigits_cons, hvalue]
        congr 1
        exact Nat.mod_add_div n 16

/-- Each character a number is written in is a digit. -/
theorem isSome_toDigit_of_mem {n : ℕ} {c : Char} (hc : c ∈ Nat.toDigits 16 n) :
    (toDigit 16 c).isSome = true := by
  obtain ⟨digits, hdigits, -⟩ := Option.map_eq_some_iff.mp (numeral_toDigits n)
  have hall : ((Nat.toDigits 16 n).mapM (toDigit 16)).isSome = true := by rw [hdigits]; rfl
  rw [Fallible.isSome_mapM, List.all_eq_true] at hall
  exact hall c hc

/-- A number's digits are not a sign. -/
theorem toDigits_ne_plus (n : ℕ) (rest : List Char) : Nat.toDigits 16 n ≠ '+' :: rest := by
  intro hplus
  have hsign : '+' ∈ Nat.toDigits 16 n := hplus ▸ List.mem_cons_self
  exact absurd (isSome_toDigit_of_mem hsign) (by decide)

/-- A word is read back from its hexadecimal digits. -/
theorem fromStrRadix_hex (n : UInt32) : fromStrRadix 16 (hex n.toNat) = some n := by
  have hfits : n.toNat < 2 ^ 32 := n.toNat_lt
  unfold fromStrRadix hex
  rw [String.toList_ofList]
  split
  · rename_i hplus
    exact absurd hplus (toDigits_ne_plus _ _)
  · dsimp only
    rw [if_neg Nat.toDigits_ne_nil, numeral_toDigits]
    dsimp only
    rw [if_pos hfits, UInt32.ofNat_toNat]

end Bliti.Text
