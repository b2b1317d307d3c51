import Mathlib

/-!
# Big-endian numbers - numbers as bytes, the largest digit first

A number is written as a fixed number of bytes, its digits in base 256 from the largest down,
and those that do not fit are dropped.

Main results:

- Theorem `value_bytes`: a number that fits its width is read back.
- Theorem `bytes_value`: bytes are those of the number they are.
- Theorem `bytes_add_zero_iff`: the leading bytes of a number are zero exactly where it fits
  the others.
-/

namespace BigEndian

/-- The bytes of a number at a width, the largest digit first. -/
def bytes : Nat → Nat → List UInt8
  | 0, _ => []
  | width + 1, n => bytes width (n / 256) ++ [UInt8.ofNat n]

/-- The number some bytes are. -/
def value (digits : List UInt8) : Nat :=
  digits.foldl (fun acc digit => acc * 256 + digit.toNat) 0

/-- A number is written as many bytes as its width. -/
@[simp] theorem length_bytes (width n : Nat) : (bytes width n).length = width := by
  induction width generalizing n with
  | zero => rfl
  | succ width ih => simp [bytes, ih]

/-- The value of digits with one more after them. -/
@[simp] theorem value_append_singleton (digits : List UInt8) (digit : UInt8) :
    value (digits ++ [digit]) = value digits * 256 + digit.toNat := by
  simp [value]

/-- No digits are nothing. -/
@[simp] theorem value_nil : value [] = 0 := rfl

/-- Zeros before digits are worth nothing. -/
@[simp] theorem value_replicate_append (k : Nat) (digits : List UInt8) :
    value (List.replicate k 0 ++ digits) = value digits := by
  induction k with
  | zero => rfl
  | succ k ih => simpa [value, List.replicate_succ] using ih

/-- What is read back of a number is what fits the width. -/
theorem value_bytes_mod (width n : Nat) : value (bytes width n) = n % 256 ^ width := by
  induction width generalizing n with
  | zero => exact (Nat.mod_one n).symm
  | succ width ih =>
      calc value (bytes (width + 1) n)
          = n / 256 % 256 ^ width * 256 + n % 256 := by
            rw [bytes, value_append_singleton, ih, UInt8.toNat_ofNat']
        _ = n % (256 * 256 ^ width) := by
            rw [Nat.mod_mul]
            omega
        _ = n % 256 ^ (width + 1) := by rw [Nat.pow_succ']

/-- A number that fits its width is read back. -/
theorem value_bytes {width n : Nat} (hfits : n < 256 ^ width) : value (bytes width n) = n := by
  rw [value_bytes_mod, Nat.mod_eq_of_lt hfits]

/-- Digits are worth less than a digit more would be. -/
theorem value_lt (digits : List UInt8) : value digits < 256 ^ digits.length := by
  induction digits using List.reverseRecOn with
  | nil => simp
  | append_singleton digits digit ih =>
      have hdigit := digit.toNat_lt
      rw [value_append_singleton, List.length_append, List.length_singleton, Nat.pow_succ]
      omega

/-- Bytes are those of the number they are. -/
theorem bytes_value (digits : List UInt8) : bytes digits.length (value digits) = digits := by
  induction digits using List.reverseRecOn with
  | nil => rfl
  | append_singleton digits digit ih =>
      have hdigit : digit.toNat < 256 := digit.toNat_lt
      have hhigh : (value digits * 256 + digit.toNat) / 256 = value digits := by omega
      rw [List.length_append, List.length_singleton, bytes, value_append_singleton, hhigh, ih]
      congr 2
      apply UInt8.toNat_inj.mp
      rw [UInt8.toNat_ofNat']
      omega

/-- A number is written as its high digits, then its low ones. -/
theorem bytes_add (high low n : Nat) :
    bytes (high + low) n = bytes high (n / 256 ^ low) ++ bytes low n := by
  induction low generalizing n with
  | zero => simp [bytes]
  | succ low ih =>
      rw [← Nat.add_assoc, bytes, bytes, ih, List.append_assoc, Nat.pow_succ, Nat.mul_comm,
        Nat.div_div_eq_div_mul]

/-- The digits of nothing are zeros. -/
theorem bytes_zero (width : Nat) : bytes width 0 = List.replicate width 0 := by
  induction width with
  | zero => rfl
  | succ width ih =>
      rw [bytes, Nat.zero_div, ih, List.replicate_succ']
      rfl

/-- The digits of a number are all zero exactly where it is. -/
theorem bytes_eq_replicate_iff {width n : Nat} (hfits : n < 256 ^ width) :
    bytes width n = List.replicate width 0 ↔ n = 0 := by
  constructor
  · intro hzeros
    have hvalue := value_bytes hfits
    rw [hzeros, ← bytes_zero, value_bytes_mod, Nat.zero_mod] at hvalue
    exact hvalue.symm
  · rintro rfl
    exact bytes_zero width

/-- The leading digits of a number are all zero exactly where it fits the others. -/
theorem bytes_add_zero_iff {high low n : Nat} (hfits : n < 256 ^ (high + low)) :
    (∀ digit ∈ (bytes (high + low) n).take high, digit = 0) ↔ n < 256 ^ low := by
  have htake : (bytes (high + low) n).take high = bytes high (n / 256 ^ low) := by
    rw [bytes_add, List.take_left' (length_bytes _ _)]
  have hpos : 0 < 256 ^ low := Nat.pow_pos (by decide)
  have hhigh : n / 256 ^ low < 256 ^ high :=
    (Nat.div_lt_iff_lt_mul hpos).mpr (by rwa [← Nat.pow_add])
  have hall : (∀ digit ∈ bytes high (n / 256 ^ low), digit = 0) ↔
      bytes high (n / 256 ^ low) = List.replicate high 0 := by
    simp [List.eq_replicate_iff]
  rw [htake, hall, bytes_eq_replicate_iff hhigh, Nat.div_eq_zero_iff]
  exact ⟨fun h => h.resolve_left (Nat.ne_of_gt hpos), .inr⟩

end BigEndian
