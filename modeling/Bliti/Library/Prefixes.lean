import Mathlib
import Bliti.Library.BigEndian

/-!
# Prefixes - readers that take the front of their input

A reader gives a value and what is left of its input, or nothing where its input is too short or
is not what it reads.  Each is characterised by the inputs it reads: those that start with a
value written out.  Numbers are written with their smallest digit first.

Main results:

- Theorem `take_eq_some_iff`: what so many bytes are read of.
- Theorem `number_eq_some_iff`: what a number is read of.
- Theorem `literal_eq_some_iff`: what a fixed text is read of.
-/

namespace Prefixes

/-- A reader of the front of some bytes. -/
abbrev Reader (α : Type) := List UInt8 → Option (α × List UInt8)

variable {input rest taken : List UInt8} {width n : ℕ}

/-- Read so many bytes. -/
def take (n : ℕ) : Reader (List UInt8) := fun input =>
  if input.length < n then none else some (input.take n, input.drop n)

/-- So many bytes are read of an input that starts with them. -/
theorem take_eq_some_iff :
    take n input = some (taken, rest) ↔ input = taken ++ rest ∧ taken.length = n := by
  unfold take
  constructor
  · intro htake
    split at htake
    · cases htake
    · rename_i hlong
      cases htake
      exact ⟨(List.take_append_drop n input).symm, List.length_take_of_le (Nat.le_of_not_lt hlong)⟩
  · rintro ⟨rfl, rfl⟩
    rw [if_neg (by simp), List.take_left, List.drop_left]

/-- Read a fixed text. -/
def literal (text : List UInt8) : Reader Unit := fun input =>
  if text.isPrefixOf input then some ((), input.drop text.length) else none

/-- A fixed text is read of an input that starts with it. -/
theorem literal_eq_some_iff {text : List UInt8} :
    literal text input = some ((), rest) ↔ input = text ++ rest := by
  unfold literal
  constructor
  · intro hread
    split at hread
    · rename_i hprefix
      obtain ⟨after, rfl⟩ := List.isPrefixOf_iff_prefix.mp hprefix
      rw [List.drop_left] at hread
      cases hread
      rfl
    · cases hread
  · rintro rfl
    rw [if_pos (List.isPrefixOf_iff_prefix.mpr (List.prefix_append text rest)), List.drop_left]

/-- The bytes of a number at a width, the smallest digit first. -/
def digits (width n : ℕ) : List UInt8 :=
  (BigEndian.bytes width n).reverse

@[simp] theorem length_digits (width n : ℕ) : (digits width n).length = width := by
  simp [digits]

/-- Read a number of a width, its smallest digit first. -/
def number (width : ℕ) : Reader ℕ := fun input =>
  (take width input).map fun (bytes, rest) => (BigEndian.value bytes.reverse, rest)

/-- A number is read of an input that starts with its digits. -/
theorem number_eq_some_iff :
    number width input = some (n, rest) ↔ n < 256 ^ width ∧ input = digits width n ++ rest := by
  unfold number
  constructor
  · intro hread
    obtain ⟨⟨bytes, after⟩, htake, hvalue⟩ := Option.map_eq_some_iff.mp hread
    obtain ⟨rfl, rfl⟩ := take_eq_some_iff.mp htake
    obtain ⟨rfl, rfl⟩ := Prod.mk.inj hvalue
    constructor
    · simpa using BigEndian.value_lt bytes.reverse
    · have hbytes := BigEndian.bytes_value bytes.reverse
      rw [List.length_reverse] at hbytes
      rw [digits, hbytes, List.reverse_reverse]
  · rintro ⟨hfits, rfl⟩
    have htake : take width (digits width n ++ rest) = some (digits width n, rest) :=
      take_eq_some_iff.mpr ⟨rfl, length_digits width n⟩
    rw [htake, Option.map_some]
    dsimp only
    rw [digits, List.reverse_reverse, BigEndian.value_bytes hfits]

end Prefixes
