import Mathlib.Data.List.Basic
import Bliti.Text

/-!
# Text - bytes in hexadecimal

A string's bytes written in hexadecimal, two digits each, are those of no other.
-/

namespace Bliti.Text

/-- Lists of blocks of one length, each block of one element only, are those of one list. -/
theorem flatMap_injective {α β : Type*} {f : α → List β} {n : Nat} (hpositive : 0 < n)
    (hlength : ∀ a, (f a).length = n) (hf : Function.Injective f) :
    Function.Injective fun as : List α => as.flatMap f := by
  intro as bs
  induction as generalizing bs with
  | nil =>
      intro hsame
      cases bs with
      | nil => rfl
      | cons b bs =>
          have hlengths := congrArg List.length hsame
          simp only [List.flatMap_nil, List.flatMap_cons, List.length_nil, List.length_append,
            hlength] at hlengths
          omega
  | cons a as ih =>
      intro hsame
      cases bs with
      | nil =>
          have hlengths := congrArg List.length hsame
          simp only [List.flatMap_nil, List.flatMap_cons, List.length_nil, List.length_append,
            hlength] at hlengths
          omega
      | cons b bs =>
          simp only [List.flatMap_cons] at hsame
          obtain ⟨hfirst, hrest⟩ := List.append_inj hsame ((hlength a).trans (hlength b).symm)
          rw [hf hfirst, ih hrest]

/-- The number a hexadecimal digit stands for. -/
def hexValue (c : Char) : Nat :=
  if c.isDigit then c.toNat - '0'.toNat else c.toNat - 'a'.toNat + 10

/-- The number some hexadecimal digits stand for. -/
def hexNumber (digits : List Char) : Nat :=
  digits.foldl (fun n c => 16 * n + hexValue c) 0

/-- A byte is written in two digits that stand for it. -/
theorem hexPadded_byte (byte : UInt8) :
    (hexPadded 2 byte.toNat).toList.length = 2 ∧
      hexNumber (hexPadded 2 byte.toNat).toList = byte.toNat := by
  have hall : ∀ n < 256, (hexPadded 2 n).toList.length = 2 ∧
      hexNumber (hexPadded 2 n).toList = n := by decide +kernel
  exact hall byte.toNat byte.toNat_lt

/-- Two strings whose bytes are written the same are the same. -/
theorem hexBytes_injective : Function.Injective hexBytes := by
  have hblocks : Function.Injective fun bytes : List UInt8 =>
      bytes.flatMap fun byte => (hexPadded 2 byte.toNat).toList := by
    apply flatMap_injective (by omega) fun byte => (hexPadded_byte byte).1
    intro byte other hsame
    have hnumbers := congrArg hexNumber hsame
    simp only [(hexPadded_byte byte).2, (hexPadded_byte other).2] at hnumbers
    exact UInt8.toNat_inj.mp hnumbers
  intro s t hsame
  have hbytes : s.toByteArray.data.toList = t.toByteArray.data.toList := by
    apply hblocks
    have hchars := congrArg String.toList hsame
    simpa [hexBytes, List.flatMap, Function.comp_def] using hchars
  apply String.toByteArray_inj.mp
  exact ByteArray.ext (Array.toList_inj.mp hbytes)

/-- Bytes in lower-case hexadecimal. -/
def hexEncode (bytes : List UInt8) : String :=
  String.ofList (bytes.flatMap fun byte => (hexPadded 2 byte.toNat).toList)

/-- The number a hexadecimal digit of either case stands for. -/
def hexDigit (c : Char) : Option Nat :=
  if 'A' ≤ c ∧ c ≤ 'F' then some (c.toNat - 'A'.toNat + 10)
  else if 'a' ≤ c ∧ c ≤ 'f' then some (c.toNat - 'a'.toNat + 10)
  else if '0' ≤ c ∧ c ≤ '9' then some (c.toNat - '0'.toNat)
  else none

/-- The bytes hexadecimal digits are those of, two for each. -/
def hexDecodeChars : List Char → Option (List UInt8)
  | [] => some []
  | [_] => none
  | high :: low :: rest =>
      match hexDigit high, hexDigit low, hexDecodeChars rest with
      | some high, some low, some bytes => some (UInt8.ofNat (16 * high + low) :: bytes)
      | _, _, _ => none

/-- The bytes a string writes in hexadecimal. -/
def hexDecode (text : String) : Option (List UInt8) :=
  hexDecodeChars text.toList

/-- The digits of a byte are read back before any others. -/
theorem hexDecodeChars_byte (byte : UInt8) (rest : List Char) :
    hexDecodeChars ((hexPadded 2 byte.toNat).toList ++ rest) =
      (hexDecodeChars rest).map (byte :: ·) := by
  have hall : ∀ n < 256, ∃ high low, (hexPadded 2 n).toList = [high, low] ∧
      ∃ a b, hexDigit high = some a ∧ hexDigit low = some b ∧ 16 * a + b = n := by
    intro n hn
    have hdigits : ∀ n < 256, (hexPadded 2 n).toList =
          [(hexPadded 2 n).toList.getD 0 ' ', (hexPadded 2 n).toList.getD 1 ' '] ∧
        hexDigit ((hexPadded 2 n).toList.getD 0 ' ') = some (n / 16) ∧
        hexDigit ((hexPadded 2 n).toList.getD 1 ' ') = some (n % 16) := by
      decide +kernel
    obtain ⟨hpair, hhigh, hlow⟩ := hdigits n hn
    exact ⟨_, _, hpair, _, _, hhigh, hlow, Nat.div_add_mod n 16⟩
  obtain ⟨high, low, hpair, a, b, hhigh, hlow, hvalue⟩ := hall byte.toNat byte.toNat_lt
  rw [hpair, List.cons_append, List.cons_append, List.nil_append, hexDecodeChars, hhigh, hlow]
  cases hexDecodeChars rest with
  | none => rfl
  | some bytes => simp [hvalue]

/-- Bytes written in hexadecimal are read back. -/
@[simp]
theorem hexDecode_hexEncode (bytes : List UInt8) : hexDecode (hexEncode bytes) = some bytes := by
  rw [hexDecode, hexEncode, String.toList_ofList]
  induction bytes with
  | nil => rfl
  | cons byte rest ih => rw [List.flatMap_cons, hexDecodeChars_byte, ih, Option.map_some]

end Bliti.Text
