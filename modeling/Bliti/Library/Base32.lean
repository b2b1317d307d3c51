import Mathlib

/-!
# Base32 - bytes written five bits a character

A codec between bytes and text is strict where each text it decodes is the one text of those bytes.
The unpadded base32 codec, whose last character's spare bits are zero, is strict.

Main results:

- Theorem `nopad_strict`: unpadded base32 is one.
-/

namespace Base32

/-- The characters of base32, each the digit at its place. -/
def alphabet : List Char :=
  "ABCDEFGHIJKLMNOPQRSTUVWXYZ234567".toList

/-- A codec between bytes and text. -/
structure Codec where
  encode : List UInt8 → String
  decode : String → Option (List UInt8)

/-- A codec is strict: its texts are of base32's characters, bytes are decoded from their text, and
a text that is decoded is that of its bytes. -/
structure Codec.Strict (codec : Codec) : Prop where
  mem_alphabet : ∀ bytes, ∀ c ∈ (codec.encode bytes).toList, c ∈ alphabet
  decode_encode : ∀ bytes, codec.decode (codec.encode bytes) = some bytes
  encode_decode : ∀ text bytes, codec.decode text = some bytes → codec.encode bytes = text

/-! ## Bits -/

/-- The number some bits are, the highest first. -/
def value (bits : List Bool) : ℕ :=
  bits.foldl (fun n bit => 2 * n + bit.toNat) 0

/-- The lowest bits of a number, the highest first. -/
def bitsOf (count n : ℕ) : List Bool :=
  (List.range count).reverse.map n.testBit

/-- The bits of bytes. -/
def toBits (bytes : List UInt8) : List Bool :=
  bytes.flatMap fun byte => bitsOf 8 byte.toNat

/-- The bytes of bits, any that make no whole byte left out. -/
def ofBits : List Bool → List UInt8
  | a :: b :: c :: d :: e :: f :: g :: h :: rest =>
      .ofNat (value [a, b, c, d, e, f, g, h]) :: ofBits rest
  | _ => []

/-- The character of five bits. -/
def charOf (bits : List Bool) : Char :=
  alphabet.getD (value bits) 'A'

/-- The characters of bits, the last of them filled up with zeros. -/
def writeBits : List Bool → List Char
  | a :: b :: c :: d :: e :: rest => charOf [a, b, c, d, e] :: writeBits rest
  | [a, b, c, d] => [charOf [a, b, c, d, false]]
  | [a, b, c] => [charOf [a, b, c, false, false]]
  | [a, b] => [charOf [a, b, false, false, false]]
  | [a] => [charOf [a, false, false, false, false]]
  | [] => []

/-- The bits of a character. -/
def readChar (c : Char) : Option (List Bool) :=
  if c ∈ alphabet then some (bitsOf 5 (alphabet.idxOf c)) else none

/-- The bits of characters. -/
def readChars : List Char → Option (List Bool)
  | [] => some []
  | c :: rest => do
      let bits ← readChar c
      let others ← readChars rest
      return bits ++ others

/-- The unpadded base32 codec, which decodes only what it encodes. -/
def nopad : Codec where
  encode bytes := String.ofList (writeBits (toBits bytes))
  decode text :=
    match readChars text.toList with
    | some bits =>
        if String.ofList (writeBits (toBits (ofBits bits))) = text then some (ofBits bits) else none
    | none => none

/-! ## Strictness -/

/-- Five bits are read back from their character, which is one of base32. -/
theorem readChar_charOf (a b c d e : Bool) :
    charOf [a, b, c, d, e] ∈ alphabet ∧ readChar (charOf [a, b, c, d, e]) = some [a, b, c, d, e] := by
  revert a b c d e
  decide

/-- Bits are written in base32's characters. -/
theorem mem_alphabet_of_writeBits {bits : List Bool} {c : Char} (hc : c ∈ writeBits bits) :
    c ∈ alphabet := by
  fun_induction writeBits bits with
  | case1 a b c d e rest ih =>
      rcases List.mem_cons.mp hc with rfl | hrest
      · exact (readChar_charOf a b c d e).1
      · exact ih hrest
  | case2 =>
      rw [List.mem_singleton.mp hc]
      exact (readChar_charOf _ _ _ _ _).1
  | case3 =>
      rw [List.mem_singleton.mp hc]
      exact (readChar_charOf _ _ _ _ _).1
  | case4 =>
      rw [List.mem_singleton.mp hc]
      exact (readChar_charOf _ _ _ _ _).1
  | case5 =>
      rw [List.mem_singleton.mp hc]
      exact (readChar_charOf _ _ _ _ _).1
  | case6 => cases hc

/-- Bits are read back as they were written, with the zeros they were filled up with. -/
theorem readChars_writeBits (bits : List Bool) :
    ∃ filled, readChars (writeBits bits) = some (bits ++ filled) ∧ filled.length < 5 := by
  fun_induction writeBits bits with
  | case1 a b c d e rest ih =>
      obtain ⟨filled, hread, hshort⟩ := ih
      refine ⟨filled, ?_, hshort⟩
      rw [readChars, (readChar_charOf a b c d e).2, hread]
      rfl
  | case2 a b c d =>
      refine ⟨[false], ?_, by decide⟩
      rw [readChars, (readChar_charOf a b c d false).2]
      rfl
  | case3 a b c =>
      refine ⟨[false, false], ?_, by decide⟩
      rw [readChars, (readChar_charOf a b c false false).2]
      rfl
  | case4 a b =>
      refine ⟨[false, false, false], ?_, by decide⟩
      rw [readChars, (readChar_charOf a b false false false).2]
      rfl
  | case5 a =>
      refine ⟨[false, false, false, false], ?_, by decide⟩
      rw [readChars, (readChar_charOf a false false false false).2]
      rfl
  | case6 => exact ⟨[], rfl, by decide⟩

/-- The lowest bits of a number are its remainder. -/
theorem value_bitsOf_mod (count n : ℕ) : value (bitsOf count n) = n % 2 ^ count := by
  induction count generalizing n with
  | zero => simp [bitsOf, value, Nat.mod_one]
  | succ count ih =>
      have hbits : bitsOf (count + 1) n = bitsOf count (n / 2) ++ [n.testBit 0] := by
        simp [bitsOf, List.range_succ_eq_map, Nat.testBit_succ]
      have hvalue : value (bitsOf count (n / 2) ++ [n.testBit 0]) =
          2 * value (bitsOf count (n / 2)) + (n.testBit 0).toNat := by
        simp [value, List.foldl_append]
      have hlast : (n.testBit 0).toNat = n % 2 := by
        rcases Nat.mod_two_eq_zero_or_one n with heven | hodd
        · simp [Nat.testBit_zero, heven]
        · simp [Nat.testBit_zero, hodd]
      rw [hbits, hvalue, ih, hlast, Nat.pow_succ', Nat.mod_mul]
      omega

/-- A byte is the number of its bits. -/
theorem value_bitsOf (byte : UInt8) : value (bitsOf 8 byte.toNat) = byte.toNat := by
  rw [value_bitsOf_mod]
  exact Nat.mod_eq_of_lt byte.toNat_lt

/-- Bytes are read back from their bits, whatever less than a byte follows. -/
theorem ofBits_toBits (bytes : List UInt8) {rest : List Bool} (hrest : rest.length < 8) :
    ofBits (toBits bytes ++ rest) = bytes := by
  induction bytes with
  | nil =>
      unfold ofBits
      split
      · rename_i hlong
        rw [toBits, List.flatMap_nil, List.nil_append] at hlong
        rw [hlong] at hrest
        simp only [List.length_cons] at hrest
        omega
      · rfl
  | cons byte bytes ih =>
      have hbits : toBits (byte :: bytes) ++ rest =
          bitsOf 8 byte.toNat ++ (toBits bytes ++ rest) := by
        rw [toBits, List.flatMap_cons, List.append_assoc]
        rfl
      have hbyte : ofBits (bitsOf 8 byte.toNat ++ (toBits bytes ++ rest)) =
          .ofNat (value (bitsOf 8 byte.toNat)) :: ofBits (toBits bytes ++ rest) := rfl
      rw [hbits, hbyte, ih, value_bitsOf, UInt8.ofNat_toNat]

/-- Unpadded base32 is strict. -/
theorem nopad_strict : nopad.Strict where
  mem_alphabet bytes c hc := by
    rw [nopad, String.toList_ofList] at hc
    exact mem_alphabet_of_writeBits hc
  decode_encode bytes := by
    obtain ⟨filled, hread, hshort⟩ := readChars_writeBits (toBits bytes)
    have hbytes : ofBits (toBits bytes ++ filled) = bytes := ofBits_toBits bytes (by omega)
    simp only [nopad, String.toList_ofList, hread, hbytes, if_true]
  encode_decode text bytes hdecode := by
    simp only [nopad] at hdecode ⊢
    split at hdecode
    · split at hdecode
      · rename_i hsame
        rw [← Option.some.inj hdecode]
        exact hsame
      · cases hdecode
    · cases hdecode

end Base32
