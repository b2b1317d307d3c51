import Mathlib
import Bliti.Text

/-!
# Text - bytes read as UTF-8 whatever they are

Bytes are read a character at a time.  Where they are no character, as many of them as could have
been the start of one are read as the replacement character.
-/

namespace Bliti.Text

/-- What is read where bytes are no character. -/
def replacement : Char := '\uFFFD'

/-- How many bytes a character takes that starts with one, or none where no character does. -/
def utf8Width (b : UInt8) : ℕ :=
  if b < 0x80 then 1
  else if 0xC2 ≤ b ∧ b ≤ 0xDF then 2
  else if 0xE0 ≤ b ∧ b ≤ 0xEF then 3
  else if 0xF0 ≤ b ∧ b ≤ 0xF4 then 4
  else 0

/-- A byte goes on with a character. -/
def isContinuation (c : UInt8) : Bool :=
  0x80 ≤ c && c ≤ 0xBF

/-- A byte may follow the first of a character: what would be overlong, a surrogate or past the last
character is left out. -/
def mayFollow (b c : UInt8) : Bool :=
  if b = 0xE0 then 0xA0 ≤ c && c ≤ 0xBF
  else if b = 0xED then 0x80 ≤ c && c ≤ 0x9F
  else if b = 0xF0 then 0x90 ≤ c && c ≤ 0xBF
  else if b = 0xF4 then 0x80 ≤ c && c ≤ 0x8F
  else isContinuation c

/-- The bytes that go on with a character after its first. -/
def following (b : UInt8) : List UInt8 → List UInt8
  | [] => []
  | c :: rest => if mayFollow b c then c :: rest.takeWhile isContinuation else []

/-- The character some bytes start with, and how many it takes of those after the first. -/
def firstChar (b : UInt8) (rest : List UInt8) : Char × ℕ :=
  let width := utf8Width b
  let after := following b (rest.take (width - 1))
  if width = 0 then (replacement, 0)
  else if after.length = width - 1 then
    let lead := b.toNat % 2 ^ (if width = 1 then 7 else 7 - width)
    (Char.ofNat (after.foldl (fun n c => n * 64 + c.toNat % 64) lead), after.length)
  else (replacement, after.length)

/-- The characters of some bytes. -/
def lossyChars : List UInt8 → List Char
  | [] => []
  | b :: rest =>
      let (c, n) := firstChar b rest
      c :: lossyChars (rest.drop n)
termination_by bytes => bytes.length
decreasing_by
  rw [List.length_drop, List.length_cons]
  omega

/-- The text of some bytes. -/
def fromUtf8Lossy (bytes : List UInt8) : String :=
  String.ofList (lossyChars bytes)

end Bliti.Text
