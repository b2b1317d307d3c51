import Mathlib.Data.List.Infix

/-!
# Text - quoting, numbers and pieces of strings

How the language writes a string with `{:?}` and a number in hexadecimal, and
how it takes a string apart.  Of the characters beyond ASCII none is escaped
here; the language escapes those that do not print.
-/

namespace Bliti.Text

/-- A number in lower-case hexadecimal. -/
def hex (n : Nat) : String :=
  String.ofList (Nat.toDigits 16 n)

/-- A number in hexadecimal, padded with zeros to `width` digits. -/
def hexPadded (width n : Nat) : String :=
  let digits := Nat.toDigits 16 n
  String.ofList (List.replicate (width - digits.length) '0' ++ digits)

/-- A character as `{:?}` writes it within a string. -/
def debugChar (c : Char) : String :=
  match c with
  | '"' => "\\\""
  | '\\' => "\\\\"
  | '\t' => "\\t"
  | '\r' => "\\r"
  | '\n' => "\\n"
  | c =>
      if c.toNat = 0 then "\\0"
      else if c.toNat < 0x20 ∨ c.toNat = 0x7f then "\\u\x7b" ++ hex c.toNat ++ "\x7d"
      else c.toString

/-- A string as `{:?}` writes it. -/
def debug (s : String) : String :=
  "\"" ++ String.join (s.toList.map debugChar) ++ "\""

/-- Whether a string starts with another. -/
def startsWith (s head : String) : Bool :=
  head.toList.isPrefixOf s.toList

/-- Whether a string ends with another. -/
def endsWith (s tail : String) : Bool :=
  tail.toList.isSuffixOf s.toList

/-- What of a string follows another it starts with. -/
def afterHead (s head : String) : Option String :=
  if startsWith s head then some (String.ofList (s.toList.drop head.length)) else none

/-- What of a string comes before another it ends with. -/
def beforeTail (s tail : String) : Option String :=
  if endsWith s tail then some (String.ofList (s.toList.take (s.length - tail.length)))
  else none

/-- What comes before a string's end is the rest of it. -/
theorem append_of_beforeTail {s tail rest : String} (hrest : beforeTail s tail = some rest) :
    s = rest ++ tail := by
  unfold beforeTail endsWith at hrest
  split at hrest
  · rename_i hends
    obtain ⟨front, hfront⟩ := List.isSuffixOf_iff_suffix.mp hends
    have hlength : s.length - tail.length = front.length := by
      have htotal := congrArg List.length hfront
      simp only [List.length_append, String.length_toList] at htotal
      omega
    rw [← Option.some.inj hrest, hlength, ← hfront, List.take_left']
    · rw [← String.ofList_toList (s := s), ← hfront]
      simp
    · rfl
  · cases hrest

/-- A line less the carriage return before its line feed. -/
def endLine (line : List Char) : List Char :=
  if line.getLast? = some '\r' then line.dropLast else line

/-- The lines of pieces a text is parted into at its line feeds. -/
def linesOf : List (List Char) → List (List Char)
  | [] => []
  | [last] => if last = [] then [] else [last]
  | line :: rest => endLine line :: linesOf rest

/-- The lines of a text. -/
def lines (s : String) : List String :=
  (linesOf (s.toList.splitOn '\n')).map String.ofList

/-- Whether a character is white space. -/
def isWhitespace (c : Char) : Bool :=
  (0x09 ≤ c.toNat ∧ c.toNat ≤ 0x0d) ∨ c.toNat = 0x20 ∨ c.toNat = 0x85 ∨ c.toNat = 0xa0 ∨
    c.toNat = 0x1680 ∨ (0x2000 ≤ c.toNat ∧ c.toNat ≤ 0x200a) ∨ c.toNat = 0x2028 ∨
    c.toNat = 0x2029 ∨ c.toNat = 0x202f ∨ c.toNat = 0x205f ∨ c.toNat = 0x3000

/-- A string less the white space around it. -/
def trim (s : String) : String :=
  String.ofList ((s.toList.dropWhile isWhitespace).reverse.dropWhile isWhitespace).reverse

/-- A string less the white space before it. -/
def trimStart (s : String) : String :=
  String.ofList (s.toList.dropWhile isWhitespace)

/-- Whether a string holds another. -/
def contains (s piece : String) : Bool :=
  s.toList.tails.any fun rest => piece.toList.isPrefixOf rest

/-- The bytes of a string in lower-case hexadecimal. -/
def hexBytes (s : String) : String :=
  String.join (s.toByteArray.data.toList.map fun byte => hexPadded 2 byte.toNat)

/-- Whether a character is printable ASCII. -/
def isPrintable (c : Char) : Bool :=
  ' ' ≤ c && c ≤ '~'

end Bliti.Text
