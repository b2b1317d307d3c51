import Bliti.Network.Observe

/-!
# Addresses - internet addresses as text

How the language reads an internet address from text and writes it as text: the
older family as four numbers, the newer as eight groups, of which a run of zeros
may be left out.
-/

namespace Bliti.Network

/-! ## Reading -/

namespace Address

/-- What follows a character at the start of a text. -/
def readChar (c : Char) : List Char → Option (List Char)
  | [] => none
  | first :: rest => if first = c then some rest else none

/-- The value of a digit. -/
def digit (radix : Nat) (c : Char) : Option Nat :=
  let value :=
    if '0' ≤ c ∧ c ≤ '9' then some (c.toNat - 48)
    else if 'a' ≤ c ∧ c ≤ 'z' then some (c.toNat - 87)
    else if 'A' ≤ c ∧ c ≤ 'Z' then some (c.toNat - 55)
    else none
  value.filter fun value => value < radix

/-- The digits a text starts with, and what follows them. -/
def takeDigits (radix : Nat) : List Char → List Nat × List Char
  | [] => ([], [])
  | c :: rest =>
      match digit radix c with
      | some value => (value :: (takeDigits radix rest).1, (takeDigits radix rest).2)
      | none => ([], c :: rest)

/-- The number a text starts with, below a bound and of so many digits. -/
def readNumber (radix maxDigits bound : Nat) (zeroPrefix : Bool) (text : List Char) :
    Option (Nat × List Char) :=
  let (digits, rest) := takeDigits radix text
  let value := digits.foldl (fun value digit => value * radix + digit) 0
  if digits = [] ∨ maxDigits < digits.length then none
  else if !zeroPrefix && digits.head? = some 0 && 1 < digits.length then none
  else if value < bound then some (value, rest)
  else none

/-- The address of the older family a text starts with. -/
def readIpv4 (text : List Char) : Option (Nat × List Char) := do
  let (a, rest) ← readNumber 10 3 256 false text
  let (b, rest) ← (readChar '.' rest).bind (readNumber 10 3 256 false)
  let (c, rest) ← (readChar '.' rest).bind (readNumber 10 3 256 false)
  let (d, rest) ← (readChar '.' rest).bind (readNumber 10 3 256 false)
  pure (((a * 256 + b) * 256 + c) * 256 + d, rest)

/-- The groups a text starts with, at most so many, whether the last two of them
were written as an address of the older family, and what follows. -/
def readGroups (first : Bool) (text : List Char) : Nat → List Nat × Bool × List Char
  | 0 => ([], false, text)
  | left + 1 =>
      let separated := if first then some text else readChar ':' text
      -- An address of the older family stands for two groups.
      match if 0 < left then separated.bind readIpv4 else none with
      | some (value, rest) => ([value / 65536, value % 65536], true, rest)
      | none =>
          match separated.bind (readNumber 16 4 65536 true) with
          | some (group, rest) =>
              let (groups, ipv4, rest) := readGroups false rest left
              (group :: groups, ipv4, rest)
          | none => ([], false, text)

/-- The address eight groups make. -/
def ofGroups (groups : List Nat) : Nat :=
  groups.foldl (fun value group => value * 65536 + group) 0

/-- The address of the newer family a text starts with. -/
def readIpv6 (text : List Char) : Option (Nat × List Char) :=
  let (head, ipv4, rest) := readGroups true text 8
  if head.length = 8 then some (ofGroups head, rest)
  else if ipv4 then none
  else do
    let rest ← (readChar ':' rest).bind (readChar ':')
    -- What is left out is at least one group.
    let (tail, _, rest) := readGroups true rest (7 - head.length)
    let zeros := List.replicate (8 - head.length - tail.length) 0
    pure (ofGroups (head ++ zeros ++ tail), rest)

end Address

open Address

/-- The address a text is of: `IpAddr::from_str`. -/
def IpAddr.fromStr (s : String) : Option IpAddr :=
  match readIpv4 s.toList with
  | some (value, rest) => if rest = [] then some (toLex (false, value)) else none
  | none =>
      match readIpv6 s.toList with
      | some (value, rest) => if rest = [] then some (toLex (true, value)) else none
      | none => none

/-! ## Writing -/

namespace Address

/-- An address of the older family as it is written. -/
def displayIpv4 (value : Nat) : String :=
  ".".intercalate ([value / 16777216, value / 65536 % 256, value / 256 % 256, value % 256].map
    toString)

/-- The groups of an address of the newer family. -/
def groups (value : Nat) : List Nat :=
  [7, 6, 5, 4, 3, 2, 1, 0].map fun place => value / 65536 ^ place % 65536

/-- How many zeros some groups start with. -/
def zerosAt (groups : List Nat) : Nat :=
  (groups.takeWhile fun group => group == 0).length

/-- Where the first of the longest runs of zeros is, and how long it is. -/
def longestZeros (groups : List Nat) : Nat × Nat :=
  (List.range groups.length).foldl (fun longest start =>
    if longest.2 < zerosAt (groups.drop start) then (start, zerosAt (groups.drop start))
    else longest) (0, 0)

/-- Some groups as they are written. -/
def displayGroups (groups : List Nat) : String :=
  ":".intercalate (groups.map Text.hex)

/-- An address of the newer family as it is written. -/
def displayIpv6 (value : Nat) : String :=
  let all := groups value
  if all.take 6 = [0, 0, 0, 0, 0, 65535] then "::ffff:" ++ displayIpv4 (value % 4294967296)
  else
    let (start, length) := longestZeros all
    if 1 < length then
      displayGroups (all.take start) ++ "::" ++ displayGroups (all.drop (start + length))
    else displayGroups all

end Address

/-- An address as it is written. -/
def IpAddr.display (address : IpAddr) : String :=
  if isIpv6 address then displayIpv6 (ofLex address).2 else displayIpv4 (ofLex address).2

/-- A text with a run of zeros left out is written with it left out. -/
example : (IpAddr.fromStr "fd00:0::1:10.0.0.1").map IpAddr.display = some "fd00::1:a00:1" := by
  decide

end Bliti.Network
