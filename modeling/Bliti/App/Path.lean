import Bliti.Channel.Config
import Bliti.Library.Doubles
import Mathlib.Tactic.IntervalCases

/-!
# App - normalized paths

The screens name a node of a document by its normalized path, which the device writes too.  A text is
its units of 16 bits, as a page holds it, and an index is a number of 53 bits.
-/

namespace Bliti.App.Path

open Doubles (Whole)

/-! ## Paths as the screens write them -/

/-- One step of a path: a member by its name, or an element of an array by a number. -/
inductive Segment where
  | name (name : List UInt16)
  | index (index : Whole)
  | infinity
deriving DecidableEq

/-- The unit of a character that one stands for. -/
def ofChar (c : Char) : UInt16 := UInt16.ofNat c.toNat

/-- The units of a character. -/
def encode (c : Char) : List UInt16 :=
  if c.toNat < 0x10000 then [ofChar c]
  else [UInt16.ofNat (0xD800 + (c.toNat - 0x10000) / 0x400),
    UInt16.ofNat (0xDC00 + (c.toNat - 0x10000) % 0x400)]

/-- The units of a text. -/
def units (s : String) : List UInt16 :=
  s.toList.flatMap encode

/-- A text with zeros before it, up to a width. -/
def padStart (width : ℕ) (text : List UInt16) : List UInt16 :=
  List.replicate (width - text.length) 0x30 ++ text

/-- The units that are escaped by one, each with the one that stands for it. -/
def ESCAPES : List (UInt16 × UInt16) :=
  [(0x8, 0x62), (0xC, 0x66), (0xA, 0x6E), (0xD, 0x72), (0x9, 0x74), (0x27, 0x27), (0x5C, 0x5C)]

/-- A unit of a name, escaped where it is to be.  No escape is of a unit that is half of a character,
so that a name's characters are escaped unit by unit. -/
def escapeUnit (u : UInt16) : List UInt16 :=
  match ESCAPES.find? fun escape => escape.1 == u with
  | some escape => [0x5C, escape.2]
  | none =>
      if u < 0x20 then 0x5C :: 0x75 :: padStart 4 ((Nat.toDigits 16 u.toNat).map ofChar)
      else [u]

/-- A name, escaped. -/
def escape (name : List UInt16) : List UInt16 :=
  name.flatMap escapeUnit

/-- The digits of a segment that is a number. -/
def numeral : Segment → List UInt16
  | .name _ => []
  | .index index => index.text.map ofChar
  | .infinity => units "Infinity"

/-- One segment of a path. -/
def Segment.text : Segment → List UInt16
  | .name member => 0x5B :: 0x27 :: (escape member ++ [0x27, 0x5D])
  | segment => 0x5B :: (numeral segment ++ [0x5D])

/-- The path of the node reached by some segments. -/
def pathOf (segments : List Segment) : List UInt16 :=
  0x24 :: segments.flatMap Segment.text

/-- Whether a path names the node of another or a node beneath it. -/
def within (at_ path : List UInt16) : Bool :=
  at_ == path || (path ++ [0x5B]).isPrefixOf at_

/-- The key of the candidate a path falls within, where it falls within one. -/
def candidateAt {κ : Type} (at_ : List UInt16) (keys : List κ) : Option κ :=
  (keys.zipIdx.find? fun (_, index) =>
    within at_ (pathOf [.name (units "attachments"), .index (Whole.of index)])).map Prod.fst

/-! ## Paths as they are read -/

/-- Whether a unit is a digit. -/
def isDigit (u : UInt16) : Bool := 0x30 ≤ u && u ≤ 0x39

/-- Whether a unit is a hexadecimal digit, in lower case. -/
def isHex (u : UInt16) : Bool := isDigit u || (0x61 ≤ u && u ≤ 0x66)

/-- What a hexadecimal digit stands for. -/
def hexDigit (u : UInt16) : ℕ := if isDigit u then u.toNat - 0x30 else u.toNat - 0x57

/-- Whether a unit ends a line, which no pattern of any one unit matches. -/
def endsLine (u : UInt16) : Bool := u == 0xA || u == 0xD || u == 0x2028 || u == 0x2029

/-- The units that stand for one in an escape, each with the one it stands for. -/
def UNESCAPES : List (UInt16 × UInt16) :=
  [(0x62, 0x8), (0x66, 0xC), (0x6E, 0xA), (0x72, 0xD), (0x74, 0x9), (0x27, 0x27), (0x5C, 0x5C)]

/-- What an escape of one unit stands for. -/
def unescape (u : UInt16) : List UInt16 :=
  match UNESCAPES.find? fun escape => escape.1 == u with
  | some escape => [escape.2]
  | none => units "undefined"

/-- The unit that some hexadecimal digits stand for. -/
def hexValue (digits : List UInt16) : ℕ :=
  digits.foldl (fun value u => 16 * value + hexDigit u) 0

/-- Read a name up to the quote that ends it, and what comes after. -/
def readName : List UInt16 → Option (List UInt16 × List UInt16)
  | [] => none
  | u :: rest =>
      if u = 0x27 then
        match rest with
        | v :: after => if v = 0x5D then some ([], after) else none
        | [] => none
      else if u ≠ 0x5C then (readName rest).map fun (name, after) => (u :: name, after)
      else
        match rest with
        | v :: a :: b :: c :: d :: after =>
            if v = 0x75 ∧ [a, b, c, d].all isHex then
              (readName after).map fun (name, after) =>
                (UInt16.ofNat (hexValue [a, b, c, d]) :: name, after)
            else if endsLine v then none
            else (readName (a :: b :: c :: d :: after)).map fun (name, after) =>
              (unescape v ++ name, after)
        | v :: after =>
            if endsLine v then none
            else (readName after).map fun (name, after) => (unescape v ++ name, after)
        | [] => none

/-- The number that some digits stand for. -/
def number (digits : List UInt16) : Segment :=
  let value := digits.foldl (fun value u => 10 * value + (u.toNat - 0x30)) 0
  if Doubles.nearest value < 2 ^ 1024 then .index (Whole.of value) else .infinity

/-- Read an index up to the bracket that ends it, and what comes after. -/
def readIndex (text : List UInt16) : Option (Segment × List UInt16) :=
  match text.dropWhile isDigit with
  | u :: after =>
      if u = 0x5D ∧ text.takeWhile isDigit ≠ [] then some (number (text.takeWhile isDigit), after)
      else none
  | [] => none

/-- Read a segment, and what comes after. -/
def readSegment : List UInt16 → Option (Segment × List UInt16)
  | u :: v :: rest =>
      if u ≠ 0x5B then none
      else if v = 0x27 then (readName rest).map fun (name, after) => (.name name, after)
      else readIndex (v :: rest)
  | _ => none

/-- Read segments one after another, each of which is of some units. -/
def segmentsFrom : ℕ → List UInt16 → Option (List Segment)
  | _, [] => some []
  | 0, _ :: _ => none
  | fuel + 1, text =>
      match readSegment text with
      | some (segment, after) => (segmentsFrom fuel after).map fun rest => segment :: rest
      | none => none

/-- The segments of a path, where a text is one. -/
def segmentsOf : List UInt16 → Option (List Segment)
  | u :: text => if u = 0x24 then segmentsFrom text.length text else none
  | [] => none

/-! ## A name is read back -/

/-- The digits of a control are four, and stand for it. -/
theorem hexValue_padStart {n : ℕ} (hn : n < 32) :
    ∃ a b c d, padStart 4 ((Nat.toDigits 16 n).map ofChar) = [a, b, c, d] ∧
      [a, b, c, d].all isHex = true ∧ hexValue [a, b, c, d] = n := by
  have hall : ∀ n < 32, (padStart 4 ((Nat.toDigits 16 n).map ofChar)).length = 4 ∧
      (padStart 4 ((Nat.toDigits 16 n).map ofChar)).all isHex = true ∧
      hexValue (padStart 4 ((Nat.toDigits 16 n).map ofChar)) = n := by decide
  obtain ⟨hlength, hhex, hvalue⟩ := hall n hn
  match h : padStart 4 ((Nat.toDigits 16 n).map ofChar) with
  | [a, b, c, d] => exact ⟨a, b, c, d, rfl, h ▸ hhex, h ▸ hvalue⟩
  | [] | [_] | [_, _] | [_, _, _] | _ :: _ :: _ :: _ :: _ :: _ =>
      rw [h] at hlength
      simp at hlength

/-- An escape of one unit is read as what it stands for. -/
theorem readName_escape {v : UInt16} (hv : v ≠ 0x75) (hend : endsLine v = false)
    (text : List UInt16) : readName (0x5C :: v :: text) =
      (readName text).map fun (name, after) => (unescape v ++ name, after) := by
  have hquote : (0x5C : UInt16) ≠ 0x27 := by decide
  rw [readName, if_neg hquote, if_neg (by decide)]
  match text with
  | a :: b :: c :: d :: after =>
      dsimp only
      rw [if_neg fun h => hv h.1, hend, if_neg Bool.false_ne_true]
  | [] | [_] | [_, _] | [_, _, _] =>
      dsimp only
      rw [hend, if_neg Bool.false_ne_true]

/-- A unit that is escaped by one is read back. -/
theorem unescape_of_mem {escape : UInt16 × UInt16} (h : escape ∈ ESCAPES) :
    escape.2 ≠ 0x75 ∧ endsLine escape.2 = false ∧ unescape escape.2 = [escape.1] := by
  have hall : ESCAPES.all (fun escape => decide (escape.2 ≠ 0x75 ∧ endsLine escape.2 = false ∧
      unescape escape.2 = [escape.1])) = true := by decide
  exact of_decide_eq_true (List.all_eq_true.mp hall escape h)

/-- A unit is read back from how it is escaped. -/
theorem readName_escapeUnit (u : UInt16) (text : List UInt16) :
    readName (escapeUnit u ++ text) =
      (readName text).map fun (name, after) => (u :: name, after) := by
  unfold escapeUnit
  cases hfind : ESCAPES.find? fun escape => escape.1 == u with
  | some escape =>
      obtain ⟨hnot, hend, hvalue⟩ := unescape_of_mem (List.mem_of_find?_eq_some hfind)
      have hunit : escape.1 = u := by simpa using List.find?_some hfind
      dsimp only
      change readName (0x5C :: escape.2 :: text) = _
      rw [readName_escape hnot hend, hvalue, hunit]
      rfl
  | none =>
      have hnone := List.find?_eq_none.mp hfind
      have hquote : u ≠ 0x27 := fun h => hnone (0x27, 0x27) (by decide) (beq_iff_eq.mpr h.symm)
      have hback : u ≠ 0x5C := fun h => hnone (0x5C, 0x5C) (by decide) (beq_iff_eq.mpr h.symm)
      dsimp only
      split
      · rename_i hcontrol
        have hless : u.toNat < 32 := hcontrol
        obtain ⟨a, b, c, d, hpad, hhex, hvalue⟩ := hexValue_padStart hless
        rw [hpad]
        change readName (0x5C :: 0x75 :: a :: b :: c :: d :: text) = _
        rw [readName, if_neg (by decide), if_neg (by decide)]
        dsimp only
        rw [if_pos ⟨rfl, hhex⟩, hvalue, UInt16.ofNat_toNat]
      · rw [List.singleton_append, readName.eq_def]
        dsimp only
        rw [if_neg hquote, if_pos hback]

/-- A name is read back from how it is escaped, up to the quote that ends it. -/
theorem readName_escape_append (name after : List UInt16) :
    readName (escape name ++ 0x27 :: 0x5D :: after) = some (name, after) := by
  induction name with
  | nil =>
      rw [escape, List.flatMap_nil, List.nil_append, readName, if_pos rfl]
      rfl
  | cons u name ih =>
      rw [escape, List.flatMap_cons, List.append_assoc, readName_escapeUnit, ← escape, ih]
      rfl

/-! ## A number is read back -/

/-- A character of 16 bits is its own unit. -/
theorem toNat_ofChar {c : Char} (h : c.toNat < 0x10000) : (ofChar c).toNat = c.toNat :=
  UInt16.toNat_ofNat_of_lt h

/-- A sign of a number is a character of 16 bits. -/
theorem toNat_lt_of_sign {c : Char} (h : Doubles.Sign c) : c.toNat < 0x10000 := by
  rcases h with hdigit | rfl | rfl | rfl
  · rw [Char.isDigit, Bool.and_eq_true, decide_eq_true_iff, decide_eq_true_iff] at hdigit
    have hhigh : c.toNat ≤ 57 := hdigit.2
    omega
  all_goals decide

/-- A digit's unit is a digit. -/
theorem isDigit_ofChar {c : Char} (h : c.isDigit = true) : isDigit (ofChar c) = true := by
  have hunit := toNat_ofChar (toNat_lt_of_sign (.inl h))
  rw [Char.isDigit, Bool.and_eq_true, decide_eq_true_iff, decide_eq_true_iff] at h
  have hlow : 48 ≤ c.toNat := h.1
  have hhigh : c.toNat ≤ 57 := h.2
  rw [isDigit, Bool.and_eq_true, decide_eq_true_iff, decide_eq_true_iff]
  exact ⟨UInt16.le_iff_toNat_le.mpr (by rw [hunit]; exact hlow),
    UInt16.le_iff_toNat_le.mpr (by rw [hunit]; exact hhigh)⟩

/-- Texts of signs are told apart by their units. -/
theorem map_ofChar_injective {text other : List Char} (h : ∀ c ∈ text, Doubles.Sign c)
    (h' : ∀ c ∈ other, Doubles.Sign c) (hsame : text.map ofChar = other.map ofChar) :
    text = other := by
  have hread : ∀ chars : List Char, (∀ c ∈ chars, Doubles.Sign c) →
      (chars.map ofChar).map UInt16.toNat = chars.map Char.toNat := by
    intro chars hchars
    rw [List.map_map]
    exact List.map_congr_left fun c hc => toNat_ofChar (toNat_lt_of_sign (hchars c hc))
  apply List.map_injective_iff.mpr (fun c d hcd => Char.toNat_inj.mp hcd : Function.Injective Char.toNat)
  rw [← hread text h, hsame, hread other h']

/-- A number is read back from its digits. -/
theorem number_toDigits (v : ℕ) (h : Doubles.nearest v < 2 ^ 1024) :
    number ((Nat.toDigits 10 v).map ofChar) = .index (Whole.of v) := by
  have hvalue : ((Nat.toDigits 10 v).map ofChar).foldl
      (fun value u => 10 * value + (u.toNat - 0x30)) 0 = v := by
    rw [List.foldl_map]
    refine Eq.trans ?_ (Nat.ofDigitChars_toDigits (b := 10) (by decide) (by decide))
    rw [Nat.ofDigitChars_eq_foldl]
    refine List.foldl_ext _ _ _ fun value c hc => ?_
    rw [toNat_ofChar (toNat_lt_of_sign (.inl (Doubles.isDigit_of_mem hc)))]
    rfl
  rw [number, hvalue]
  exact if_pos h

/-- An index below 10 ^ 21 is read back. -/
theorem readIndex_append {index : Whole} (h : index.value < 10 ^ 21) (after : List UInt16) :
    readIndex (numeral (.index index) ++ 0x5D :: after) = some (.index index, after) := by
  have htext : numeral (.index index) = (Nat.toDigits 10 index.shortest).map ofChar := by
    rw [numeral, Whole.text_digits h]
  have hdigits : ∀ u ∈ (Nat.toDigits 10 index.shortest).map ofChar, isDigit u = true := by
    intro u hu
    obtain ⟨c, hc, rfl⟩ := List.mem_map.mp hu
    exact isDigit_ofChar (Doubles.isDigit_of_mem hc)
  have hround := index.nearest_shortest
  have hfinite : 10 ^ 21 < 2 ^ 1024 := calc
    10 ^ 21 < 2 ^ 70 := by decide
    _ ≤ 2 ^ 1024 := Nat.pow_le_pow_right (by decide) (by decide)
  have hnumber : number ((Nat.toDigits 10 index.shortest).map ofChar) = .index index := by
    rw [number_toDigits _ (by rw [hround]; exact h.trans hfinite)]
    exact congrArg Segment.index (Whole.ext_value hround)
  have hne : (Nat.toDigits 10 index.shortest).map ofChar ≠ [] := fun hnil =>
    Nat.toDigits_ne_nil (List.map_eq_nil_iff.mp hnil)
  rw [readIndex, htext, List.takeWhile_append_of_pos hdigits, List.dropWhile_append_of_pos hdigits,
    List.takeWhile_cons_of_neg (by decide), List.dropWhile_cons_of_neg (by decide), List.append_nil]
  dsimp only
  rw [if_pos ⟨rfl, hne⟩, hnumber]

/-! ## Paths told apart -/

theorem mem_numeral_index {index : Whole} {u : UInt16} (h : u ∈ numeral (.index index)) :
    ∃ c, Doubles.Sign c ∧ u = ofChar c := by
  obtain ⟨c, hc, rfl⟩ := List.mem_map.mp h
  exact ⟨c, Whole.mem_text hc, rfl⟩

/-- No numeral holds the bracket that ends it, or a quote. -/
theorem mem_numeral {segment : Segment} {u : UInt16} (h : u ∈ numeral segment) :
    u ≠ 0x5D ∧ u ≠ 0x27 := by
  cases segment with
  | name name => cases h
  | index index =>
      obtain ⟨c, hc, rfl⟩ := mem_numeral_index h
      have hunit := toNat_ofChar (toNat_lt_of_sign hc)
      have hother : c.toNat ≠ 0x5D ∧ c.toNat ≠ 0x27 := by
        rcases hc with hdigit | rfl | rfl | rfl
        · rw [Char.isDigit, Bool.and_eq_true, decide_eq_true_iff, decide_eq_true_iff] at hdigit
          have hlow : 48 ≤ c.toNat := hdigit.1
          have hhigh : c.toNat ≤ 57 := hdigit.2
          omega
        all_goals decide
      constructor <;> intro hsame <;> rw [hsame] at hunit
      · exact hother.1 hunit.symm
      · exact hother.2 hunit.symm
  | infinity =>
      have hall : (units "Infinity").all (fun u => decide (u ≠ 0x5D ∧ u ≠ 0x27)) = true := by
        decide
      exact of_decide_eq_true (List.all_eq_true.mp hall u h)

/-- Whether a segment is a number. -/
def Segment.isNumber : Segment → Bool
  | .name _ => false
  | .index _ => true
  | .infinity => true

/-- Segments that are numbers are told apart by their numerals. -/
theorem numeral_injective {s t : Segment} (hs : s.isNumber) (ht : t.isNumber) (h : numeral s = numeral t) : s = t := by
  have hnot : ∀ index, numeral (.index index) ≠ numeral .infinity := by
    intro index hsame
    have hin : (0x49 : UInt16) ∈ numeral (.index index) := by
      rw [hsame]
      decide
    obtain ⟨c, hc, hunit⟩ := mem_numeral_index hin
    have hnat := toNat_ofChar (toNat_lt_of_sign hc)
    rw [← hunit] at hnat
    rcases hc with hdigit | rfl | rfl | rfl
    · rw [Char.isDigit, Bool.and_eq_true, decide_eq_true_iff, decide_eq_true_iff] at hdigit
      have hhigh : c.toNat ≤ 57 := hdigit.2
      rw [← hnat] at hhigh
      exact absurd hhigh (by decide)
    all_goals exact absurd hnat (by decide)
  match s, t with
  | .name name, _ => cases hs
  | _, .name name => cases ht
  | .index i, .index j =>
      have htext : i.text = j.text :=
        map_ofChar_injective (fun c => Whole.mem_text) (fun c => Whole.mem_text) h
      rw [Whole.text_injective htext]
  | .index i, .infinity => exact absurd h (hnot i)
  | .infinity, .index j => exact absurd h.symm (hnot j)
  | .infinity, .infinity => rfl

/-- A segment that is a number is its numeral between brackets. -/
theorem text_of_number {s : Segment} (hs : s.isNumber) :
    s.text = 0x5B :: (numeral s ++ [0x5D]) := by
  cases s with
  | name name => cases hs
  | index index => rfl
  | infinity => rfl

/-- A number's segment and what comes after are told from a text. -/
theorem number_append_inj {s t : Segment} {after later : List UInt16} (hs : s.isNumber)
    (ht : t.isNumber) (h : s.text ++ after = t.text ++ later) : s = t ∧ after = later := by
  rw [text_of_number hs, text_of_number ht, List.cons_append, List.cons_append, List.append_assoc,
    List.append_assoc] at h
  have hrest := (List.cons.inj h).2
  have hsplit : ∀ (segment : Segment) (text : List UInt16),
      (numeral segment ++ ([0x5D] ++ text)).takeWhile (· != 0x5D) = numeral segment ∧
      (numeral segment ++ ([0x5D] ++ text)).dropWhile (· != 0x5D) = 0x5D :: text := by
    intro segment text
    have hall : ∀ u ∈ numeral segment, (u != 0x5D) = true := fun u hu =>
      bne_iff_ne.mpr (mem_numeral hu).1
    rw [List.takeWhile_append_of_pos hall, List.dropWhile_append_of_pos hall]
    simp
  obtain ⟨htake, hdrop⟩ := hsplit s after
  rw [hrest, (hsplit t later).1] at htake
  rw [hrest, (hsplit t later).2] at hdrop
  exact ⟨numeral_injective hs ht htake.symm, ((List.cons.inj hdrop).2).symm⟩

/-- A name's segment is no number's, whatever comes after. -/
theorem name_append_ne {name : List UInt16} {t : Segment} (ht : t.isNumber)
    (after later : List UInt16) : (Segment.name name).text ++ after ≠ t.text ++ later := by
  intro h
  rw [text_of_number ht, Segment.text, List.cons_append, List.cons_append, List.cons_append,
    List.append_assoc] at h
  have hrest := (List.cons.inj h).2
  cases hnumeral : numeral t with
  | nil =>
      rw [hnumeral] at hrest
      exact absurd (List.cons.inj hrest).1 (by decide)
  | cons u others =>
      rw [hnumeral] at hrest
      have hin : u ∈ numeral t := by
        rw [hnumeral]
        exact List.mem_cons_self
      exact (mem_numeral hin).2 (List.cons.inj hrest).1.symm

/-- A segment and what comes after are told from a text. -/
theorem text_append_inj {s t : Segment} {after later : List UInt16}
    (h : s.text ++ after = t.text ++ later) : s = t ∧ after = later := by
  match s, t with
  | .name name, .name other =>
      rw [Segment.text, Segment.text, List.cons_append, List.cons_append, List.cons_append,
        List.cons_append, List.append_assoc, List.append_assoc] at h
      have hrest := (List.cons.inj (List.cons.inj h).2).2
      have hread := readName_escape_append name after
      change readName (escape name ++ ([0x27, 0x5D] ++ after)) = _ at hread
      rw [hrest] at hread
      have hother := readName_escape_append other later
      obtain ⟨rfl, rfl⟩ := Prod.mk.inj (Option.some.inj (hread.symm.trans hother))
      exact ⟨rfl, rfl⟩
  | .name name, .index index => exact absurd h (name_append_ne rfl after later)
  | .name name, .infinity => exact absurd h (name_append_ne rfl after later)
  | .index index, .name name => exact absurd h.symm (name_append_ne rfl later after)
  | .infinity, .name name => exact absurd h.symm (name_append_ne rfl later after)
  | .index i, .index j => exact number_append_inj rfl rfl h
  | .index i, .infinity => exact number_append_inj rfl rfl h
  | .infinity, .index j => exact number_append_inj rfl rfl h
  | .infinity, .infinity => exact number_append_inj rfl rfl h

/-- A segment's text starts with a bracket. -/
theorem text_eq_cons (s : Segment) : ∃ rest, s.text = 0x5B :: rest := by
  cases s with
  | name name => exact ⟨_, rfl⟩
  | index index => exact ⟨_, rfl⟩
  | infinity => exact ⟨_, rfl⟩

/-- What segments are is told from their texts, and from what comes after where that is a segment's
start. -/
theorem prefix_of_texts {p a : List Segment} {rest : List UInt16}
    (h : a.flatMap Segment.text = p.flatMap Segment.text ++ rest) : p <+: a := by
  induction p generalizing a with
  | nil => exact List.nil_prefix
  | cons s p ih =>
      obtain ⟨others, hs⟩ := text_eq_cons s
      cases a with
      | nil =>
          rw [List.flatMap_cons, hs] at h
          cases h
      | cons t a =>
          rw [List.flatMap_cons, List.flatMap_cons, List.append_assoc] at h
          obtain ⟨rfl, hrest⟩ := text_append_inj h
          exact List.cons_prefix_cons.mpr ⟨rfl, ih hrest⟩

/-- No two nodes are reached by one path. -/
theorem pathOf_injective : Function.Injective pathOf := by
  intro a b h
  have hbody := (List.cons.inj h).2
  have hab : b <+: a := prefix_of_texts (hbody.trans (List.append_nil _).symm)
  have hba : a <+: b := prefix_of_texts (hbody.symm.trans (List.append_nil _).symm)
  exact hba.eq_of_length (le_antisymm hba.length_le hab.length_le)

/-- A path falls within another exactly where its segments start with those. -/
theorem within_pathOf (a p : List Segment) : within (pathOf a) (pathOf p) = true ↔ p <+: a := by
  rw [within, Bool.or_eq_true, beq_iff_eq, List.isPrefixOf_iff_prefix]
  constructor
  · rintro (hsame | ⟨rest, hrest⟩)
    · rw [pathOf_injective hsame]
    · have hbody := (List.cons.inj hrest).2
      have htexts : a.flatMap Segment.text = p.flatMap Segment.text ++ 0x5B :: rest := by
        rw [← hbody]
        exact List.append_assoc _ [0x5B] rest
      exact prefix_of_texts htexts
  · rintro ⟨rest, rfl⟩
    cases rest with
    | nil => exact .inl (by rw [List.append_nil])
    | cons s rest =>
        obtain ⟨others, hs⟩ := text_eq_cons s
        refine .inr ⟨others ++ rest.flatMap Segment.text, ?_⟩
        simp [pathOf, hs]

/-! ## A path is read back -/

/-- Whether a segment is read back: a name, or an index that is written without an exponent. -/
def Segment.IsRead : Segment → Prop
  | .name _ => True
  | .index number => number.value < 10 ^ 21
  | .infinity => False

/-- A segment is read back from its text. -/
theorem readSegment_append {s : Segment} (hs : s.IsRead) (after : List UInt16) :
    readSegment (s.text ++ after) = some (s, after) := by
  cases s with
  | name name =>
      have hread := readName_escape_append name after
      rw [Segment.text, List.cons_append, List.cons_append, List.append_assoc, readSegment,
        if_neg (by decide), if_pos rfl]
      change (readName (escape name ++ 0x27 :: 0x5D :: after)).map _ = _
      rw [hread]
      rfl
  | index index =>
      have hread := readIndex_append hs after
      rw [text_of_number rfl, List.cons_append, List.append_assoc]
      change readSegment (0x5B :: (numeral (.index index) ++ 0x5D :: after)) = _
      cases hnumeral : numeral (.index index) with
      | nil =>
          rw [hnumeral] at hread
          cases hread
      | cons u others =>
          have hmem : u ∈ numeral (.index index) := by
            rw [hnumeral]
            exact List.mem_cons_self
          have hnot : u ≠ 0x27 := (mem_numeral hmem).2
          rw [hnumeral, List.cons_append] at hread
          rw [List.cons_append, readSegment, if_neg (by decide), if_neg hnot, hread]
  | infinity => exact hs.elim

/-- Segments are read back from their texts. -/
theorem segmentsFrom_texts (segments : List Segment) (h : ∀ s ∈ segments, s.IsRead) (fuel : ℕ)
    (hfuel : segments.length ≤ fuel) :
    segmentsFrom fuel (segments.flatMap Segment.text) = some segments := by
  induction segments generalizing fuel with
  | nil => cases fuel <;> rfl
  | cons s segments ih =>
      obtain ⟨fuel, rfl⟩ := Nat.exists_eq_succ_of_ne_zero (n := fuel) (by
        rintro rfl
        cases hfuel)
      obtain ⟨others, hs⟩ := text_eq_cons s
      have hread := readSegment_append (h s List.mem_cons_self) (segments.flatMap Segment.text)
      have hrest := ih (fun t ht => h t (List.mem_cons_of_mem _ ht)) fuel
        (Nat.le_of_succ_le_succ hfuel)
      rw [List.flatMap_cons]
      rw [hs, List.cons_append] at hread ⊢
      rw [segmentsFrom.eq_def]
      dsimp only
      rw [hread]
      dsimp only
      rw [hrest]
      rfl

/-- A path is no shorter than its segments are many. -/
theorem length_le_texts (segments : List Segment) :
    segments.length ≤ (segments.flatMap Segment.text).length := by
  induction segments with
  | nil => exact le_rfl
  | cons s segments ih =>
      obtain ⟨others, hs⟩ := text_eq_cons s
      rw [List.flatMap_cons, hs, List.length_append, List.length_cons, List.length_cons]
      omega

/-- A path is read back. -/
theorem segmentsOf_pathOf {segments : List Segment} (h : ∀ s ∈ segments, s.IsRead) :
    segmentsOf (pathOf segments) = some segments := by
  rw [pathOf, segmentsOf, if_pos rfl]
  exact segmentsFrom_texts segments h _ (length_le_texts segments)

/-! ## The device's paths -/

/-- A segment of the device, as the screens hold it. -/
def ofDevice : Channel.Config.Segment → Segment
  | .name name => .name (units name)
  | .index index => .index (Whole.of index)

theorem units_append (s t : String) : units (s ++ t) = units s ++ units t := by
  rw [units, units, units, String.toList_append, List.flatMap_append]

/-- A unit past the controls and the marks that are escaped is not escaped. -/
theorem escapeUnit_of_le {u : UInt16} (h : 0x80 ≤ u.toNat) : escapeUnit u = [u] := by
  have hall : ESCAPES.all (fun escape => decide (escape.1.toNat < 0x80)) = true := by decide
  have hnone : (ESCAPES.find? fun escape => escape.1 == u) = none := by
    refine List.find?_eq_none.mpr fun escape hin hsame => ?_
    have hless := of_decide_eq_true (List.all_eq_true.mp hall escape hin)
    rw [beq_iff_eq.mp hsame] at hless
    omega
  have hnot : ¬ u < 0x20 := fun hless => by
    have hsmall : u.toNat < 32 := hless
    omega
  rw [escapeUnit, hnone]
  exact if_neg hnot

/-- The units of a character past those of one byte are past them. -/
theorem encode_large {c : Char} (h : 0x80 ≤ c.toNat) : ∀ u ∈ encode c, 0x80 ≤ u.toNat := by
  intro u hu
  have hvalid : c.toNat < 0x110000 := by
    have hchar := c.valid
    rcases hchar with hlow | ⟨-, hhigh⟩
    · exact hlow.trans (by decide)
    · exact hhigh
  unfold encode at hu
  split at hu
  · rename_i hsmall
    rw [List.mem_singleton.mp hu, toNat_ofChar hsmall]
    exact h
  · rcases List.mem_pair.mp hu with rfl | rfl
    · rw [UInt16.toNat_ofNat']
      omega
    · rw [UInt16.toNat_ofNat']
      omega

/-- The device does not escape a character past those of one byte. -/
theorem pathChar_of_le {c : Char} (h : 0x80 ≤ c.toNat) :
    Channel.Config.pathChar c = c.toString := by
  unfold Channel.Config.pathChar
  rw [if_neg (by omega), if_neg (by omega)]
  split
  · exact absurd h (by decide)
  · exact absurd h (by decide)
  · exact absurd h (by decide)
  · exact absurd h (by decide)
  · exact absurd h (by decide)
  · rw [if_neg]
    intro hless
    have hsmall : c.toNat < 32 := hless
    omega

/-- The units of a character are escaped as the device escapes it. -/
theorem escape_encode (c : Char) : escape (encode c) = units (Channel.Config.pathChar c) := by
  have hsmall : ∀ n < 0x80,
      escape (encode (Char.ofNat n)) = units (Channel.Config.pathChar (Char.ofNat n)) := by decide
  by_cases h : c.toNat < 0x80
  · have hc := hsmall c.toNat h
    rwa [Char.ofNat_toNat] at hc
  · have hlarge := Nat.not_lt.mp h
    have hkept : ∀ us : List UInt16, (∀ u ∈ us, 0x80 ≤ u.toNat) → escape us = us := by
      intro us hus
      induction us with
      | nil => rfl
      | cons u us ih =>
          rw [escape, List.flatMap_cons, escapeUnit_of_le (hus u List.mem_cons_self), ← escape,
            ih fun v hv => hus v (List.mem_cons_of_mem _ hv)]
          rfl
    rw [hkept _ (encode_large hlarge), pathChar_of_le hlarge, units, Char.toString,
      String.toList_singleton]
    simp

/-- A name's text is the device's. -/
theorem escape_units (chars : List Char) :
    escape (chars.flatMap encode) = units (String.join (chars.map Channel.Config.pathChar)) := by
  induction chars with
  | nil => rfl
  | cons c chars ih =>
      rw [List.flatMap_cons, escape, List.flatMap_append, ← escape, ← escape, escape_encode, ih,
        ← units_append, List.map_cons, String.join_cons]

/-- Signs of numbers are each one unit. -/
theorem flatMap_encode {chars : List Char} (h : ∀ c ∈ chars, Doubles.Sign c) :
    chars.flatMap encode = chars.map ofChar := by
  induction chars with
  | nil => rfl
  | cons c chars ih =>
      rw [List.flatMap_cons, List.map_cons, ih fun d hd => h d (List.mem_cons_of_mem _ hd), encode,
        if_pos (toNat_lt_of_sign (h c List.mem_cons_self))]
      rfl

/-- A segment's text is the device's, where its index is below 2 ^ 53. -/
theorem units_text {s : Channel.Config.Segment} (hs : ∀ i, s = .index i → i < 2 ^ 53) :
    units s.text = (ofDevice s).text := by
  cases s with
  | name name =>
      rw [Channel.Config.Segment.text, units_append, units_append, ofDevice, Segment.text, units,
        ← escape_units]
      rfl
  | index i =>
      have hsmall := hs i rfl
      have hvalue : (Whole.of i).value = i := Doubles.nearest_of_lt hsmall
      have htext : numeral (.index (Whole.of i)) = units (toString i) := by
        rw [numeral, Whole.text_of_lt (by rw [hvalue]; exact hsmall), hvalue, units,
          Nat.toString_eq_ofList_toDigits, String.toList_ofList,
          flatMap_encode fun c hc => .inl (Doubles.isDigit_of_mem hc)]
      rw [Channel.Config.Segment.text, units_append, units_append, ofDevice, Segment.text, htext]
      · rfl
      · exact nofun

/-- The device writes the same path, where its indices are below 2 ^ 53. -/
theorem units_path {segments : List Channel.Config.Segment}
    (h : ∀ i, .index i ∈ segments → i < 2 ^ 53) :
    units (Channel.Config.path segments) = pathOf (segments.map ofDevice) := by
  have hfold : ∀ (segments : List Channel.Config.Segment) (out : String),
      (∀ i, .index i ∈ segments → i < 2 ^ 53) →
      units (segments.foldl (fun out segment => out ++ segment.text) out) =
        units out ++ (segments.map ofDevice).flatMap Segment.text := by
    intro segments
    induction segments with
    | nil =>
        intro out _
        rw [List.foldl_nil, List.map_nil, List.flatMap_nil, List.append_nil]
    | cons s segments ih =>
        intro out hall
        have hs : ∀ i, s = .index i → i < 2 ^ 53 := fun i hi => hall i (hi ▸ List.mem_cons_self)
        rw [List.foldl_cons, ih _ fun i hi => hall i (List.mem_cons_of_mem _ hi), units_append,
          units_text hs, List.map_cons, List.flatMap_cons, List.append_assoc]
  exact hfold segments "$" h

/-! ## The candidate a path falls within -/

/-- What is found by its place is what is there. -/
theorem find?_zipIdx {κ : Type} {keys : List κ} {p : ℕ → Bool} {k start : ℕ}
    (hp : ∀ i, start ≤ i → i < start + keys.length → (p i = true ↔ i = k)) (hk : start ≤ k) :
    ((keys.zipIdx start).find? fun (_, i) => p i).map Prod.fst = keys[k - start]? := by
  induction keys generalizing start with
  | nil => rfl
  | cons key keys ih =>
      rw [List.length_cons] at hp
      rw [List.zipIdx_cons]
      by_cases hhere : start = k
      · have htrue : p start = true := (hp start le_rfl (by omega)).mpr hhere
        subst hhere
        simp only [List.find?_cons, htrue, Nat.sub_self]
        rfl
      · have hfalse : p start = false := Bool.eq_false_iff.mpr fun htrue =>
          hhere ((hp start le_rfl (by omega)).mp htrue)
        simp only [List.find?_cons, hfalse]
        rw [ih (fun i hlow hhigh => hp i (by omega) (by omega)) (by omega),
          show k - start = (k - (start + 1)) + 1 by omega, List.getElem?_cons_succ]

/-- The candidate a node falls within. -/
def candidateOf {κ : Type} (keys : List κ) : List Segment → Option κ
  | .name name :: .index index :: _ =>
      if name = units "attachments" then keys[index.value]? else none
  | _ => none

/-- The key found for a path is that of the candidate its node falls within. -/
theorem candidateAt_pathOf {κ : Type} (a : List Segment) {keys : List κ}
    (hkeys : keys.length < 2 ^ 32) : candidateAt (pathOf a) keys = candidateOf keys a := by
  have hnone : (∀ index : Whole, ¬ [.name (units "attachments"), .index index] <+: a) →
      candidateAt (pathOf a) keys = none := by
    intro hnot
    rw [candidateAt, Option.map_eq_none_iff, List.find?_eq_none]
    rintro ⟨key, i⟩ - hwithin
    exact hnot _ ((within_pathOf a _).mp hwithin)
  match a with
  | .name name :: .index index :: rest =>
      rw [candidateOf]
      split
      · rename_i hname
        subst hname
        refine find?_zipIdx (p := fun i => within _ (pathOf [.name (units "attachments"),
          .index (Whole.of i)])) (fun i _ hi => ?_) (Nat.zero_le _)
        rw [within_pathOf, List.cons_prefix_cons, List.cons_prefix_cons]
        have hvalue : (Whole.of i).value = i := Doubles.nearest_of_lt (by omega)
        constructor
        · rintro ⟨-, hsame, -⟩
          rw [← Segment.index.inj hsame]
          exact hvalue.symm
        · rintro rfl
          exact ⟨rfl, congrArg Segment.index (Whole.ext_value hvalue), List.nil_prefix⟩
      · rename_i hname
        refine hnone fun other hprefix => hname ?_
        exact (Segment.name.inj (List.cons_prefix_cons.mp hprefix).1).symm
  | [] | [.name _] | .index _ :: _ | .infinity :: _ | .name _ :: .name _ :: _
  | .name _ :: .infinity :: _ =>
      exact hnone fun other hprefix => by simp [List.cons_prefix_cons] at hprefix

/-- The device and the screens write one path for a node whose indices are below 2 ^ 53, a path is
read back where its indices are below 10 ^ 21, one path falls within another exactly where its
segments start with those, no two nodes are of one path, and the candidate found for a path is the
one its node falls within. -/
theorem paths :
    (∀ segments : List Channel.Config.Segment, (∀ i, .index i ∈ segments → i < 2 ^ 53) →
      units (Channel.Config.path segments) = pathOf (segments.map ofDevice)) ∧
    (∀ segments : List Segment, (∀ s ∈ segments, s.IsRead) →
      segmentsOf (pathOf segments) = some segments) ∧
    (∀ a p : List Segment, within (pathOf a) (pathOf p) = true ↔ p <+: a) ∧
    Function.Injective pathOf ∧
    ∀ (κ : Type) (a : List Segment) (keys : List κ), keys.length < 2 ^ 32 →
      candidateAt (pathOf a) keys = candidateOf keys a :=
  ⟨fun _ => units_path, fun _ => segmentsOf_pathOf, within_pathOf, pathOf_injective,
    fun _ a _ => candidateAt_pathOf a⟩

/-- The path of a candidate's member is the device's. -/
theorem paths_gateway :
    units (Channel.Config.path [.name "attachments", .index 1, .name "gateway"]) =
      pathOf [.name (units "attachments"), .index (Whole.of 1), .name (units "gateway")] :=
  paths.1 [.name "attachments", .index 1, .name "gateway"] (by
    intro i hi
    have hone : i = 1 := by simpa using hi
    rw [hone]
    decide)

/-- Past 2 ^ 53 an index may be written with other digits than the device's, and from 10 ^ 21 on it is
not read back. -/
theorem large_indices :
    units (Channel.Config.path [.index (2 ^ 60)]) ≠ pathOf [.index (Whole.of (2 ^ 60))] ∧
      (Whole.of (2 ^ 60)).value = 2 ^ 60 ∧
      segmentsOf (pathOf [.index (Whole.of (10 ^ 21))]) = none ∧
      (Whole.of (10 ^ 21)).value = 10 ^ 21 := by
  decide +kernel

end Bliti.App.Path
