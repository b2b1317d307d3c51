import Mathlib.Data.List.DropRight
import Bliti.Text

/-!
# Text - lines written and read

A text written line by line, each ended by a line feed, is read back as the same
lines, unless a line holds a line break of its own.
-/

namespace Bliti.Text

/-! ## White space at the end -/

/-- A string less the white space after it. -/
def trimEnd (s : String) : String :=
  String.ofList (s.toList.rdropWhile isWhitespace)

@[simp]
theorem toList_trimEnd (s : String) :
    (trimEnd s).toList = s.toList.rdropWhile isWhitespace := by
  simp [trimEnd]

/-- What stands before a text keeps all of it, where it does not end in white space. -/
theorem rdropWhile_append {α : Type*} {p : α → Bool} {front : List α}
    (hfront : ∀ last ∈ front.getLast?, ¬ p last) (back : List α) :
    (front ++ back).rdropWhile p = front ++ back.rdropWhile p := by
  induction back using List.reverseRecOn with
  | nil =>
      rw [List.append_nil, List.rdropWhile_nil, List.append_nil]
      apply List.rdropWhile_eq_self_iff.mpr
      intro hne
      exact hfront _ (List.getLast?_eq_some_getLast hne)
  | append_singleton back c ih =>
      rw [← List.append_assoc]
      by_cases hc : p c
      · rw [List.rdropWhile_concat_pos _ _ _ hc, List.rdropWhile_concat_pos _ _ _ hc, ih]
      · rw [List.rdropWhile_concat_neg _ _ _ hc, List.rdropWhile_concat_neg _ _ _ hc,
          List.append_assoc]

/-- The end of a text loses what it would lose alone. -/
theorem trimEnd_append {front : String}
    (hfront : ∀ last ∈ front.toList.getLast?, ¬ isWhitespace last) (back : String) :
    trimEnd (front ++ back) = front ++ trimEnd back := by
  apply String.toList_injective
  simp [rdropWhile_append hfront]

/-- A text that does not end in white space loses nothing. -/
theorem trimEnd_eq_self {s : String} (hlast : ∀ last ∈ s.toList.getLast?, ¬ isWhitespace last) :
    trimEnd s = s := by
  apply String.toList_injective
  rw [toList_trimEnd, List.rdropWhile_eq_self_iff]
  intro hne
  exact hlast _ (List.getLast?_eq_some_getLast hne)

/-! ## White space on either side -/

/-- Whether a text neither begins nor ends in white space. -/
def Trimmed (s : String) : Prop :=
  (∀ first ∈ s.toList.head?, ¬ isWhitespace first) ∧ ∀ last ∈ s.toList.getLast?, ¬ isWhitespace last

theorem toList_trim (s : String) :
    (trim s).toList = (s.toList.dropWhile isWhitespace).rdropWhile isWhitespace := by
  simp [trim, List.rdropWhile]

/-- A trimmed text is left as it is. -/
theorem trim_of_trimmed {s : String} (htrimmed : Trimmed s) : trim s = s := by
  obtain ⟨hfirst, hlast⟩ := htrimmed
  apply String.toList_injective
  have hfront : s.toList.dropWhile isWhitespace = s.toList := by
    cases hchars : s.toList with
    | nil => rfl
    | cons c rest =>
        rw [hchars] at hfirst
        exact List.dropWhile_cons_of_neg (hfirst c rfl)
  rw [toList_trim, hfront, List.rdropWhile_eq_self_iff]
  intro hne
  exact hlast _ (List.getLast?_eq_some_getLast hne)

/-- What is left of a text is trimmed. -/
theorem trimmed_trim (s : String) : Trimmed (trim s) := by
  rw [Trimmed, toList_trim]
  constructor
  · intro first hfirst
    have hfront : (s.toList.dropWhile isWhitespace).head? = some first := by
      obtain ⟨rest, hrest⟩ := List.rdropWhile_prefix isWhitespace
        (s.toList.dropWhile isWhitespace)
      rw [← hrest, List.head?_append, hfirst, Option.some_or]
    have hnot := List.head?_dropWhile_not isWhitespace s.toList
    rw [hfront] at hnot
    simpa using hnot
  · intro last hlast
    have hne := List.ne_nil_of_mem (List.mem_of_getLast? hlast)
    rw [List.getLast?_eq_some_getLast hne, Option.mem_some_iff] at hlast
    rw [← hlast]
    exact List.rdropWhile_last_not isWhitespace _ hne

theorem mem_of_mem_trim {s : String} {c : Char} (hc : c ∈ (trim s).toList) : c ∈ s.toList := by
  rw [toList_trim] at hc
  exact List.dropWhile_subset isWhitespace
    ((List.rdropWhile_prefix isWhitespace _).subset hc)

/-! ## Heads and tails -/

/-- What follows the head of a text is all that comes after it. -/
theorem afterHead_eq_some_iff {s head rest : String} :
    afterHead s head = some rest ↔ s = head ++ rest := by
  rw [afterHead, startsWith]
  constructor
  · intro hrest
    split at hrest
    · rename_i hstarts
      have htail := List.prefix_iff_eq_append.mp (List.isPrefixOf_iff_prefix.mp hstarts)
      cases hrest
      apply String.toList_injective
      rw [String.toList_append, String.toList_ofList, ← String.length_toList]
      exact htail.symm
    · cases hrest
  · rintro rfl
    have hstarts : head.toList.isPrefixOf (head ++ rest).toList = true := by
      rw [List.isPrefixOf_iff_prefix, String.toList_append]
      exact List.prefix_append _ _
    rw [if_pos hstarts, String.toList_append, ← String.length_toList, List.drop_left,
      String.ofList_toList]

/-- What comes before the tail of a text is all that comes before it. -/
theorem beforeTail_append (rest tail : String) : beforeTail (rest ++ tail) tail = some rest := by
  have hends : tail.toList.isSuffixOf (rest ++ tail).toList = true := by
    rw [List.isSuffixOf_iff_suffix, String.toList_append]
    exact List.suffix_append _ _
  have hlength : (rest ++ tail).length - tail.length = rest.toList.length := by
    rw [String.length_append, Nat.add_sub_cancel, String.length_toList]
  rw [beforeTail, endsWith, if_pos hends, hlength, String.toList_append, List.take_left,
    String.ofList_toList]

/-! ## Lines -/

/-- The text of some lines, each ended by a line feed. -/
def unlines (ls : List String) : String :=
  String.join (ls.map fun line => line ++ "\n")

@[simp]
theorem unlines_nil : unlines [] = "" :=
  rfl

theorem toList_unlines_cons (line : String) (ls : List String) :
    (unlines (line :: ls)).toList = line.toList ++ '\n' :: (unlines ls).toList := by
  simp [unlines]

theorem unlines_cons (line : String) (ls : List String) :
    unlines (line :: ls) = line ++ "\n" ++ unlines ls := by
  apply String.toList_injective
  simp [toList_unlines_cons]

/-- The text of lines one after another. -/
theorem unlines_append (ls others : List String) :
    unlines (ls ++ others) = unlines ls ++ unlines others := by
  induction ls with
  | nil => simp
  | cons line ls ih => simp only [List.cons_append, unlines_cons, ih, String.append_assoc]

/-- Whether a line holds no line break. -/
def OneLine (line : String) : Prop :=
  '\n' ∉ line.toList ∧ '\r' ∉ line.toList

instance (line : String) : Decidable (OneLine line) :=
  inferInstanceAs (Decidable (_ ∧ _))

theorem endLine_eq_self {line : List Char} (hline : '\r' ∉ line) : endLine line = line := by
  rw [endLine, if_neg]
  intro hlast
  exact hline (List.mem_of_getLast? hlast)

/-- Lines that hold no line feed and do not end in a carriage return are read back from their
text. -/
theorem lines_unlines_of_ends {ls : List String}
    (hlines : ∀ line ∈ ls, '\n' ∉ line.toList ∧ line.toList.getLast? ≠ some '\r') :
    lines (unlines ls) = ls := by
  induction ls with
  | nil => simp [lines, linesOf]
  | cons line ls ih =>
      have hrest := ih fun other hother => hlines other (List.mem_cons_of_mem _ hother)
      have hline := hlines line List.mem_cons_self
      rw [lines] at hrest ⊢
      rw [toList_unlines_cons, List.splitOn_append_cons_self_of_not_mem hline.1]
      cases hpieces : (unlines ls).toList.splitOn '\n' with
      | nil => exact absurd hpieces (List.splitOn_ne_nil _ _)
      | cons piece pieces =>
          rw [hpieces] at hrest
          rw [linesOf, List.map_cons, hrest, endLine, if_neg hline.2, String.ofList_toList]
          simp

/-- Lines without line breaks are read back from their text. -/
theorem lines_unlines {ls : List String} (hlines : ∀ line ∈ ls, OneLine line) :
    lines (unlines ls) = ls := by
  apply lines_unlines_of_ends
  intro line hline
  exact ⟨(hlines line hline).1, fun hlast => (hlines line hline).2 (List.mem_of_getLast? hlast)⟩

/-! ## Pieces -/

/-- The pieces of a text between its line feeds. -/
def pieces (s : String) : List String :=
  (s.toList.splitOn '\n').map String.ofList

/-- Texts on either side of a line feed have the pieces of both. -/
theorem pieces_append (s t : String) : pieces (s ++ "\n" ++ t) = pieces s ++ pieces t := by
  have hchars : (s ++ "\n" ++ t).toList = s.toList ++ '\n' :: t.toList := by simp
  rw [pieces, hchars, List.splitOn_append_cons_self, List.map_append]
  rfl

/-- A list parted at an element holds no more than it did, and no piece holds that. -/
theorem mem_of_mem_splitOn {α : Type*} [BEq α] [LawfulBEq α] {sep a : α} {xs piece : List α}
    (hpiece : piece ∈ xs.splitOn sep) (ha : a ∈ piece) : a ∈ xs ∧ a ≠ sep := by
  induction xs generalizing piece with
  | nil =>
      rw [List.splitOn_nil, List.mem_singleton] at hpiece
      rw [hpiece] at ha
      cases ha
  | cons x xs ih =>
      rw [List.splitOn_cons_eq_if_modifyHead] at hpiece
      by_cases hx : x = sep
      · rw [if_pos (by simp [hx]), List.mem_cons] at hpiece
        rcases hpiece with hempty | hrest
        · rw [hempty] at ha
          cases ha
        · exact ⟨List.mem_cons_of_mem _ (ih hrest ha).1, (ih hrest ha).2⟩
      · rw [if_neg (by simp [hx])] at hpiece
        cases hsplit : xs.splitOn sep with
        | nil => exact absurd hsplit (List.splitOn_ne_nil _ _)
        | cons head tail =>
            rw [hsplit] at hpiece ih
            rcases List.mem_cons.mp hpiece with hhead | htail
            · rw [hhead] at ha
              rcases List.mem_cons.mp ha with hfirst | hlater
              · exact ⟨hfirst ▸ List.mem_cons_self, hfirst ▸ hx⟩
              · have hheld := ih List.mem_cons_self hlater
                exact ⟨List.mem_cons_of_mem _ hheld.1, hheld.2⟩
            · have hheld := ih (List.mem_cons_of_mem _ htail) ha
              exact ⟨List.mem_cons_of_mem _ hheld.1, hheld.2⟩

/-- The pieces of a text without carriage returns are lines. -/
theorem oneLine_of_mem_pieces {s piece : String} (hreturn : '\r' ∉ s.toList)
    (hpiece : piece ∈ pieces s) : OneLine piece := by
  obtain ⟨chars, hchars, rfl⟩ := List.mem_map.mp hpiece
  rw [OneLine, String.toList_ofList]
  constructor
  · intro hfeed
    exact (mem_of_mem_splitOn hchars hfeed).2 rfl
  · intro hheld
    exact hreturn (mem_of_mem_splitOn hchars hheld).1

/-- Lines ended by line feeds are those parted by them, with one more at the end. -/
theorem toList_unlines_map_ofList {ls : List (List Char)} (hls : ls ≠ []) :
    (unlines (ls.map String.ofList)).toList = ['\n'].intercalate ls ++ ['\n'] := by
  induction ls with
  | nil => exact absurd rfl hls
  | cons line ls ih =>
      rw [List.map_cons, toList_unlines_cons, String.toList_ofList]
      cases ls with
      | nil => simp
      | cons other ls =>
          rw [ih (List.cons_ne_nil _ _)]
          simp

/-- A text ended by a line feed is that of its pieces. -/
theorem unlines_pieces (s : String) : unlines (pieces s) = s ++ "\n" := by
  apply String.toList_injective
  rw [pieces, toList_unlines_map_ofList (List.splitOn_ne_nil _ _), List.intercalate_splitOn]
  simp

/-- A piece that is not blank is kept among the lines, where it holds no carriage return. -/
theorem mem_linesOf {piece : List Char} {pieces : List (List Char)} (hpiece : piece ∈ pieces)
    (hblank : piece ≠ []) (hreturn : '\r' ∉ piece) : piece ∈ linesOf pieces := by
  fun_induction linesOf pieces with
  | case1 => cases hpiece
  | case2 => exact absurd (List.mem_singleton.mp hpiece) hblank
  | case3 => exact hpiece
  | case4 line rest hrest ih =>
      rcases List.mem_cons.mp hpiece with hline | hlater
      · rw [← hline, endLine_eq_self hreturn]
        exact List.mem_cons_self
      · exact List.mem_cons_of_mem _ (ih hlater)

/-- A piece that is not blank and holds no carriage return is a line. -/
theorem mem_lines_of_mem_pieces {s piece : String} (hpiece : piece ∈ pieces s)
    (hblank : piece ≠ "") (hreturn : '\r' ∉ piece.toList) : piece ∈ lines s := by
  obtain ⟨chars, hchars, rfl⟩ := List.mem_map.mp hpiece
  rw [String.toList_ofList] at hreturn
  have hchars_ne : chars ≠ [] := fun hnil => hblank (congrArg String.ofList hnil)
  exact List.mem_map_of_mem (mem_linesOf hchars hchars_ne hreturn)

/-- A line holds no line feed. -/
theorem not_mem_of_mem_lines {s line : String} (hline : line ∈ lines s) : '\n' ∉ line.toList := by
  obtain ⟨chars, hchars, rfl⟩ := List.mem_map.mp hline
  rw [String.toList_ofList]
  have hpieces : ∀ piece ∈ s.toList.splitOn '\n', '\n' ∉ piece := fun piece hpiece hfeed =>
    (mem_of_mem_splitOn hpiece hfeed).2 rfl
  generalize s.toList.splitOn '\n' = pieces at hchars hpieces
  fun_induction linesOf pieces with
  | case1 => cases hchars
  | case2 => cases hchars
  | case3 last hblank =>
      rw [List.mem_singleton.mp hchars]
      exact hpieces last List.mem_cons_self
  | case4 piece rest hrest ih =>
      rcases List.mem_cons.mp hchars with hended | hlater
      · rw [hended]
        intro hfeed
        apply hpieces piece List.mem_cons_self
        unfold endLine at hfeed
        split at hfeed
        · exact List.dropLast_subset piece hfeed
        · exact hfeed
      · exact ih hlater fun other hother => hpieces other (List.mem_cons_of_mem _ hother)

end Bliti.Text
