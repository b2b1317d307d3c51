import Bliti.Library.OrderedMap
import Bliti.Provision.Bootloader.Order

/-!
# The bootloader - its configuration

The text the bootloader reads from its flash, of settings of the form `NAME=value`, under sections
each of which applies to every board or to some.
-/

namespace Bliti.Provision.Bootloader

open Std (ExtTreeMap)

/-- A configuration, as lines of text with the empty ones and the comments left out. -/
structure Config where
  lines : List String
deriving DecidableEq

/-- What a configuration sets for every board, the last of a name winning, and whether it holds
anything else. -/
structure Settings where
  all : ExtTreeMap String String
  foreign : Bool

/-- A text parted at the first of a character. -/
def splitOnce (s : String) (sep : Char) : Option (String × String) :=
  match s.toList.dropWhile (· ≠ sep) with
  | [] => none
  | _ :: rest => some (String.ofList (s.toList.takeWhile (· ≠ sep)), String.ofList rest)

/-- The section a line begins. -/
def sectionOf (line : String) : Option String :=
  (Text.afterHead line "[").bind fun rest => Text.beforeTail rest "]"

/-- Whether a section applies to every board. -/
def isAll (section_ : String) : Bool :=
  (Text.trim section_).toLower = "all"

namespace Config

/-- A configuration as it is read. -/
def parse (text : String) : Config where
  lines := ((Text.lines text).map Text.trim).filter fun line =>
    ¬(line = "") ∧ ¬Text.startsWith line "#"

/-- The text of a configuration. -/
def text (config : Config) : String :=
  Text.unlines config.lines

/-- What a line adds to the settings, and whether those after it are for every board. -/
def settingsLine (state : Settings × Bool) (line : String) : Settings × Bool :=
  let (settings, inAll) := state
  match sectionOf line with
  | some section_ =>
      let inAll := isAll section_
      ({ settings with foreign := settings.foreign || !inAll }, inAll)
  | none =>
      if !inAll then ({ settings with foreign := true }, inAll)
      else
        match splitOnce line '=' with
        | some (name, value) =>
            ({ settings with all := settings.all.insert (Text.trim name) (Text.trim value) }, inAll)
        | none => ({ settings with foreign := true }, inAll)

/-- What a configuration sets. -/
def settings (config : Config) : Settings :=
  (config.lines.foldl settingsLine ({ all := ∅, foreign := false }, true)).1

/-- Where the rewriting of a configuration is: the lines so far, whether those after are for every
board, whether the setting has been written, and where the lines for every board first ended. -/
structure Rewriting where
  lines : List String
  inAll : Bool
  set : Bool
  endOfAll : Option ℕ

/-- A line of a configuration rewritten. -/
def rewriteLine (name value : String) (state : Rewriting) (line : String) : Rewriting :=
  match sectionOf line with
  | some section_ =>
      let inAll := isAll section_
      { state with
        inAll := inAll
        endOfAll :=
          if !inAll && state.endOfAll.isNone then some state.lines.length else state.endOfAll
        lines := state.lines ++ [line] }
  | none =>
      if state.inAll && (splitOnce line '=').any fun held => Text.trim held.1 = name then
        { state with lines := state.lines ++ [name ++ "=" ++ value], set := true }
      else { state with lines := state.lines ++ [line] }

/-- A configuration with a setting set for every board. -/
def withSetting (config : Config) (name value : String) : Config :=
  let state := config.lines.foldl (rewriteLine name value)
    { lines := [], inAll := true, set := false, endOfAll := none }
  if state.set then { lines := state.lines }
  else
    { lines := state.lines.insertIdx (state.endOfAll.getD state.lines.length)
        (name ++ "=" ++ value) }

/-- The boot order a configuration sets, or the one used where it sets none. -/
def bootOrder (config : Config) : Except String UInt32 :=
  match config.settings.all["BOOT_ORDER"]? with
  | some value => parseOrder value
  | none => .ok defaultOrder

/-- A configuration with USB first in its boot order, or nothing where it already is. -/
def putUsbFirst (config : Config) : Except String (Option Config) := do
  let order ← config.bootOrder
  let first ← usbFirst order
  if first = order then return none
  return some (config.withSetting "BOOT_ORDER" (display first))

/-- Whether USB is first in the boot order. -/
def usbIsFirst (config : Config) : Except String Bool := do
  let put ← config.putUsbFirst
  return put.isNone

/-! ## Lines for every board -/

/-- Whether the lines after a line are for every board. -/
def inAllAfter (inAll : Bool) (line : String) : Bool :=
  ((sectionOf line).map isAll).getD inAll

/-- The setting a line is. -/
def settingOf (line : String) : Option (String × String) :=
  match sectionOf line with
  | some _ => none
  | none => (splitOnce line '=').map fun held => (Text.trim held.1, Text.trim held.2)

/-- What a line sets a name to for every board. -/
def valueOf (inAll : Bool) (name line : String) : Option String :=
  if inAll then ((settingOf line).filter fun held => held.1 = name).map Prod.snd else none

/-- What lines set a name to for every board, the last of them winning. -/
def heldIn (inAll : Bool) (name : String) : List String → Option String
  | [] => none
  | line :: rest => (heldIn (inAllAfter inAll line) name rest).or (valueOf inAll name line)

/-- Lines with those that set a name for every board replaced by another. -/
def rewritten (inAll : Bool) (name put : String) : List String → List String
  | [] => []
  | line :: rest =>
      (if (valueOf inAll name line).isSome then put else line) ::
        rewritten (inAllAfter inAll line) name put rest

/-- Whether a line begins a section for some boards. -/
def isOther (line : String) : Bool :=
  (sectionOf line).any fun section_ => !isAll section_

variable {inAll : Bool} {name put line : String} {lines : List String}

/-- What a line adds to what is set for every board. -/
theorem settingsLine_all (settings : Settings) (inAll : Bool) (line name : String) :
    (settingsLine (settings, inAll) line).2 = inAllAfter inAll line ∧
      (settingsLine (settings, inAll) line).1.all[name]? =
        (valueOf inAll name line).or settings.all[name]? := by
  unfold settingsLine inAllAfter valueOf settingOf
  cases hsection : sectionOf line with
  | some section_ => simp
  | none =>
      cases inAll with
      | false => simp
      | true =>
          cases hheld : splitOnce line '=' with
          | none => simp
          | some held =>
              by_cases hname : Text.trim held.1 = name
              · simp [Option.filter_some, hname]
              · simp [OrderedMap.getElem?_insert_ite, Option.filter_some, hname]

/-- What lines add to what is set for every board. -/
theorem foldl_settingsLine_all (lines : List String) (settings : Settings) (inAll : Bool)
    (name : String) :
    (lines.foldl settingsLine (settings, inAll)).1.all[name]? =
      (heldIn inAll name lines).or settings.all[name]? := by
  induction lines generalizing settings inAll with
  | nil => rfl
  | cons line rest ih =>
      obtain ⟨hafter, hvalue⟩ := settingsLine_all settings inAll line name
      rw [List.foldl_cons, ← Prod.mk.eta (p := settingsLine (settings, inAll) line), ih, hafter,
        hvalue, heldIn, Option.or_assoc]

/-- What is set for every board is what the lines set. -/
theorem settings_all (config : Config) (name : String) :
    config.settings.all[name]? = heldIn true name config.lines := by
  rw [settings, foldl_settingsLine_all]
  simp

/-- A line rewritten, with what it tells of the lines. -/
theorem rewriteLine_eq (name value : String) (state : Rewriting) (line : String) :
    rewriteLine name value state line = {
      lines := state.lines ++
        [if (valueOf state.inAll name line).isSome then name ++ "=" ++ value else line]
      inAll := inAllAfter state.inAll line
      set := state.set || (valueOf state.inAll name line).isSome
      endOfAll := state.endOfAll.or (if isOther line then some state.lines.length else none) } := by
  unfold rewriteLine inAllAfter valueOf settingOf isOther
  cases hsection : sectionOf line with
  | some section_ =>
      cases hall : isAll section_ <;> cases hend : state.endOfAll <;> simp [hall]
  | none =>
      cases hin : state.inAll with
      | false => simp
      | true =>
          cases hheld : splitOnce line '=' with
          | none => simp
          | some held =>
              by_cases hname : Text.trim held.1 = name
              · simp [hname]
              · simp [hname]

/-- Lines rewritten. -/
theorem foldl_rewriteLine (name value : String) (lines : List String) (state : Rewriting) :
    let final := lines.foldl (rewriteLine name value) state
    final.lines = state.lines ++ rewritten state.inAll name (name ++ "=" ++ value) lines ∧
      final.set = (state.set || (heldIn state.inAll name lines).isSome) ∧
      final.endOfAll =
        state.endOfAll.or ((lines.findIdx? isOther).map (· + state.lines.length)) := by
  induction lines generalizing state with
  | nil => simp [rewritten, heldIn]
  | cons line rest ih =>
      obtain ⟨hlines, hset, hend⟩ := ih (rewriteLine name value state line)
      rw [rewriteLine_eq] at hlines hset hend
      rw [List.foldl_cons]
      refine ⟨?_, ?_, ?_⟩
      · rw [rewriteLine_eq, hlines, List.append_assoc]
        rfl
      · rw [rewriteLine_eq, hset, heldIn, Option.isSome_or, Bool.or_assoc,
          Bool.or_comm (valueOf state.inAll name line).isSome]
      · rw [rewriteLine_eq, hend, List.findIdx?_cons, Option.or_assoc]
        cases hother : isOther line with
        | true => simp
        | false =>
            simp only [Bool.false_eq_true, if_false, Option.none_or, List.length_append,
              List.length_singleton, Option.map_map]
            congr 2
            funext i
            simp only [Function.comp_apply]
            omega

/-! ## A setting set -/

/-- Lines that set a name for nothing are not rewritten. -/
theorem rewritten_eq_self (hnone : heldIn inAll name lines = none) :
    rewritten inAll name put lines = lines := by
  induction lines generalizing inAll with
  | nil => rfl
  | cons line rest ih =>
      obtain ⟨hrest, hline⟩ := Option.or_eq_none_iff.mp hnone
      rw [rewritten, hline, ih hrest]
      rfl

/-- The lines rewritten are as many, and each is another where it set the name. -/
theorem getElem?_rewritten (inAll : Bool) (name put : String) (lines : List String) (i : ℕ) :
    (rewritten inAll name put lines)[i]? = lines[i]?.map fun line =>
      if (valueOf ((lines.take i).foldl inAllAfter inAll) name line).isSome then put else line := by
  induction lines generalizing inAll i with
  | nil => rfl
  | cons line rest ih =>
      cases i with
      | zero => rfl
      | succ i => exact ih (inAllAfter inAll line) i

@[simp]
theorem length_rewritten (inAll : Bool) (name put : String) (lines : List String) :
    (rewritten inAll name put lines).length = lines.length := by
  induction lines generalizing inAll with
  | nil => rfl
  | cons line rest ih => rw [rewritten, List.length_cons, ih, List.length_cons]

/-- A line that sets a name is under a section for every board, and begins none. -/
theorem inAll_of_valueOf (hvalue : (valueOf inAll name line).isSome) :
    inAll = true ∧ sectionOf line = none := by
  unfold valueOf settingOf at hvalue
  cases inAll with
  | false => simp at hvalue
  | true =>
      cases hsection : sectionOf line with
      | none => exact ⟨rfl, rfl⟩
      | some section_ => simp [hsection] at hvalue

section Put

variable {value : String} (hput : sectionOf put = none)
  (hsetting : settingOf put = some (name, value))

include hput in
/-- A line that begins no section leaves those after it under the one before. -/
theorem inAllAfter_of_sectionOf (inAll : Bool) : inAllAfter inAll put = inAll := by
  rw [inAllAfter, hput]
  rfl

include hsetting in
/-- A setting for every board sets its own name alone. -/
theorem valueOf_put (other : String) :
    valueOf true other put = if name = other then some value else none := by
  rw [valueOf, if_pos rfl, hsetting, Option.filter_some]
  by_cases hname : name = other
  · simp [hname]
  · simp [hname]

include hput hsetting in
/-- Lines rewritten set what they did, but the name that is set for every board. -/
theorem heldIn_rewritten (inAll : Bool) (lines : List String) (other : String) :
    heldIn inAll other (rewritten inAll name put lines) =
      if name = other then (heldIn inAll name lines).map fun _ => value
      else heldIn inAll other lines := by
  induction lines generalizing inAll with
  | nil => simp [rewritten, heldIn]
  | cons line rest ih =>
      rw [rewritten]
      by_cases hvalue : (valueOf inAll name line).isSome
      · obtain ⟨rfl, hsection⟩ := inAll_of_valueOf hvalue
        rw [if_pos hvalue, heldIn, heldIn, heldIn, inAllAfter_of_sectionOf hput,
          inAllAfter_of_sectionOf hsection, ih, valueOf_put hsetting]
        by_cases hname : name = other
        · obtain ⟨held, hheld⟩ := Option.isSome_iff_exists.mp hvalue
          rw [if_pos hname, if_pos hname, if_pos hname, hheld]
          cases heldIn true name rest <;> rfl
        · rw [if_neg hname, if_neg hname, if_neg hname, Option.or_none]
          have hother : valueOf true other line = none := by
            unfold valueOf at hvalue ⊢
            cases hheld : settingOf line with
            | none => rfl
            | some held =>
                rw [if_pos rfl, hheld] at hvalue
                have hsame : held.1 = name := by simpa using hvalue
                simp [Option.filter_some, hsame, hname]
          rw [hother, Option.or_none]
      · rw [if_neg hvalue, heldIn, heldIn, heldIn, ih]
        have hnone : valueOf inAll name line = none := by simpa using hvalue
        by_cases hname : name = other
        · rw [if_pos hname, if_pos hname, ← hname, hnone, Option.or_none, Option.or_none]
        · rw [if_neg hname, if_neg hname]

end Put

/-- What lines set, after others. -/
theorem heldIn_append (inAll : Bool) (name : String) (front back : List String) :
    heldIn inAll name (front ++ back) =
      (heldIn (front.foldl inAllAfter inAll) name back).or (heldIn inAll name front) := by
  induction front generalizing inAll with
  | nil => simp [heldIn]
  | cons line rest ih =>
      rw [List.cons_append, heldIn, ih, heldIn, Option.or_assoc]
      rfl

/-- Lines that begin no section for some boards stay under one for every board. -/
theorem foldl_inAllAfter (hlines : ∀ line ∈ lines, isOther line = false) :
    lines.foldl inAllAfter true = true := by
  induction lines with
  | nil => rfl
  | cons line rest ih =>
      rw [List.forall_mem_cons] at hlines
      have hafter : inAllAfter true line = true := by
        have hline := hlines.1
        unfold isOther at hline
        unfold inAllAfter
        cases hsection : sectionOf line with
        | none => rfl
        | some section_ => simpa [hsection] using hline
      rw [List.foldl_cons, hafter]
      exact ih hlines.2

/-- Where a setting goes that no line sets for every board. -/
def endOfAll (config : Config) : ℕ :=
  (config.lines.findIdx? isOther).getD config.lines.length

/-- Before the end of the lines for every board no section for some boards begins. -/
theorem isOther_of_mem_take (config : Config) :
    ∀ line ∈ config.lines.take config.endOfAll, isOther line = false := by
  intro line hline
  unfold endOfAll at hline
  cases hfound : config.lines.findIdx? isOther with
  | none => exact List.findIdx?_eq_none_iff.mp hfound line (List.mem_of_mem_take hline)
  | some i =>
      obtain ⟨hi, -, hbefore⟩ := List.findIdx?_eq_some_iff_getElem.mp hfound
      rw [hfound, Option.getD_some] at hline
      obtain ⟨j, hj, rfl⟩ := List.mem_take_iff_getElem.mp hline
      simpa using hbefore j (by omega)

theorem endOfAll_le (config : Config) : config.endOfAll ≤ config.lines.length := by
  unfold endOfAll
  cases hfound : config.lines.findIdx? isOther with
  | none => exact le_rfl
  | some i =>
      obtain ⟨hi, -⟩ := List.findIdx?_eq_some_iff_getElem.mp hfound
      exact hi.le

/-- A setting takes the place of the lines that set its name for every board, or goes at the end of
the first lines that are for every board. -/
theorem withSetting_lines (config : Config) (name value : String) :
    (config.withSetting name value).lines =
      if (heldIn true name config.lines).isSome then
        rewritten true name (name ++ "=" ++ value) config.lines
      else config.lines.insertIdx config.endOfAll (name ++ "=" ++ value) := by
  obtain ⟨hlines, hset, hend⟩ := foldl_rewriteLine name value config.lines
    { lines := [], inAll := true, set := false, endOfAll := none }
  unfold withSetting
  dsimp only at hlines hset hend ⊢
  rw [hlines, hset, hend, Bool.false_or]
  by_cases hheld : (heldIn true name config.lines).isSome
  · rw [if_pos hheld, if_pos hheld]
    rfl
  · rw [if_neg hheld, if_neg hheld, List.nil_append,
      rewritten_eq_self (Option.not_isSome_iff_eq_none.mp hheld), Option.none_or]
    simp [endOfAll]

/-- What is inserted into a list stands between its parts. -/
theorem insertIdx_eq_append {i : ℕ} (hi : i ≤ lines.length) :
    lines.insertIdx i line = lines.take i ++ line :: lines.drop i := by
  induction lines generalizing i with
  | nil =>
      obtain rfl : i = 0 := Nat.le_zero.mp hi
      rfl
  | cons first rest ih =>
      cases i with
      | zero => rfl
      | succ i =>
          rw [List.insertIdx_succ_cons, ih (Nat.le_of_succ_le_succ hi)]
          rfl

/-- A setting set for every board is what its name is set to, and no other name is set otherwise. -/
theorem heldIn_withSetting (config : Config) {name value : String}
    (hput : sectionOf (name ++ "=" ++ value) = none)
    (hsetting : settingOf (name ++ "=" ++ value) = some (name, value)) (other : String) :
    heldIn true other (config.withSetting name value).lines =
      if name = other then some value else heldIn true other config.lines := by
  rw [withSetting_lines]
  by_cases hheld : (heldIn true name config.lines).isSome
  · rw [if_pos hheld, heldIn_rewritten hput hsetting]
    obtain ⟨held, hheld⟩ := Option.isSome_iff_exists.mp hheld
    rw [hheld, Option.map_some]
  · have hnone := Option.not_isSome_iff_eq_none.mp hheld
    have hfront := foldl_inAllAfter config.isOther_of_mem_take
    have hsplit : heldIn true other config.lines =
        (heldIn true other (config.lines.drop config.endOfAll)).or
          (heldIn true other (config.lines.take config.endOfAll)) := by
      conv_lhs => rw [← List.take_append_drop config.endOfAll config.lines, heldIn_append, hfront]
    rw [if_neg hheld, insertIdx_eq_append config.endOfAll_le, heldIn_append, hfront,
      heldIn, inAllAfter_of_sectionOf hput, valueOf_put hsetting, hsplit]
    by_cases hname : name = other
    · rw [hname, hsplit, Option.or_eq_none_iff] at hnone
      rw [if_pos hname, if_pos hname, hnone.1]
      rfl
    · rw [if_neg hname, if_neg hname, Option.or_none]

/-! ## The text of a configuration -/

/-- A line a configuration is read to hold: trimmed, not empty and no comment. -/
structure Kept (line : String) : Prop where
  feed : '\n' ∉ line.toList
  trimmed : Text.Trimmed line
  blank : line ≠ ""
  comment : Text.startsWith line "#" = false

/-- The lines of a configuration are those that are kept. -/
theorem kept_of_mem_parse {text line : String} (hline : line ∈ (parse text).lines) : Kept line := by
  obtain ⟨hmapped, hkept⟩ := List.mem_filter.mp hline
  obtain ⟨whole, hwhole, rfl⟩ := List.mem_map.mp hmapped
  rw [decide_eq_true_eq, Bool.not_eq_true] at hkept
  exact ⟨fun hfeed => Text.not_mem_of_mem_lines hwhole (Text.mem_of_mem_trim hfeed),
    Text.trimmed_trim whole, hkept.1, hkept.2⟩

/-- A configuration of lines that are kept is read back from its text. -/
theorem parse_text {config : Config} (hkept : ∀ line ∈ config.lines, Kept line) :
    parse config.text = config := by
  have hlines : Text.lines config.text = config.lines := by
    apply Text.lines_unlines_of_ends
    intro line hline
    refine ⟨(hkept line hline).feed, fun hlast => ?_⟩
    exact (hkept line hline).trimmed.2 _ hlast (by decide)
  have htrim : config.lines.map Text.trim = config.lines := by
    refine (List.map_congr_left fun line hline => ?_).trans (List.map_id _)
    exact Text.trim_of_trimmed (hkept line hline).trimmed
  unfold parse
  rw [hlines, htrim]
  congr 1
  apply List.filter_eq_self.mpr
  intro line hline
  simp [(hkept line hline).blank, (hkept line hline).comment]

/-- The lines of a configuration with a setting set are its own and the setting's. -/
theorem mem_withSetting {config : Config} {name value line : String}
    (hline : line ∈ (config.withSetting name value).lines) :
    line ∈ config.lines ∨ line = name ++ "=" ++ value := by
  rw [withSetting_lines] at hline
  split at hline
  · obtain ⟨i, hi⟩ := List.mem_iff_getElem?.mp hline
    rw [getElem?_rewritten] at hi
    obtain ⟨held, hheld, rfl⟩ := Option.map_eq_some_iff.mp hi
    split
    · exact .inr rfl
    · exact .inl (List.mem_of_getElem? hheld)
  · rcases List.eq_or_mem_of_mem_insertIdx hline with hput | hheld
    · exact .inr hput
    · exact .inl hheld

end Config

end Bliti.Provision.Bootloader
