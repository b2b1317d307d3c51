import Bliti.Provision.Bootloader.Config

/-!
# The bootloader - USB first in the boot order

Putting USB first keeps a configuration as it was but for the boot order, and the boot order as it
was but for USB.  One order is not kept: where the last of the other media is of digit zero, it
becomes a leading zero of the order, which is no digit of it.

Main results:

- Theorem `Config.putsUsbFirst_iff`: the boot orders it puts USB first in.
-/

namespace Bliti.Provision.Bootloader

namespace Config

/-- A line of a configuration sets a name for every board. -/
def SetsAt (config : Config) (name : String) (i : ℕ) : Prop :=
  ∃ line, config.lines[i]? = some line ∧
    (valueOf ((config.lines.take i).foldl inAllAfter true) name line).isSome

/-- Every line of a configuration is kept in place, but those that set a name for every board; where
none does, one line is added. -/
inductive KeptBut (name : String) (config put : Config) : Prop where
  | replaced (hset : ∃ i, config.SetsAt name i) (hlength : put.lines.length = config.lines.length)
      (hkept : ∀ i, ¬config.SetsAt name i → put.lines[i]? = config.lines[i]?)
  | added (hnone : ∀ i, ¬config.SetsAt name i) (i : ℕ) (hi : i ≤ config.lines.length)
      (line : String) (hlines : put.lines = config.lines.insertIdx i line)

/-- What putting USB first does: nothing where USB is first, an error where the boot order is no
number or has no room, and else USB and the other media in their order, with all else kept. -/
structure PutsUsbFirst (config : Config) : Prop where
  order : ∀ put, config.putUsbFirst = .ok (some put) → ∃ order value first,
    config.bootOrder = .ok order ∧ put.settings.all["BOOT_ORDER"]? = some value ∧
      parseOrder value = .ok first ∧ media first = usb.toNat :: others order
  settings : ∀ put, config.putUsbFirst = .ok (some put) → ∀ name, name ≠ "BOOT_ORDER" →
    put.settings.all[name]? = config.settings.all[name]?
  kept : ∀ put, config.putUsbFirst = .ok (some put) → config.KeptBut "BOOT_ORDER" put
  read : ∀ put, config.putUsbFirst = .ok (some put) → parse put.text = put
  first : ∀ put, config.putUsbFirst = .ok (some put) → put.usbIsFirst = .ok true
  already : config.putUsbFirst = .ok none ↔
    ∃ order, config.bootOrder = .ok order ∧ (media order).head? = some usb.toNat
  refused : (∃ reason, config.putUsbFirst = .error reason) ↔
    (∃ value, config.settings.all["BOOT_ORDER"]? = some value ∧ orderNumber value = none) ∨
    ∃ order, config.bootOrder = .ok order ∧ (media order).head? ≠ some usb.toNat ∧
      8 < (usb.toNat :: others order).length
  shifts : ∀ order first, config.bootOrder = .ok order → usbFirst order = .ok first →
    first ≠ order → first.toNat = Nat.ofDigits 16 (usb.toNat :: others order)

/-! ## The line put -/

/-- No digit is white space. -/
theorem not_isWhitespace_of_toDigit {c : Char} {d : ℕ} (hdigit : Text.toDigit 16 c = some d) :
    Text.isWhitespace c = false := by
  have hrange : (48 ≤ c.toNat ∧ c.toNat ≤ 57) ∨ (97 ≤ c.toNat ∧ c.toNat ≤ 122) ∨
      (65 ≤ c.toNat ∧ c.toNat ≤ 90) := by
    unfold Text.toDigit at hdigit
    dsimp only at hdigit
    split_ifs at hdigit with hdecimal hlower hupper
    · exact .inl hdecimal
    · exact .inr (.inl hlower)
    · exact .inr (.inr hupper)
    · cases hdigit
  unfold Text.isWhitespace
  rw [decide_eq_false_iff_not]
  omega

/-- No character of a boot order as it is written is white space. -/
theorem not_isWhitespace_display {order : UInt32} {c : Char} (hc : c ∈ (display order).toList) :
    Text.isWhitespace c = false := by
  rw [display, Text.hex, String.toList_append, List.mem_append] at hc
  rcases hc with hhead | hdigit
  · have hplain : ∀ c ∈ "0x".toList, Text.isWhitespace c = false := by
      rw [← List.forall_iff_forall_mem]
      decide
    exact hplain c hhead
  · rw [String.toList_ofList] at hdigit
    obtain ⟨d, hd⟩ := Option.isSome_iff_exists.mp (Text.isSome_toDigit_of_mem hdigit)
    exact not_isWhitespace_of_toDigit hd

/-- A boot order as it is written is trimmed. -/
theorem trimmed_display (order : UInt32) : Text.Trimmed (display order) := by
  constructor
  · intro first hfirst
    simpa using not_isWhitespace_display (List.mem_of_head? hfirst)
  · intro last hlast
    simpa using not_isWhitespace_display (List.mem_of_getLast? hlast)

/-- The characters of the line of a boot order. -/
theorem toList_order (order : UInt32) :
    ("BOOT_ORDER" ++ "=" ++ display order).toList =
      "BOOT_ORDER".toList ++ '=' :: (display order).toList := by
  rw [String.toList_append, String.toList_append, List.append_assoc]
  rfl

/-- The line of a boot order begins with its name. -/
theorem head?_order (order : UInt32) :
    ("BOOT_ORDER" ++ "=" ++ display order).toList.head? = some 'B' := by
  rw [toList_order]
  rfl

/-- The line of a boot order begins no section. -/
theorem sectionOf_order (order : UInt32) :
    sectionOf ("BOOT_ORDER" ++ "=" ++ display order) = none := by
  have hhead : Text.afterHead ("BOOT_ORDER" ++ "=" ++ display order) "[" = none := by
    cases hafter : Text.afterHead ("BOOT_ORDER" ++ "=" ++ display order) "[" with
    | none => rfl
    | some rest =>
        have hfirst := head?_order order
        rw [Text.afterHead_eq_some_iff.mp hafter] at hfirst
        simp at hfirst
  rw [sectionOf, hhead]
  rfl

/-- The line of a boot order is a setting. -/
theorem settingOf_order (order : UInt32) :
    settingOf ("BOOT_ORDER" ++ "=" ++ display order) = some ("BOOT_ORDER", display order) := by
  have hname : ∀ c ∈ "BOOT_ORDER".toList, Decidable.decide (c ≠ '=') = true := by
    rw [← List.forall_iff_forall_mem]
    decide
  have hsplit : splitOnce ("BOOT_ORDER" ++ "=" ++ display order) '=' =
      some ("BOOT_ORDER", display order) := by
    unfold splitOnce
    rw [toList_order, List.dropWhile_append_of_pos hname, List.takeWhile_append_of_pos hname,
      List.dropWhile_cons_of_neg (by decide), List.takeWhile_cons_of_neg (by decide)]
    simp
  rw [settingOf, sectionOf_order, hsplit]
  dsimp only [Option.map_some]
  rw [Text.trim_of_trimmed (trimmed_display order), Text.trim_of_trimmed]
  constructor
  · intro first hfirst
    obtain rfl : 'B' = first := Option.some.inj hfirst
    decide
  · intro last hlast
    obtain rfl : 'R' = last := Option.some.inj hlast
    decide

/-- The line of a boot order is one that is kept. -/
theorem kept_order (order : UInt32) : Kept ("BOOT_ORDER" ++ "=" ++ display order) := by
  have hdisplay : (display order).toList ≠ [] := by
    intro hnil
    rw [display, String.toList_append] at hnil
    simp at hnil
  constructor
  · rw [toList_order, List.mem_append, List.mem_cons]
    rintro (hname | hequals | hnumber)
    · exact absurd hname (by decide)
    · exact absurd hequals (by decide)
    · exact absurd (not_isWhitespace_display hnumber) (by decide)
  · constructor
    · intro first hfirst
      rw [head?_order, Option.mem_some_iff] at hfirst
      rw [← hfirst]
      decide
    · intro last hlast
      rw [toList_order, List.getLast?_append_of_ne_nil _ (List.cons_ne_nil _ _),
        List.getLast?_cons_of_ne_nil hdisplay] at hlast
      simpa using not_isWhitespace_display (List.mem_of_getLast? hlast)
  · intro hblank
    have hfirst := head?_order order
    rw [hblank] at hfirst
    cases hfirst
  · have hfirst := head?_order order
    unfold Text.startsWith
    cases hchars : ("BOOT_ORDER" ++ "=" ++ display order).toList with
    | nil => rfl
    | cons c rest =>
        rw [hchars, List.head?_cons] at hfirst
        rw [Option.some.inj hfirst]
        rfl

/-! ## The boot order put -/

/-- USB and some media are the digits of the number they make, unless the last of them is zero. -/
theorem media_eq_iff {order first : UInt32}
    (hfirst : first.toNat = Nat.ofDigits 16 (usb.toNat :: others order)) :
    media first = usb.toNat :: others order ↔ (others order).getLast? ≠ some 0 := by
  constructor
  · intro hmedia hlast
    apply getLast?_media_ne first
    rw [hmedia, List.getLast?_cons, hlast]
    rfl
  · intro hlast
    unfold media
    rw [hfirst]
    refine Nat.digits_ofDigits 16 (by decide) _ ?_ ?_
    · intro medium hmedium
      rcases List.mem_cons.mp hmedium with rfl | hother
      · decide
      · exact media_lt (List.mem_filter.mp hother).1
    · intro hne hzero
      have hend := List.getLast?_eq_some_getLast hne
      rw [hzero, List.getLast?_cons] at hend
      cases hlastOf : (others order).getLast? with
      | none => simp [hlastOf, usb] at hend
      | some last =>
          rw [hlastOf] at hend hlast
          exact hlast hend

/-- Putting USB first of an order that is none makes another order, with USB first. -/
theorem head?_of_ofDigits {order first : UInt32}
    (hfirst : first.toNat = Nat.ofDigits 16 (usb.toNat :: others order)) :
    (media first).head? = some usb.toNat := by
  have hpositive : 0 < first.toNat := by
    rw [hfirst, Nat.ofDigits_cons]
    exact Nat.add_pos_left (by decide) _
  have hlow : first.toNat % 16 = usb.toNat := by
    rw [hfirst, Nat.ofDigits_cons, Nat.add_mul_mod_self_left]
    rfl
  rw [media, Nat.digits_def' (by decide) hpositive, List.head?_cons, hlow]

variable {config put : Config}

/-- What putting USB first of a boot order comes to. -/
theorem putUsbFirst_of_bootOrder {order : UInt32} (horder : config.bootOrder = .ok order) :
    ((media order).head? = some usb.toNat ∧ config.putUsbFirst = .ok none) ∨
      ((media order).head? ≠ some usb.toNat ∧ maxDigits < (others order).length ∧
        ∃ reason, config.putUsbFirst = .error reason) ∨
      ((media order).head? ≠ some usb.toNat ∧ (others order).length ≤ maxDigits ∧
        ∃ first, first.toNat = Nat.ofDigits 16 (usb.toNat :: others order) ∧
          config.putUsbFirst = .ok (some (config.withSetting "BOOT_ORDER" (display first)))) := by
  have hput : config.putUsbFirst = (usbFirst order >>= fun first =>
      if first = order then pure none
      else pure (some (config.withSetting "BOOT_ORDER" (display first)))) := by
    rw [putUsbFirst, horder]
    rfl
  rcases usbFirst_cases order with ⟨hhead, hsame⟩ | ⟨hhead, hmany, reason, hrefused⟩ |
    ⟨hhead, hfew, first, hfirst, hdigits⟩
  · refine .inl ⟨hhead, ?_⟩
    rw [hput, hsame]
    exact if_pos rfl
  · refine .inr (.inl ⟨hhead, hmany, reason, ?_⟩)
    rw [hput, hrefused]
    rfl
  · have hother : first ≠ order := by
      rintro rfl
      exact hhead (head?_of_ofDigits hdigits)
    refine .inr (.inr ⟨hhead, hfew, first, hdigits, ?_⟩)
    rw [hput, hfirst]
    exact if_neg hother

/-- Where there is no boot order, what is set for it is no number, and putting USB first is the same
error. -/
theorem putUsbFirst_of_error {reason : String} (herror : config.bootOrder = .error reason) :
    config.putUsbFirst = .error reason ∧
      ∃ value, config.settings.all["BOOT_ORDER"]? = some value ∧ orderNumber value = none := by
  constructor
  · rw [putUsbFirst, herror]
    rfl
  · unfold bootOrder at herror
    split at herror
    · rename_i value hvalue
      refine ⟨value, hvalue, ?_⟩
      unfold parseOrder at herror
      split at herror
      · cases herror
      · assumption
    · cases herror

/-- Where there is a boot order, what is set for it is a number. -/
theorem orderNumber_ne_none {order : UInt32} {value : String}
    (horder : config.bootOrder = .ok order)
    (hvalue : config.settings.all["BOOT_ORDER"]? = some value) : orderNumber value ≠ none := by
  intro hnone
  rw [bootOrder, hvalue] at horder
  dsimp only at horder
  rw [parseOrder, hnone] at horder
  cases horder

/-! ## What putting USB first does -/

/-- A configuration put is one with USB put first in its boot order, where it was not. -/
theorem put_of_putUsbFirst (hput : config.putUsbFirst = .ok (some put)) :
    ∃ order first, config.bootOrder = .ok order ∧ (media order).head? ≠ some usb.toNat ∧
      first.toNat = Nat.ofDigits 16 (usb.toNat :: others order) ∧
      put = config.withSetting "BOOT_ORDER" (display first) := by
  cases horder : config.bootOrder with
  | error reason =>
      rw [(putUsbFirst_of_error horder).1] at hput
      cases hput
  | ok order =>
      rcases putUsbFirst_of_bootOrder horder with ⟨-, hsame⟩ | ⟨-, -, reason, hrefused⟩ |
        ⟨hhead, -, first, hdigits, hfirst⟩
      · rw [hsame] at hput
        cases hput
      · rw [hrefused] at hput
        cases hput
      · rw [hfirst] at hput
        exact ⟨order, first, rfl, hhead, hdigits, (Option.some.inj (Except.ok.inj hput)).symm⟩

/-- Nothing is put exactly where USB is first. -/
theorem putUsbFirst_none_iff :
    config.putUsbFirst = .ok none ↔
      ∃ order, config.bootOrder = .ok order ∧ (media order).head? = some usb.toNat := by
  cases horder : config.bootOrder with
  | error reason =>
      rw [(putUsbFirst_of_error horder).1]
      simp
  | ok order =>
      rcases putUsbFirst_of_bootOrder horder with ⟨hhead, hsame⟩ | ⟨hhead, -, reason, hrefused⟩ |
        ⟨hhead, -, first, -, hput⟩
      · exact iff_of_true hsame ⟨order, rfl, hhead⟩
      · rw [hrefused]
        simp [hhead]
      · rw [hput]
        simp [hhead]

/-- With a boot order set, that is what is set and all else as it was. -/
theorem settings_withSetting (config : Config) (order : UInt32) (name : String) :
    (config.withSetting "BOOT_ORDER" (display order)).settings.all[name]? =
      if "BOOT_ORDER" = name then some (display order) else config.settings.all[name]? := by
  rw [settings_all, settings_all,
    heldIn_withSetting config (sectionOf_order order) (settingOf_order order)]

/-- With a boot order set, that is the boot order. -/
theorem bootOrder_withSetting (config : Config) (order : UInt32) :
    (config.withSetting "BOOT_ORDER" (display order)).bootOrder = .ok order := by
  rw [bootOrder, settings_withSetting, if_pos rfl]
  exact parseOrder_display order

/-- Lines set a name for every board where one of them does. -/
theorem heldIn_isSome_iff (inAll : Bool) (name : String) (lines : List String) :
    (heldIn inAll name lines).isSome ↔ ∃ i line, lines[i]? = some line ∧
      (valueOf ((lines.take i).foldl inAllAfter inAll) name line).isSome := by
  induction lines generalizing inAll with
  | nil => simp [heldIn]
  | cons line rest ih =>
      rw [heldIn, Option.isSome_or, Bool.or_eq_true, ih]
      constructor
      · rintro (⟨i, found, hfound, hvalue⟩ | hvalue)
        · exact ⟨i + 1, found, hfound, hvalue⟩
        · exact ⟨0, line, rfl, hvalue⟩
      · rintro ⟨i, found, hfound, hvalue⟩
        cases i with
        | zero =>
            obtain rfl : line = found := Option.some.inj hfound
            exact .inr hvalue
        | succ i => exact .inl ⟨i, found, hfound, hvalue⟩

/-- Setting a name for every board keeps every other line in place. -/
theorem keptBut_withSetting (config : Config) (name value : String) :
    config.KeptBut name (config.withSetting name value) := by
  have hlines := config.withSetting_lines name value
  by_cases hheld : (heldIn true name config.lines).isSome
  · rw [if_pos hheld] at hlines
    refine .replaced ((heldIn_isSome_iff true name config.lines).mp hheld) ?_ fun i hi => ?_
    · rw [hlines, length_rewritten]
    · rw [hlines, getElem?_rewritten]
      cases hline : config.lines[i]? with
      | none => rfl
      | some line =>
          rw [Option.map_some, if_neg fun hvalue => hi ⟨line, hline, hvalue⟩]
  · rw [if_neg hheld] at hlines
    refine .added (fun i hi => hheld ((heldIn_isSome_iff true name config.lines).mpr ⟨i, hi⟩)) _
      config.endOfAll_le _ hlines

/-- A configuration with USB put first has it first. -/
theorem usbIsFirst_of_put (hput : config.putUsbFirst = .ok (some put)) :
    put.usbIsFirst = .ok true := by
  obtain ⟨order, first, -, -, hdigits, rfl⟩ := put_of_putUsbFirst hput
  have hnone : (config.withSetting "BOOT_ORDER" (display first)).putUsbFirst = .ok none :=
    putUsbFirst_none_iff.mpr
      ⟨first, bootOrder_withSetting config first, head?_of_ofDigits hdigits⟩
  rw [usbIsFirst, hnone]
  rfl

/-- A configuration with USB put first is read back from its text. -/
theorem parse_put (hkept : ∀ line ∈ config.lines, Kept line)
    (hput : config.putUsbFirst = .ok (some put)) : parse put.text = put := by
  obtain ⟨order, first, -, -, -, rfl⟩ := put_of_putUsbFirst hput
  apply parse_text
  intro line hline
  rcases mem_withSetting hline with hheld | rfl
  · exact hkept line hheld
  · exact kept_order first

/-- The boot order put is USB and the other media unless the last of these is zero. -/
theorem order_iff :
    (∀ put, config.putUsbFirst = .ok (some put) → ∃ order value first,
      config.bootOrder = .ok order ∧ put.settings.all["BOOT_ORDER"]? = some value ∧
        parseOrder value = .ok first ∧ media first = usb.toNat :: others order) ↔
    ∀ order, config.bootOrder = .ok order →
      (media order).head? = some usb.toNat ∨ (others order).getLast? ≠ some 0 := by
  constructor
  · intro hkeeps order horder
    rcases putUsbFirst_of_bootOrder horder with ⟨hhead, -⟩ | ⟨-, hmany, -⟩ |
      ⟨-, -, first, hdigits, hput⟩
    · exact .inl hhead
    · -- Too many media leave none of them out, and the last of all is not zero.
      have hlength : (media order).length ≤ (others order).length :=
        (length_media_le order).trans (Nat.succ_le_of_lt hmany)
      have hall : others order = media order :=
        List.filter_sublist.eq_of_length_le hlength
      rw [hall]
      exact .inr (getLast?_media_ne order)
    · obtain ⟨held, value, read, hheld, hvalue, hread, hmedia⟩ := hkeeps _ hput
      rw [horder] at hheld
      obtain rfl := Except.ok.inj hheld
      rw [settings_withSetting, if_pos rfl] at hvalue
      obtain rfl := Option.some.inj hvalue
      rw [parseOrder_display] at hread
      obtain rfl := Except.ok.inj hread
      exact .inr ((media_eq_iff hdigits).mp hmedia)
  · intro hlast put hput
    obtain ⟨order, first, horder, hhead, hdigits, rfl⟩ := put_of_putUsbFirst hput
    refine ⟨order, display first, first, horder, ?_, parseOrder_display first, ?_⟩
    · rw [settings_withSetting, if_pos rfl]
    · exact (media_eq_iff hdigits).mpr ((hlast order horder).resolve_left hhead)

/-- It is an error exactly where the boot order is no number, or has no room for USB. -/
theorem putUsbFirst_error_iff :
    (∃ reason, config.putUsbFirst = .error reason) ↔
      (∃ value, config.settings.all["BOOT_ORDER"]? = some value ∧ orderNumber value = none) ∨
      ∃ order, config.bootOrder = .ok order ∧ (media order).head? ≠ some usb.toNat ∧
        8 < (usb.toNat :: others order).length := by
  cases horder : config.bootOrder with
  | error reason =>
      obtain ⟨hrefused, hvalue⟩ := putUsbFirst_of_error horder
      exact iff_of_true ⟨reason, hrefused⟩ (.inl hvalue)
  | ok order =>
      rcases putUsbFirst_of_bootOrder horder with ⟨hhead, hsame⟩ | ⟨hhead, hmany, hrefused⟩ |
        ⟨-, hfew, first, -, hput⟩
      · refine iff_of_false (by rw [hsame]; simp) ?_
        rintro (⟨value, hvalue, hnone⟩ | ⟨other, hother, hnot, -⟩)
        · exact orderNumber_ne_none horder hvalue hnone
        · rw [← Except.ok.inj hother] at hnot
          exact hnot hhead
      · exact iff_of_true hrefused (.inr ⟨order, rfl, hhead, Nat.succ_lt_succ hmany⟩)
      · refine iff_of_false (by rw [hput]; simp) ?_
        rintro (⟨value, hvalue, hnone⟩ | ⟨other, hother, -, hmany⟩)
        · exact orderNumber_ne_none horder hvalue hnone
        · rw [← Except.ok.inj hother, List.length_cons] at hmany
          unfold maxDigits at hfew
          omega

/-- No bit of a boot order put is lost. -/
theorem toNat_usbFirst {order first : UInt32} (hfirst : usbFirst order = .ok first)
    (hother : first ≠ order) : first.toNat = Nat.ofDigits 16 (usb.toNat :: others order) := by
  rcases usbFirst_cases order with ⟨-, hsame⟩ | ⟨-, -, reason, hrefused⟩ |
    ⟨-, -, put, hput, hdigits⟩
  · rw [hfirst] at hsame
    exact absurd (Except.ok.inj hsame) hother
  · rw [hfirst] at hrefused
    cases hrefused
  · rw [hfirst] at hput
    rw [Except.ok.inj hput, hdigits]

/-- Putting USB first of a configuration that was read does what it is to, exactly where the boot
order is no number, has USB first, or does not leave a medium of digit zero last once USB is taken
out of it. -/
theorem putsUsbFirst_iff (text : String) :
    (parse text).PutsUsbFirst ↔ ∀ order, (parse text).bootOrder = .ok order →
      (media order).head? = some usb.toNat ∨ (others order).getLast? ≠ some 0 := by
  rw [← order_iff]
  constructor
  · intro hputs
    exact hputs.order
  · intro horder
    constructor
    · exact horder
    · intro put hput name hname
      obtain ⟨order, first, -, -, -, rfl⟩ := put_of_putUsbFirst hput
      rw [settings_withSetting, if_neg hname.symm]
    · intro put hput
      obtain ⟨order, first, -, -, -, rfl⟩ := put_of_putUsbFirst hput
      exact keptBut_withSetting _ _ _
    · exact fun put hput => parse_put (fun line hline => kept_of_mem_parse hline) hput
    · exact fun put hput => usbIsFirst_of_put hput
    · exact putUsbFirst_none_iff
    · exact putUsbFirst_error_iff
    · exact fun order first _ hfirst hother => toNat_usbFirst hfirst hother

/-- Putting USB first of an order of SD card, card detection and USB leaves card detection out. -/
theorem not_putsUsbFirst : ¬∀ text, (parse text).PutsUsbFirst := by
  intro hputs
  have horder : (parse "BOOT_ORDER=0x401\n").bootOrder = .ok 0x401 := by
    have hheld : heldIn true "BOOT_ORDER" (parse "BOOT_ORDER=0x401\n").lines = some "0x401" := by
      decide
    rw [bootOrder, settings_all, hheld]
    decide
  have hmedia : media 0x401 = [1, 0, 4] := by
    rw [media, show UInt32.toNat 0x401 = 1025 from rfl]
    norm_num
  rcases order_iff.mp (hputs "BOOT_ORDER=0x401\n").order 0x401 horder with hhead | hlast
  · rw [hmedia] at hhead
    cases hhead
  · rw [others, hmedia] at hlast
    exact hlast rfl

end Config

end Bliti.Provision.Bootloader
