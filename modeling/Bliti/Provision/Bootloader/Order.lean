import Mathlib.Data.Nat.Digits.Lemmas
import Bliti.Text.Lines
import Bliti.Text.Numeral

/-!
# The bootloader - the boot order

A boot order is a word whose hexadecimal digits are the media the bootloader tries, the lowest
first.  A medium of digit zero that would come last is no digit of the word: the order of which it
is the last cannot be told from the one without it.
-/

namespace Bliti.Provision.Bootloader

/-- The boot order the bootloader uses where none is set. -/
def defaultOrder : UInt32 := 0xf461

/-- The digit of a boot order that names a USB mass storage device. -/
def usb : UInt32 := 4

/-- The most digits of a boot order that leave room for USB to be put in front. -/
def maxDigits : ℕ := 7

/-- The digits of a word, the lowest first. -/
def digits (rest : UInt32) : List UInt32 :=
  if rest = 0 then [] else (rest &&& 0xf) :: digits (rest >>> 4)
termination_by rest.toNat
decreasing_by
  rename_i hrest
  have hpositive : rest.toNat ≠ 0 := fun hzero => hrest (UInt32.toNat_inj.mp hzero)
  rw [UInt32.toNat_shiftRight, Nat.shiftRight_eq_div_pow]
  exact Nat.div_lt_self (Nat.pos_of_ne_zero hpositive) (by decide)

/-- A boot order in hexadecimal, as it is written in a configuration. -/
def display (order : UInt32) : String :=
  "0x" ++ Text.hex order.toNat

/-- A boot order with USB tried first. -/
def usbFirst (order : UInt32) : Except String UInt32 :=
  let found := digits order
  if found.head? = some usb then .ok order
  else
    let found := found.filter (· ≠ usb)
    if maxDigits < found.length then
      .error ("BOOT_ORDER " ++ display order ++ " has no room for another medium")
    else .ok ((usb :: found).reverse.foldl (fun acc digit => acc <<< 4 ||| digit) 0)

/-- The number a value is, where it is one. -/
def orderNumber (value : String) : Option UInt32 :=
  match (Text.afterHead value "0x").or (Text.afterHead value "0X") with
  | some hex => Text.fromStrRadix 16 hex
  | none => Text.fromStrRadix 10 value

/-- The boot order a value is. -/
def parseOrder (value : String) : Except String UInt32 :=
  match orderNumber value with
  | some order => .ok order
  | none => .error ("BOOT_ORDER is " ++ value ++ ", which is not a boot order")

/-! ## The media of a boot order -/

/-- The media of a boot order, the first tried first. -/
def media (order : UInt32) : List ℕ :=
  Nat.digits 16 order.toNat

/-- The media of a boot order without USB. -/
def others (order : UInt32) : List ℕ :=
  (media order).filter (· ≠ usb.toNat)

/-- A boot order is read back as it is written. -/
theorem parseOrder_display (order : UInt32) : parseOrder (display order) = .ok order := by
  have hhead : Text.afterHead (display order) "0x" = some (Text.hex order.toNat) :=
    Text.afterHead_eq_some_iff.mpr rfl
  rw [parseOrder, orderNumber, hhead, Option.some_or]
  dsimp only
  rw [Text.fromStrRadix_hex]

/-- The digits of a boot order are its media. -/
theorem map_toNat_digits (order : UInt32) : (digits order).map UInt32.toNat = media order := by
  unfold media
  fun_induction digits order with
  | case1 => rfl
  | case2 rest hrest ih =>
      have hpositive : rest.toNat ≠ 0 := fun hzero => hrest (UInt32.toNat_inj.mp hzero)
      have hlow : (rest &&& 0xf).toNat = rest.toNat % 16 := by
        rw [UInt32.toNat_and]
        exact Nat.and_two_pow_sub_one_eq_mod rest.toNat 4
      have hrest : (rest >>> 4).toNat = rest.toNat / 16 := by
        rw [UInt32.toNat_shiftRight]
        exact Nat.shiftRight_eq_div_pow rest.toNat 4
      rw [Nat.digits_def' (by decide) (Nat.pos_of_ne_zero hpositive), List.map_cons, hlow, ih,
        hrest]

/-- Each medium is one digit. -/
theorem media_lt {order : UInt32} {medium : ℕ} (hmedium : medium ∈ media order) : medium < 16 :=
  Nat.digits_lt_base (by decide) hmedium

theorem length_media_le (order : UInt32) : (media order).length ≤ 8 :=
  (Nat.digits_length_le_iff (by decide) _).mpr order.toNat_lt

/-- The last medium of a boot order is not zero. -/
theorem getLast?_media_ne (order : UInt32) : (media order).getLast? ≠ some 0 := by
  intro hlast
  have hne : media order ≠ [] := by
    intro hnil
    rw [hnil] at hlast
    cases hlast
  rw [List.getLast?_eq_some_getLast hne] at hlast
  have hpositive : order.toNat ≠ 0 := fun hzero => hne (by simp [media, hzero])
  exact Nat.getLast_digit_ne_zero 16 hpositive (Option.some.inj hlast)

/-- The digits other than USB are the other media. -/
theorem map_toNat_filter (order : UInt32) :
    ((digits order).filter (· ≠ usb)).map UInt32.toNat = others order := by
  rw [others, ← map_toNat_digits, List.filter_map]
  congr 1
  refine List.filter_congr fun digit _ => ?_
  simp [UInt32.toNat_inj]

/-- Digits put together from the lowest are the number they are the digits of, where it is a
word. -/
theorem toNat_foldl {found : List UInt32} (hdigit : ∀ digit ∈ found, digit.toNat < 16)
    (hlength : found.length ≤ 8) :
    (found.reverse.foldl (fun acc digit : UInt32 => acc <<< 4 ||| digit) 0).toNat =
      Nat.ofDigits 16 (found.map UInt32.toNat) := by
  induction found with
  | nil => rfl
  | cons digit rest ih =>
      rw [List.length_cons] at hlength
      have hrest : ∀ digit ∈ rest, digit.toNat < 16 := fun digit hin =>
        hdigit digit (List.mem_cons_of_mem _ hin)
      have hsmall : Nat.ofDigits 16 (rest.map UInt32.toNat) < 16 ^ 7 := by
        have hlt : Nat.ofDigits 16 (rest.map UInt32.toNat) < 16 ^ (rest.map UInt32.toNat).length := by
          refine Nat.ofDigits_lt_base_pow_length (by decide) fun d hd => ?_
          obtain ⟨digit, hin, rfl⟩ := List.mem_map.mp hd
          exact hrest digit hin
        rw [List.length_map] at hlt
        exact hlt.trans_le (Nat.pow_le_pow_right (by decide) (by omega))
      rw [List.reverse_cons, List.foldl_append, List.foldl_cons, List.foldl_nil, List.map_cons,
        Nat.ofDigits_cons, UInt32.toNat_or, UInt32.toNat_shiftLeft, ih hrest (by omega)]
      have hfits : Nat.ofDigits 16 (rest.map UInt32.toNat) <<< (UInt32.toNat 4 % 32) % 2 ^ 32 =
          Nat.ofDigits 16 (rest.map UInt32.toNat) <<< 4 := by
        rw [show UInt32.toNat 4 % 32 = 4 from rfl, Nat.mod_eq_of_lt]
        rw [Nat.shiftLeft_eq]
        omega
      rw [hfits, ← Nat.shiftLeft_add_eq_or_of_lt (hdigit digit List.mem_cons_self),
        Nat.shiftLeft_eq]
      simp
      omega

/-- What comes of a boot order: it is as it was where USB is first, it is refused where USB and the
other media are too many, and else it is USB and the others, none of their bits lost. -/
theorem usbFirst_cases (order : UInt32) :
    ((media order).head? = some usb.toNat ∧ usbFirst order = .ok order) ∨
    ((media order).head? ≠ some usb.toNat ∧ maxDigits < (others order).length ∧
      ∃ reason, usbFirst order = .error reason) ∨
    ((media order).head? ≠ some usb.toNat ∧ (others order).length ≤ maxDigits ∧
      ∃ put, usbFirst order = .ok put ∧
        put.toNat = Nat.ofDigits 16 (usb.toNat :: others order)) := by
  have hhead : (digits order).head? = some usb ↔ (media order).head? = some usb.toNat := by
    rw [← map_toNat_digits, List.head?_map]
    cases (digits order).head? with
    | none => simp
    | some digit => simp [UInt32.toNat_inj]
  have hlength : ((digits order).filter (· ≠ usb)).length = (others order).length := by
    rw [← map_toNat_filter, List.length_map]
  unfold usbFirst
  dsimp only
  by_cases hfirst : (digits order).head? = some usb
  · exact .inl ⟨hhead.mp hfirst, if_pos hfirst⟩
  · rw [if_neg hfirst]
    have hnot : (media order).head? ≠ some usb.toNat := fun h => hfirst (hhead.mpr h)
    by_cases hmany : maxDigits < (others order).length
    · refine .inr (.inl ⟨hnot, hmany, ?_⟩)
      rw [if_pos (hlength ▸ hmany)]
      exact ⟨_, rfl⟩
    · refine .inr (.inr ⟨hnot, not_lt.mp hmany, ?_⟩)
      rw [if_neg (hlength ▸ hmany)]
      refine ⟨_, rfl, ?_⟩
      rw [toNat_foldl, List.map_cons, map_toNat_filter]
      · intro digit hdigit
        rcases List.mem_cons.mp hdigit with rfl | hother
        · decide
        · have hin : digit.toNat ∈ media order := by
            rw [← map_toNat_digits]
            exact List.mem_map_of_mem (List.mem_filter.mp hother).1
          exact media_lt hin
      · rw [List.length_cons, hlength]
        exact Nat.succ_le_succ (not_lt.mp hmany)

end Bliti.Provision.Bootloader
