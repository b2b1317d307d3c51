import Mathlib
import Bliti.Library.Prefixes
import Bliti.Provision.Steps.Eeprom
import Bliti.Text.Hex
import Bliti.Text.Utf8

/-!
# Provisioning - what a HAT EEPROM holds

A HAT image is a header, which counts its atoms, and the atoms one after another, each with its type
and its length.  What an EEPROM holds is told from the first atom of vendor information.
-/

namespace Bliti.Provision.Steps.Eeprom

open Prefixes

/-! ## Reading -/

/-- The UUID in every Tamanu Iti's HAT EEPROM. -/
def ITI_UUID : String := "7c3b8a88-ad89-4d48-b709-2bd445729867"

/-- What a HAT image starts with. -/
def SIGNATURE : List UInt8 := [0x52, 0x2D, 0x50, 0x69]

/-- The version of a HAT+ header. -/
def HAT_PLUS : ℕ := 0x02

/-- The type of an atom of vendor information. -/
def VENDOR_ATOM : ℕ := 0x0001

/-- What is read of a header. -/
structure Header where
  version : ℕ
  atoms : ℕ

/-- What is read of vendor information, the UUID as the EEPROM holds it. -/
structure Vendor where
  uuid : List UInt8
  productId : ℕ
  productVer : ℕ
  vendor : List UInt8
  product : List UInt8

/-- Read a header. -/
def header : Reader Header := fun input => do
  let ((), input) ← literal SIGNATURE input
  let (version, input) ← number 1 input
  let (_, input) ← number 1 input
  let (atoms, input) ← number 2 input
  let (_, input) ← number 4 input
  some ({ version := version, atoms := atoms }, input)

/-- Read an atom: its type, and its data, which ends in its checksum. -/
def atom : Reader (ℕ × List UInt8) := fun input => do
  let (kind, input) ← number 2 input
  let (_, input) ← number 2 input
  let (length, input) ← number 4 input
  let (data, input) ← take length input
  some ((kind, data), input)

/-- Read vendor information. -/
def vendor : Reader Vendor := fun input => do
  let (uuid, input) ← take 16 input
  let (productId, input) ← number 2 input
  let (productVer, input) ← number 2 input
  let (vendorLength, input) ← number 1 input
  let (productLength, input) ← number 1 input
  let (vendor, input) ← take vendorLength input
  let (product, input) ← take productLength input
  some ({
    uuid := uuid
    productId := productId
    productVer := productVer
    vendor := vendor
    product := product }, input)

/-- The first vendor information of so many atoms. -/
def firstVendor : ℕ → List UInt8 → Option Vendor
  | 0, _ => none
  | n + 1, input => do
      let ((kind, data), input) ← atom input
      if kind = VENDOR_ATOM then (vendor data).map Prod.fst else firstVendor n input

/-- The vendor information of a HAT image, and whether the image is HAT+. -/
def vendorInformation (bytes : List UInt8) : Option (Bool × Vendor) := do
  let (header, input) ← header bytes
  let vendor ← firstVendor header.atoms input
  some (header.version == HAT_PLUS, vendor)

/-! ## Telling -/

/-- A part of a text, or nothing, as out of its range it panics. -/
def slice (text : String) (start stop : ℕ) : Option String :=
  if start ≤ stop ∧ stop ≤ text.toList.length then
    some (String.ofList ((text.toList.take stop).drop start))
  else none

/-- The UUID as text, hyphenated, or nothing where that panics. -/
def Vendor.uuidText (vendor : Vendor) : Option String := do
  let hex := Text.hexEncode vendor.uuid.reverse
  let first ← slice hex 0 8
  let second ← slice hex 8 12
  let third ← slice hex 12 16
  let fourth ← slice hex 16 20
  let fifth ← slice hex 20 hex.toList.length
  some (first ++ "-" ++ second ++ "-" ++ third ++ "-" ++ fourth ++ "-" ++ fifth)

/-- Two texts are equal, ASCII letters as they are in either case. -/
def eqIgnoreAsciiCase (text other : String) : Bool :=
  text.toList.map Char.toLower == other.toList.map Char.toLower

/-- Text with each character that is not printable ASCII replaced. -/
def printable (text : List UInt8) : String :=
  String.ofList ((Text.fromUtf8Lossy text).toList.map fun c =>
    if ('!' ≤ c && c ≤ '~') || c = ' ' then c else '?')

/-- What vendor information is told as, or nothing where that panics. -/
def toldAs (hatPlus : Bool) (vendor : Vendor) : Option Held := do
  let iti ← if hatPlus then (vendor.uuidText).map (eqIgnoreAsciiCase · ITI_UUID) else some false
  if iti then
    some (.iti {
      major := UInt16.ofNat vendor.productId
      minor := UInt16.ofNat vendor.productVer })
  else
    some (.other (printable vendor.vendor) (printable vendor.product))

/-- What some bytes are told as, or nothing where that panics. -/
def describe (bytes : List UInt8) : Option Held :=
  if !bytes.isEmpty && bytes.all (· == 0xFF) then some .blank
  else
    match vendorInformation bytes with
    | none => some .unrecognised
    | some (hatPlus, vendor) => toldAs hatPlus vendor

/-! ## Images -/

/-- The bytes of the Tamanu Iti's UUID, in the order it is written in. -/
def itiUuid : List UInt8 :=
  [0x7C, 0x3B, 0x8A, 0x88, 0xAD, 0x89, 0x4D, 0x48, 0xB7, 0x09, 0x2B, 0xD4, 0x45, 0x72, 0x98, 0x67]

/-- An atom as it stands in an EEPROM. -/
structure Atom where
  kind : UInt16
  count : UInt16
  data : List UInt8
  fits : data.length < 256 ^ 4

/-- The bytes of an atom. -/
def Atom.bytes (a : Atom) : List UInt8 :=
  digits 2 a.kind.toNat ++ (digits 2 a.count.toNat ++ (digits 4 a.data.length ++ a.data))

/-- Vendor information as HAT lays it out, with the checksum of its atom. -/
structure Information where
  uuid : List UInt8
  productId : UInt16
  productVer : UInt16
  vendor : List UInt8
  product : List UInt8
  checksum : List UInt8
  uuid_length : uuid.length = 16
  vendor_fits : vendor.length < 256
  product_fits : product.length < 256
  checksum_length : checksum.length = 2

/-- What is read of vendor information. -/
def Information.read (information : Information) : Vendor where
  uuid := information.uuid.reverse
  productId := information.productId.toNat
  productVer := information.productVer.toNat
  vendor := information.vendor
  product := information.product

/-- The bytes of what is read as vendor information. -/
def Vendor.bytes (v : Vendor) : List UInt8 :=
  v.uuid ++ (digits 2 v.productId ++ (digits 2 v.productVer ++ (digits 1 v.vendor.length ++
    (digits 1 v.product.length ++ (v.vendor ++ v.product)))))

/-- The data of an atom of vendor information. -/
def Information.data (information : Information) : List UInt8 :=
  information.read.bytes ++ information.checksum

/-- The data of an atom of vendor information has a length that fits. -/
theorem Information.data_fits (information : Information) :
    information.data.length < 256 ^ 4 := by
  have huuid := information.uuid_length
  have hvendor := information.vendor_fits
  have hproduct := information.product_fits
  have hchecksum := information.checksum_length
  simp only [data, Vendor.bytes, read, List.length_append, List.length_reverse, length_digits]
  omega

/-- An atom of an image: of vendor information, or of another type and any data before its
checksum. -/
inductive Part where
  | vendor (count : UInt16) (information : Information)
  | other (kind count : UInt16) (payload checksum : List UInt8) (hkind : kind.toNat ≠ VENDOR_ATOM)
      (hchecksum : checksum.length = 2) (hfits : (payload ++ checksum).length < 256 ^ 4)

namespace Part

/-- The atom as it stands in an EEPROM. -/
def atom : Part → Atom
  | vendor count information =>
      { kind := 1, count := count, data := information.data, fits := information.data_fits }
  | other kind count payload checksum _ _ hfits =>
      { kind := kind, count := count, data := payload ++ checksum, fits := hfits }

/-- The vendor information of an atom. -/
def information : Part → Option Information
  | vendor _ information => some information
  | other .. => none

end Part

/-- A HAT image: a header of any version, and its atoms. -/
structure Image where
  version : UInt8
  reserved : UInt8
  length : UInt32
  parts : List Part
  counted : parts.length ≤ 65535

namespace Image

/-- The bytes of a header. -/
def headerBytes (version reserved atoms length : ℕ) : List UInt8 :=
  SIGNATURE ++ (digits 1 version ++ (digits 1 reserved ++ (digits 2 atoms ++ digits 4 length)))

/-- The bytes of an image. -/
def bytes (image : Image) : List UInt8 :=
  headerBytes image.version.toNat image.reserved.toNat image.parts.length image.length.toNat ++
    image.parts.flatMap fun part => part.atom.bytes

/-- What an image is: what its first vendor information says. -/
def held (image : Image) : Held :=
  match image.parts.findSome? Part.information with
  | none => .unrecognised
  | some information =>
      if image.version.toNat = HAT_PLUS ∧ information.uuid = itiUuid then
        .iti { major := information.productId, minor := information.productVer }
      else .other (printable information.vendor) (printable information.product)

end Image

/-! ## What is read -/

variable {input rest : List UInt8}

/-- A header is read of an input that starts with one. -/
theorem header_eq_some_iff {h : Header} :
    header input = some (h, rest) ↔ h.version < 256 ∧ h.atoms < 256 ^ 2 ∧
      ∃ reserved length, reserved < 256 ∧ length < 256 ^ 4 ∧
        input = Image.headerBytes h.version reserved h.atoms length ++ rest := by
  constructor
  · intro hread
    obtain ⟨⟨⟨⟩, input1⟩, hsignature, hread⟩ := Option.bind_eq_some_iff.mp hread
    obtain ⟨⟨version, input2⟩, hversion, hread⟩ := Option.bind_eq_some_iff.mp hread
    obtain ⟨⟨reserved, input3⟩, hreserved, hread⟩ := Option.bind_eq_some_iff.mp hread
    obtain ⟨⟨atoms, input4⟩, hatoms, hread⟩ := Option.bind_eq_some_iff.mp hread
    obtain ⟨⟨length, input5⟩, hlength, hread⟩ := Option.bind_eq_some_iff.mp hread
    obtain ⟨rfl, rfl⟩ := Prod.mk.inj (Option.some.inj hread)
    obtain rfl := literal_eq_some_iff.mp hsignature
    obtain ⟨hversionFits, rfl⟩ := number_eq_some_iff.mp hversion
    obtain ⟨hreservedFits, rfl⟩ := number_eq_some_iff.mp hreserved
    obtain ⟨hatomsFits, rfl⟩ := number_eq_some_iff.mp hatoms
    obtain ⟨hlengthFits, rfl⟩ := number_eq_some_iff.mp hlength
    refine ⟨hversionFits, hatomsFits, reserved, length, hreservedFits, hlengthFits, ?_⟩
    simp only [Image.headerBytes, List.append_assoc]
  · rintro ⟨hversion, hatoms, reserved, length, hreserved, hlength, rfl⟩
    unfold header
    simp only [Image.headerBytes, List.append_assoc, Option.bind_eq_bind,
      literal_eq_some_iff.mpr rfl, Option.bind_some,
      number_eq_some_iff.mpr ⟨(show h.version < 256 ^ 1 from hversion), rfl⟩,
      number_eq_some_iff.mpr ⟨(show reserved < 256 ^ 1 from hreserved), rfl⟩,
      number_eq_some_iff.mpr ⟨hatoms, rfl⟩, number_eq_some_iff.mpr ⟨hlength, rfl⟩]

/-- An atom is read of an input that starts with it. -/
theorem atom_eq_some_iff {kind : ℕ} {data : List UInt8} :
    atom input = some ((kind, data), rest) ↔
      ∃ a : Atom, a.kind.toNat = kind ∧ a.data = data ∧ input = a.bytes ++ rest := by
  constructor
  · intro hread
    obtain ⟨⟨kind, input1⟩, hkind, hread⟩ := Option.bind_eq_some_iff.mp hread
    obtain ⟨⟨count, input2⟩, hcount, hread⟩ := Option.bind_eq_some_iff.mp hread
    obtain ⟨⟨length, input3⟩, hlength, hread⟩ := Option.bind_eq_some_iff.mp hread
    obtain ⟨⟨data, input4⟩, hdata, hread⟩ := Option.bind_eq_some_iff.mp hread
    obtain ⟨hsame, rfl⟩ := Prod.mk.inj (Option.some.inj hread)
    obtain ⟨rfl, rfl⟩ := Prod.mk.inj hsame
    obtain ⟨hkindFits, rfl⟩ := number_eq_some_iff.mp hkind
    obtain ⟨hcountFits, rfl⟩ := number_eq_some_iff.mp hcount
    obtain ⟨hlengthFits, rfl⟩ := number_eq_some_iff.mp hlength
    obtain ⟨rfl, rfl⟩ := take_eq_some_iff.mp hdata
    have hkindNat : (UInt16.ofNat kind).toNat = kind := UInt16.toNat_ofNat_of_lt' hkindFits
    have hcountNat : (UInt16.ofNat count).toNat = count := UInt16.toNat_ofNat_of_lt' hcountFits
    refine ⟨⟨UInt16.ofNat kind, UInt16.ofNat count, data, hlengthFits⟩, hkindNat, rfl, ?_⟩
    simp only [Atom.bytes, hkindNat, hcountNat, List.append_assoc]
  · rintro ⟨a, rfl, rfl, rfl⟩
    unfold atom
    simp only [Atom.bytes, List.append_assoc, Option.bind_eq_bind, Option.bind_some,
      number_eq_some_iff.mpr ⟨(show a.kind.toNat < 256 ^ 2 from a.kind.toNat_lt), rfl⟩,
      number_eq_some_iff.mpr ⟨(show a.count.toNat < 256 ^ 2 from a.count.toNat_lt), rfl⟩,
      number_eq_some_iff.mpr ⟨a.fits, rfl⟩, take_eq_some_iff.mpr ⟨rfl, rfl⟩]

/-- What is read as vendor information has its sizes in its bytes. -/
structure Vendor.Fits (v : Vendor) : Prop where
  uuid : v.uuid.length = 16
  productId : v.productId < 256 ^ 2
  productVer : v.productVer < 256 ^ 2
  vendor : v.vendor.length < 256
  product : v.product.length < 256

/-- Vendor information is read of data that start with it. -/
theorem vendor_eq_some_iff {v : Vendor} :
    vendor input = some (v, rest) ↔ v.Fits ∧ input = v.bytes ++ rest := by
  constructor
  · intro hread
    obtain ⟨⟨uuid, input1⟩, huuid, hread⟩ := Option.bind_eq_some_iff.mp hread
    obtain ⟨⟨productId, input2⟩, hid, hread⟩ := Option.bind_eq_some_iff.mp hread
    obtain ⟨⟨productVer, input3⟩, hver, hread⟩ := Option.bind_eq_some_iff.mp hread
    obtain ⟨⟨vendorLength, input4⟩, hvendorLength, hread⟩ := Option.bind_eq_some_iff.mp hread
    obtain ⟨⟨productLength, input5⟩, hproductLength, hread⟩ := Option.bind_eq_some_iff.mp hread
    obtain ⟨⟨vendor, input6⟩, hvendor, hread⟩ := Option.bind_eq_some_iff.mp hread
    obtain ⟨⟨product, input7⟩, hproduct, hread⟩ := Option.bind_eq_some_iff.mp hread
    obtain ⟨rfl, rfl⟩ := Prod.mk.inj (Option.some.inj hread)
    obtain ⟨rfl, huuidLength⟩ := take_eq_some_iff.mp huuid
    obtain ⟨hidFits, rfl⟩ := number_eq_some_iff.mp hid
    obtain ⟨hverFits, rfl⟩ := number_eq_some_iff.mp hver
    obtain ⟨hvendorFits, rfl⟩ := number_eq_some_iff.mp hvendorLength
    obtain ⟨hproductFits, rfl⟩ := number_eq_some_iff.mp hproductLength
    obtain ⟨rfl, rfl⟩ := take_eq_some_iff.mp hvendor
    obtain ⟨rfl, rfl⟩ := take_eq_some_iff.mp hproduct
    refine ⟨⟨huuidLength, hidFits, hverFits, hvendorFits, hproductFits⟩, ?_⟩
    simp only [Vendor.bytes, List.append_assoc]
  · rintro ⟨hfits, rfl⟩
    unfold vendor
    simp only [Vendor.bytes, List.append_assoc, Option.bind_eq_bind, Option.bind_some,
      take_eq_some_iff.mpr ⟨rfl, hfits.uuid⟩, number_eq_some_iff.mpr ⟨hfits.productId, rfl⟩,
      number_eq_some_iff.mpr ⟨hfits.productVer, rfl⟩,
      number_eq_some_iff.mpr ⟨(show v.vendor.length < 256 ^ 1 from hfits.vendor), rfl⟩,
      number_eq_some_iff.mpr ⟨(show v.product.length < 256 ^ 1 from hfits.product), rfl⟩,
      take_eq_some_iff.mpr ⟨rfl, rfl⟩]

/-- Vendor information as HAT lays it out is read as it is. -/
theorem Information.fits_read (information : Information) : information.read.Fits where
  uuid := by rw [read, List.length_reverse, information.uuid_length]
  productId := information.productId.toNat_lt
  productVer := information.productVer.toNat_lt
  vendor := information.vendor_fits
  product := information.product_fits

/-- The atoms of an image are walked to the first of vendor information. -/
theorem firstVendor_parts (parts : List Part) (rest : List UInt8) :
    firstVendor parts.length ((parts.flatMap fun part => part.atom.bytes) ++ rest) =
      (parts.findSome? Part.information).map Information.read := by
  induction parts with
  | nil => rfl
  | cons part parts ih =>
      have hatom : atom (part.atom.bytes ++ ((parts.flatMap fun part => part.atom.bytes) ++ rest)) =
          some ((part.atom.kind.toNat, part.atom.data),
            (parts.flatMap fun part => part.atom.bytes) ++ rest) :=
        atom_eq_some_iff.mpr ⟨part.atom, rfl, rfl, rfl⟩
      rw [List.flatMap_cons, List.append_assoc, List.length_cons, firstVendor, hatom,
        List.findSome?_cons]
      simp only [Option.bind_eq_bind, Option.bind_some]
      cases part with
      | vendor count information =>
          have hread : vendor information.data = some (information.read, information.checksum) :=
            vendor_eq_some_iff.mpr ⟨information.fits_read, rfl⟩
          rw [if_pos (by rfl)]
          simp only [Part.atom, Part.information, hread, Option.map_some]
      | other kind count payload checksum hkind hchecksum hfits =>
          exact (if_neg hkind).trans ih

/-- The first vendor information of some atoms is read of the data of one of its type, after others
of other types. -/
theorem firstVendor_eq_some_iff {n : ℕ} {v : Vendor} :
    firstVendor n input = some v ↔ ∃ (before : List Atom) (a : Atom) (after left : List UInt8),
      before.length < n ∧ (∀ other ∈ before, other.kind.toNat ≠ VENDOR_ATOM) ∧
      a.kind.toNat = VENDOR_ATOM ∧ vendor a.data = some (v, left) ∧
      input = before.flatMap Atom.bytes ++ (a.bytes ++ after) := by
  induction n generalizing input with
  | zero =>
      constructor
      · intro hread
        cases hread
      · rintro ⟨before, a, after, left, hless, -⟩
        exact absurd hless (Nat.not_lt_zero _)
  | succ n ih =>
      constructor
      · intro hread
        obtain ⟨⟨⟨kind, data⟩, more⟩, hatom, hfound⟩ := Option.bind_eq_some_iff.mp hread
        obtain ⟨a, rfl, rfl, rfl⟩ := atom_eq_some_iff.mp hatom
        dsimp only at hfound
        split at hfound
        · rename_i hkind
          obtain ⟨⟨v, left⟩, hvendor, rfl⟩ := Option.map_eq_some_iff.mp hfound
          exact ⟨[], a, more, left, Nat.succ_pos n, by simp, hkind, hvendor, rfl⟩
        · rename_i hkind
          obtain ⟨before, first, after, left, hless, hothers, hfirst, hvendor, rfl⟩ :=
            ih.mp hfound
          refine ⟨a :: before, first, after, left, Nat.succ_lt_succ hless, ?_, hfirst, hvendor, ?_⟩
          · exact List.forall_mem_cons.mpr ⟨hkind, hothers⟩
          · rw [List.flatMap_cons, List.append_assoc]
      · rintro ⟨before, a, after, left, hless, hothers, hkind, hvendor, rfl⟩
        cases before with
        | nil =>
            have hatom : atom (a.bytes ++ after) = some ((a.kind.toNat, a.data), after) :=
              atom_eq_some_iff.mpr ⟨a, rfl, rfl, rfl⟩
            rw [List.flatMap_nil, List.nil_append, firstVendor, hatom]
            simp only [Option.bind_eq_bind, Option.bind_some]
            rw [if_pos hkind, hvendor, Option.map_some]
        | cons first before =>
            have hatom : atom (first.bytes ++ (before.flatMap Atom.bytes ++ (a.bytes ++ after))) =
                some ((first.kind.toNat, first.data),
                  before.flatMap Atom.bytes ++ (a.bytes ++ after)) :=
              atom_eq_some_iff.mpr ⟨first, rfl, rfl, rfl⟩
            rw [List.forall_mem_cons] at hothers
            rw [List.flatMap_cons, List.append_assoc, firstVendor, hatom]
            simp only [Option.bind_eq_bind, Option.bind_some]
            rw [if_neg hothers.1]
            exact ih.mpr ⟨before, a, after, left, Nat.lt_of_succ_lt_succ hless, hothers.2, hkind,
              hvendor, rfl⟩

/-! ## The UUID -/

/-- A byte in hex is in lower case. -/
theorem toLower_hexPadded (byte : UInt8) :
    (Text.hexPadded 2 byte.toNat).toList.map Char.toLower =
      (Text.hexPadded 2 byte.toNat).toList := by
  have hall : ∀ n < 256, (Text.hexPadded 2 n).toList.map Char.toLower =
      (Text.hexPadded 2 n).toList := by
    decide +kernel
  exact hall byte.toNat byte.toNat_lt

/-- Bytes in hex are in lower case. -/
theorem toLower_hexEncode (bytes : List UInt8) :
    (Text.hexEncode bytes).toList.map Char.toLower = (Text.hexEncode bytes).toList := by
  rw [Text.hexEncode, String.toList_ofList, List.map_flatMap]
  simp only [toLower_hexPadded]

/-- Bytes in hex are two characters each. -/
theorem length_hexEncode (bytes : List UInt8) :
    (Text.hexEncode bytes).toList.length = 2 * bytes.length := by
  rw [Text.hexEncode, String.toList_ofList, List.length_flatMap]
  simp only [(Text.hexPadded_byte _).1]
  simp [Nat.mul_comm]

/-- A part of a text within it is given. -/
theorem slice_eq {text : String} {start stop : ℕ} (hle : start ≤ stop)
    (hstop : stop ≤ text.toList.length) :
    slice text start stop = some (String.ofList ((text.toList.take stop).drop start)) :=
  if_pos ⟨hle, hstop⟩

/-- The UUID of sixteen bytes in words: their hex, with hyphens. -/
theorem uuidText_eq {v : Vendor} (hlength : v.uuid.length = 16) :
    v.uuidText = some (
      String.ofList (((Text.hexEncode v.uuid.reverse).toList.take 8).drop 0) ++ "-" ++
      String.ofList (((Text.hexEncode v.uuid.reverse).toList.take 12).drop 8) ++ "-" ++
      String.ofList (((Text.hexEncode v.uuid.reverse).toList.take 16).drop 12) ++ "-" ++
      String.ofList (((Text.hexEncode v.uuid.reverse).toList.take 20).drop 16) ++ "-" ++
      String.ofList ((Text.hexEncode v.uuid.reverse).toList.drop 20)) := by
  have hhex : (Text.hexEncode v.uuid.reverse).toList.length = 32 := by
    rw [length_hexEncode, List.length_reverse, hlength]
  unfold Vendor.uuidText
  simp only [Option.bind_eq_bind]
  rw [slice_eq (by omega) (by omega), slice_eq (by omega) (by omega),
    slice_eq (by omega) (by omega), slice_eq (by omega) (by omega),
    slice_eq (by omega) (by omega), List.take_length]
  rfl

/-- The UUID of sixteen bytes is in words, which are the Iti's exactly where the bytes are. -/
theorem uuidText_told {v : Vendor} (hlength : v.uuid.length = 16) :
    ∃ text, v.uuidText = some text ∧
      (eqIgnoreAsciiCase text ITI_UUID = true ↔ v.uuid = itiUuid.reverse) := by
  refine ⟨_, uuidText_eq hlength, ?_⟩
  have hhex : (Text.hexEncode v.uuid.reverse).toList.length = 32 := by
    rw [length_hexEncode, List.length_reverse, hlength]
  have hlower := toLower_hexEncode v.uuid.reverse
  have hwhole : (Text.hexEncode v.uuid.reverse).toList =
      "7c3b8a88ad894d48b7092bd445729867".toList ↔ v.uuid = itiUuid.reverse := by
    have hiti : Text.hexEncode itiUuid = "7c3b8a88ad894d48b7092bd445729867" := by decide
    rw [← hiti, String.toList_inj]
    constructor
    · intro hsame
      have hdecoded := congrArg Text.hexDecode hsame
      rw [Text.hexDecode_hexEncode, Text.hexDecode_hexEncode] at hdecoded
      rw [← Option.some.inj hdecoded, List.reverse_reverse]
    · intro hsame
      rw [hsame, List.reverse_reverse]
  rw [eqIgnoreAsciiCase, beq_iff_eq, ← hwhole]
  generalize (Text.hexEncode v.uuid.reverse).toList = hex at hhex hlower
  simp only [String.toList_append, String.toList_ofList, List.map_append, List.map_take,
    List.map_drop, hlower]
  constructor
  · -- The hyphens stand where they do, so that what is between them is the same.
    intro hsame
    match hex, hhex with
    | [c0, c1, c2, c3, c4, c5, c6, c7, c8, c9, c10, c11, c12, c13, c14, c15, c16, c17, c18, c19,
        c20, c21, c22, c23, c24, c25, c26, c27, c28, c29, c30, c31], _ =>
        simpa [ITI_UUID, Char.toLower] using hsame
  · rintro rfl
    decide

/-! ## What is told -/

/-- What vendor information says of the HAT it is of, under a header of a version. -/
def Vendor.held (version : ℕ) (v : Vendor) : Held :=
  if version = HAT_PLUS ∧ v.uuid = itiUuid.reverse then
    .iti { major := UInt16.ofNat v.productId, minor := UInt16.ofNat v.productVer }
  else .other (printable v.vendor) (printable v.product)

/-- What vendor information is told as is what it says, where its UUID is sixteen bytes. -/
theorem toldAs_eq {v : Vendor} (version : ℕ) (hlength : v.uuid.length = 16) :
    toldAs (version == HAT_PLUS) v = some (v.held version) := by
  unfold toldAs Vendor.held
  by_cases hversion : version = HAT_PLUS
  · obtain ⟨text, htext, hiti⟩ := uuidText_told hlength
    by_cases hsame : v.uuid = itiUuid.reverse
    · simp [hversion, htext, hiti.mpr hsame, hsame]
    · have hnot : eqIgnoreAsciiCase text ITI_UUID = false :=
        Bool.eq_false_iff.mpr fun htold => hsame (hiti.mp htold)
      simp [hversion, htext, hnot, hsame]
  · simp [hversion]

/-- What starts as a header is not blank. -/
theorem not_blank_header {version reserved atoms length : ℕ} :
    (!(Image.headerBytes version reserved atoms length ++ rest).isEmpty &&
      (Image.headerBytes version reserved atoms length ++ rest).all (· == 0xFF)) = false := by
  rw [Image.headerBytes, SIGNATURE]
  simp

/-- An image is told by its first atom of vendor information, whatever comes after its atoms. -/
theorem describe_image (image : Image) (rest : List UInt8) :
    describe (image.bytes ++ rest) = some image.held := by
  have hheader : header (image.bytes ++ rest) =
      some ({ version := image.version.toNat, atoms := image.parts.length },
        (image.parts.flatMap fun part => part.atom.bytes) ++ rest) := by
    refine header_eq_some_iff.mpr ⟨image.version.toNat_lt, Nat.lt_succ_of_le image.counted,
      image.reserved.toNat, image.length.toNat, image.reserved.toNat_lt, image.length.toNat_lt, ?_⟩
    rw [Image.bytes, List.append_assoc]
  have hblank : (!(image.bytes ++ rest).isEmpty && (image.bytes ++ rest).all (· == 0xFF)) = false := by
    rw [Image.bytes, List.append_assoc]
    exact not_blank_header
  rw [describe, hblank, if_neg Bool.false_ne_true, vendorInformation, hheader, Image.held]
  simp only [Option.bind_eq_bind, Option.bind_some, firstVendor_parts]
  cases image.parts.findSome? Part.information with
  | none => rfl
  | some information =>
      have huuid : information.read.uuid = itiUuid.reverse ↔ information.uuid = itiUuid :=
        List.reverse_injective.eq_iff
      simp only [Option.map_some, Option.bind_some]
      rw [toldAs_eq _ information.fits_read.uuid]
      simp only [Vendor.held, huuid]
      simp only [Information.read, UInt16.ofNat_toNat]

/-- What some bytes are told as is said by vendor information in the data of an atom of its type,
the first of those the header counts. -/
def Inside (bytes : List UInt8) (held : Held) : Prop :=
  ∃ (version reserved atoms length : ℕ) (before : List Atom) (a : Atom) (v : Vendor)
    (left after : List UInt8), version < 256 ∧ reserved < 256 ∧ atoms < 256 ^ 2 ∧
      length < 256 ^ 4 ∧ before.length < atoms ∧
      (∀ other ∈ before, other.kind.toNat ≠ VENDOR_ATOM) ∧ a.kind.toNat = VENDOR_ATOM ∧
      v.Fits ∧ a.data = v.bytes ++ left ∧ held = v.held version ∧
      bytes = Image.headerBytes version reserved atoms length ++
        (before.flatMap Atom.bytes ++ (a.bytes ++ after))

/-- What is said inside some bytes is said inside them with more after them. -/
theorem Inside.append {bytes : List UInt8} {held : Held} (h : Inside bytes held)
    (more : List UInt8) : Inside (bytes ++ more) held := by
  obtain ⟨version, reserved, atoms, length, before, a, v, left, after, hversion, hreserved, hatoms,
    hlength, hless, hothers, hkind, hfits, hdata, hheld, rfl⟩ := h
  refine ⟨version, reserved, atoms, length, before, a, v, left, after ++ more, hversion, hreserved,
    hatoms, hlength, hless, hothers, hkind, hfits, hdata, hheld, ?_⟩
  simp only [List.append_assoc]

/-- Vendor information that is read is said inside the bytes, and what is said is read. -/
theorem vendorInformation_inside {bytes : List UInt8} {held : Held} :
    Inside bytes held ↔ ∃ hatPlus v, vendorInformation bytes = some (hatPlus, v) ∧
      toldAs hatPlus v = some held := by
  constructor
  · rintro ⟨version, reserved, atoms, length, before, a, v, left, after, hversion, hreserved,
      hatoms, hlength, hless, hothers, hkind, hfits, hdata, rfl, rfl⟩
    have hheader : header (Image.headerBytes version reserved atoms length ++
        (before.flatMap Atom.bytes ++ (a.bytes ++ after))) =
        some ({ version := version, atoms := atoms },
          before.flatMap Atom.bytes ++ (a.bytes ++ after)) :=
      header_eq_some_iff.mpr ⟨hversion, hatoms, reserved, length, hreserved, hlength, rfl⟩
    have hfirst : firstVendor atoms (before.flatMap Atom.bytes ++ (a.bytes ++ after)) = some v :=
      firstVendor_eq_some_iff.mpr ⟨before, a, after, left, hless, hothers, hkind,
        vendor_eq_some_iff.mpr ⟨hfits, hdata⟩, rfl⟩
    refine ⟨version == HAT_PLUS, v, ?_, toldAs_eq version hfits.uuid⟩
    rw [vendorInformation, hheader]
    simp only [Option.bind_eq_bind, Option.bind_some, hfirst]
  · rintro ⟨hatPlus, v, hread, htold⟩
    obtain ⟨⟨h, input⟩, hheader, hrest⟩ := Option.bind_eq_some_iff.mp hread
    obtain ⟨found, hfirst, hsame⟩ := Option.bind_eq_some_iff.mp hrest
    obtain ⟨rfl, rfl⟩ := Prod.mk.inj (Option.some.inj hsame)
    obtain ⟨hversion, hatoms, reserved, length, hreserved, hlength, rfl⟩ :=
      header_eq_some_iff.mp hheader
    obtain ⟨before, a, after, left, hless, hothers, hkind, hvendor, rfl⟩ :=
      firstVendor_eq_some_iff.mp hfirst
    obtain ⟨hfits, hdata⟩ := vendor_eq_some_iff.mp hvendor
    rw [toldAs_eq h.version hfits.uuid] at htold
    exact ⟨h.version, reserved, h.atoms, length, before, a, found, left, after, hversion,
      hreserved, hatoms, hlength, hless, hothers, hkind, hfits, hdata,
      (Option.some.inj htold).symm, rfl⟩

/-- What vendor information says is a HAT. -/
theorem held_cases (version : ℕ) (v : Vendor) :
    (∃ iti, v.held version = .iti iti) ∨ ∃ vendor product, v.held version = .other vendor product := by
  unfold Vendor.held
  split
  · exact .inl ⟨_, rfl⟩
  · exact .inr ⟨_, _, rfl⟩

/-- What some bytes can be told as. -/
theorem describe_cases (bytes : List UInt8) :
    (describe bytes = some .blank ∧ bytes ≠ [] ∧ (∀ byte ∈ bytes, byte = 0xFF) ∧
        ∀ held, ¬ Inside bytes held) ∨
      (¬ (bytes ≠ [] ∧ ∀ byte ∈ bytes, byte = 0xFF)) ∧
        ((describe bytes = some .unrecognised ∧ ∀ held, ¬ Inside bytes held) ∨
          ∃ held, describe bytes = some held ∧ held ≠ .blank ∧ held ≠ .unrecognised ∧
            ∀ other, Inside bytes other ↔ other = held) := by
  by_cases hblank : bytes ≠ [] ∧ ∀ byte ∈ bytes, byte = 0xFF
  · refine .inl ⟨?_, hblank.1, hblank.2, ?_⟩
    · rw [describe, if_pos]
      simpa using hblank
    · rintro held ⟨version, reserved, atoms, length, before, a, v, left, after, -, -, -, -, -, -, -,
        -, -, -, rfl⟩
      have hfirst := hblank.2 0x52 (by simp [Image.headerBytes, SIGNATURE])
      exact absurd hfirst (by decide)
  · refine .inr ⟨hblank, ?_⟩
    have hdescribe : describe bytes = match vendorInformation bytes with
        | none => some .unrecognised
        | some (hatPlus, v) => toldAs hatPlus v := by
      rw [describe, if_neg]
      simpa using hblank
    cases hread : vendorInformation bytes with
    | none =>
        refine .inl ⟨by rw [hdescribe, hread], fun held hinside => ?_⟩
        obtain ⟨hatPlus, v, hsome, -⟩ := vendorInformation_inside.mp hinside
        rw [hread] at hsome
        cases hsome
    | some told =>
        obtain ⟨hatPlus, v⟩ := told
        obtain ⟨⟨h, input⟩, hheader, hrest⟩ := Option.bind_eq_some_iff.mp hread
        obtain ⟨found, hfirst, hsame⟩ := Option.bind_eq_some_iff.mp hrest
        obtain ⟨rfl, rfl⟩ := Prod.mk.inj (Option.some.inj hsame)
        obtain ⟨before, a, after, left, -, -, -, hvendor, -⟩ := firstVendor_eq_some_iff.mp hfirst
        have htold := toldAs_eq h.version (vendor_eq_some_iff.mp hvendor).1.uuid
        refine .inr ⟨found.held h.version, by rw [hdescribe, hread]; exact htold, ?_, ?_, ?_⟩
        · rcases held_cases h.version found with ⟨iti, hheld⟩ | ⟨vendor, product, hheld⟩ <;>
            simp [hheld]
        · rcases held_cases h.version found with ⟨iti, hheld⟩ | ⟨vendor, product, hheld⟩ <;>
            simp [hheld]
        · intro other
          rw [vendorInformation_inside, hread]
          constructor
          · rintro ⟨hatPlus, v, hsome, hother⟩
            obtain ⟨rfl, rfl⟩ := Prod.mk.inj (Option.some.inj hsome)
            exact Option.some.inj (hother.symm.trans htold)
          · rintro rfl
            exact ⟨_, _, rfl, htold⟩

/-- Whatever some bytes are, they are told as something, as blank where they are, and as a HAT
exactly where an atom's own data says so. -/
structure Described (bytes : List UInt8) : Prop where
  returns : ∃ held, describe bytes = some held
  blank : describe bytes = some .blank ↔ bytes ≠ [] ∧ ∀ byte ∈ bytes, byte = 0xFF
  iti : ∀ version, describe bytes = some (.iti version) ↔ Inside bytes (.iti version)
  other : ∀ vendor product,
    describe bytes = some (.other vendor product) ↔ Inside bytes (.other vendor product)

/-- Whatever the bytes are, they are told as no more than they say. -/
theorem described (bytes : List UInt8) : Described bytes := by
  rcases describe_cases bytes with ⟨htold, hne, hall, hnone⟩ |
    ⟨hnot, ⟨htold, hnone⟩ | ⟨held, htold, hblank, hunrecognised, hinside⟩⟩
  · exact ⟨⟨_, htold⟩, iff_of_true htold ⟨hne, hall⟩, fun version => by simp [htold, hnone],
      fun vendor product => by simp [htold, hnone]⟩
  · exact ⟨⟨_, htold⟩, iff_of_false (by simp [htold]) hnot, fun version => by simp [htold, hnone],
      fun vendor product => by simp [htold, hnone]⟩
  · refine ⟨⟨held, htold⟩, iff_of_false ?_ hnot, fun version => ?_, fun vendor product => ?_⟩
    · rw [htold]
      exact fun hsome => hblank (Option.some.inj hsome)
    · rw [htold, hinside, Option.some.injEq, eq_comm]
    · rw [htold, hinside, Option.some.injEq, eq_comm]

/-- A HAT image is told by its first vendor information, and bytes of any kind are told as no more
than they say. -/
theorem describes :
    (∀ (image : Image) (rest : List UInt8), describe (image.bytes ++ rest) = some image.held) ∧
      ∀ bytes, Described bytes :=
  ⟨describe_image, described⟩

end Bliti.Provision.Steps.Eeprom
