import Bliti.Library.Base32
import Bliti.Text.Lines

/-!
# The QR code - the payload, as text and read back

What a QR code carries, the text it encodes, and how that text is read however it was captured or
typed.  The base32 codec is a parameter.

Main results:

- Theorem `QrPayload.read_toText`: what is read back, and what is read of any text.
-/

namespace Bliti

open Base32 (Codec alphabet)

/-! ## Versions -/

/-- The payload version this build writes into a QR code. -/
def payloadVersion : UInt8 := 1

/-- Every version marker this build implements, each with the payload version it reads. -/
def markers : List (UInt8 × UInt8) := [(1, 1)]

/-- The version markers this build implements that read a payload version, highest first. -/
def markersReading (version : UInt8) : List UInt8 :=
  ((markers.filter fun marker => marker.2 = version).map Prod.fst).mergeSort fun a b => b ≤ a

/-- Whether this build reads QR codes at a payload version. -/
def readsPayload (version : UInt8) : Bool :=
  (markersReading version).head?.isSome

/-! ## The payload -/

/-- The text the code carries ahead of the payload. -/
def qrPrefix : String := "BLITI:"

/-- The length of a presence token. -/
def presenceTokenLen : ℕ := 16

/-- The length of a key fingerprint. -/
def keyFingerprintLen : ℕ := 18

/-- The length of the payload: the payload version, the presence token and the key fingerprint. -/
def payloadLen : ℕ := 1 + presenceTokenLen + keyFingerprintLen

/-- The decoded contents of a QR code, at a payload version this build reads. -/
structure QrPayload where
  version : UInt8
  presenceToken : List UInt8
  fingerprint : List UInt8
  version_read : readsPayload version = true
  length_presenceToken : presenceToken.length = presenceTokenLen
  length_fingerprint : fingerprint.length = keyFingerprintLen
deriving DecidableEq

/-- A failure reading a QR code payload. -/
inductive QrError where
  | malformed
  | unsupportedVersion (version : UInt8)
deriving DecidableEq, Repr

namespace QrPayload

/-- The raw payload bytes. -/
def toBytes (payload : QrPayload) : List UInt8 :=
  payload.version :: (payload.presenceToken ++ payload.fingerprint)

/-- The encoded payload: the raw bytes as unpadded base32. -/
def encoded (codec : Codec) (payload : QrPayload) : String :=
  codec.encode payload.toBytes

/-- The text the QR code encodes. -/
def toText (codec : Codec) (payload : QrPayload) : String :=
  qrPrefix ++ payload.encoded codec

/-- A payload read from raw bytes, the payload version before anything else. -/
def fromBytes : List UInt8 → Except QrError QrPayload
  | [] => .error .malformed
  | version :: rest =>
      if hread : readsPayload version = true then
        if hlength : rest.length = payloadLen - 1 then
          .ok {
            version := version
            presenceToken := rest.take presenceTokenLen
            fingerprint := rest.drop presenceTokenLen
            version_read := hread
            length_presenceToken := by
              rw [List.length_take, hlength]
              decide
            length_fingerprint := by
              rw [List.length_drop, hlength]
              decide }
        else .error .malformed
      else .error (.unsupportedVersion version)

/-- A text parted at the last of a character. -/
def rsplitOnce (s : String) (sep : Char) : Option (String × String) :=
  if sep ∈ s.toList then
    some (String.ofList (s.toList.rdropWhile (· ≠ sep)).dropLast,
      String.ofList (s.toList.rtakeWhile (· ≠ sep)))
  else none

/-- A character as it is read: its case ignored, and the digits base32 never uses the letters they
are mistaken for. -/
def cleanChar (c : Char) : Char :=
  match c.toUpper with
  | '0' => 'O'
  | '1' => 'I'
  | '8' => 'B'
  | c => c

/-- What is read of a text: dashes and white space passed over. -/
def clean (payload : String) : String :=
  String.ofList ((payload.toList.filter fun c => !Text.isWhitespace c && c ≠ '-').map cleanChar)

/-- What of a text is the payload: everything up to the last colon is discarded. -/
def payloadOf (text : String) : String :=
  match rsplitOnce text ':' with
  | some (_, payload) => payload
  | none => text

/-- A payload read from the text of a QR code, captured from the code or typed in. -/
def read (codec : Codec) (text : String) : Except QrError QrPayload :=
  match codec.decode (clean (payloadOf text)) with
  | some bytes => fromBytes bytes
  | none => .error .malformed

/-! ## How a text is typed -/

/-- A character is written for a letter or digit of base32: itself, in either case, or the digit
mistaken for it. -/
inductive Written (c : Char) : Char → Prop where
  | same : Written c c
  | lower : Written c c.toLower
  | zero (hc : c = 'O') : Written c '0'
  | one (hc : c = 'I') : Written c '1'
  | eight (hc : c = 'B') : Written c '8'

/-- Characters are typed for others: each written, with dashes and white space anywhere. -/
inductive Typed : List Char → List Char → Prop where
  | nil : Typed [] []
  | written {c d : Char} {cs ds : List Char} (hwritten : Written c d) (hrest : Typed cs ds) :
      Typed (c :: cs) (d :: ds)
  | spaced {d : Char} {cs ds : List Char} (hspace : Text.isWhitespace d = true ∨ d = '-')
      (hrest : Typed cs ds) : Typed cs (d :: ds)

/-- A text is made from another by typing what comes after its last colon, with anything before a
colon, or nothing and no colon. -/
inductive Retyped (text : String) : String → Prop where
  | bare {start back typed : String} (htext : text = start ++ ":" ++ back)
      (hback : ':' ∉ back.toList) (htyped : Typed back.toList typed.toList) : Retyped text typed
  | headed {start back typed : String} (htext : text = start ++ ":" ++ back)
      (hback : ':' ∉ back.toList) (htyped : Typed back.toList typed.toList) (head : String) :
      Retyped text (head ++ ":" ++ typed)

/-! ## Reading back -/

/-- What is written for a character of base32 is read as it, and is no colon. -/
theorem cleanChar_of_written {c d : Char} (hc : c ∈ alphabet) (hwritten : Written c d) :
    (!Text.isWhitespace d && d ≠ '-') = true ∧ cleanChar d = c ∧ d ≠ ':' := by
  have hall : ∀ c ∈ alphabet,
      ((!Text.isWhitespace c && c ≠ '-') = true ∧ cleanChar c = c ∧ c ≠ ':') ∧
        (!Text.isWhitespace c.toLower && c.toLower ≠ '-') = true ∧ cleanChar c.toLower = c ∧
          c.toLower ≠ ':' := by
    rw [← List.forall_iff_forall_mem]
    decide
  cases hwritten with
  | same => exact (hall c hc).1
  | lower => exact (hall c hc).2
  | zero hc => exact hc ▸ by decide
  | one hc => exact hc ▸ by decide
  | eight hc => exact hc ▸ by decide

/-- What is typed for characters of base32 is read as them, and holds no colon. -/
theorem clean_of_typed {cs ds : List Char} (hcs : ∀ c ∈ cs, c ∈ alphabet) (htyped : Typed cs ds) :
    (ds.filter fun c => !Text.isWhitespace c && c ≠ '-').map cleanChar = cs ∧ ':' ∉ ds := by
  induction htyped with
  | nil => simp
  | @written c d cs ds hwritten hrest ih =>
      rw [List.forall_mem_cons] at hcs
      obtain ⟨hkept, hclean, hcolon⟩ := cleanChar_of_written hcs.1 hwritten
      obtain ⟨hrest, hcolons⟩ := ih hcs.2
      constructor
      · rw [List.filter_cons, if_pos hkept, List.map_cons, hclean, hrest]
      · rw [List.mem_cons, not_or]
        exact ⟨hcolon.symm, hcolons⟩
  | @spaced d cs ds hspace hrest ih =>
      obtain ⟨hrest, hcolons⟩ := ih hcs
      constructor
      · have hdropped : ¬(!Text.isWhitespace d && d ≠ '-') = true := by
          rcases hspace with hwhite | rfl
          · simp [hwhite]
          · simp
        rw [List.filter_cons, if_neg hdropped, hrest]
      · rw [List.mem_cons, not_or]
        refine ⟨?_, hcolons⟩
        rintro rfl
        rcases hspace with hwhite | hdash
        · exact absurd hwhite (by decide)
        · exact absurd hdash (by decide)

/-- The payload of a text is what comes after a colon that no other follows. -/
theorem payloadOf_append {start back : String} (hback : ':' ∉ back.toList) :
    payloadOf (start ++ ":" ++ back) = back := by
  have hlist : (start ++ ":" ++ back).toList = start.toList ++ ':' :: back.toList := by
    rw [String.toList_append, String.toList_append, List.append_assoc]
    rfl
  have hmem : ':' ∈ (start ++ ":" ++ back).toList := by
    rw [hlist]
    exact List.mem_append_right _ List.mem_cons_self
  have hlast : (start ++ ":" ++ back).toList.rtakeWhile (· ≠ ':') = back.toList := by
    have hkept : ∀ c ∈ back.toList.reverse, decide (c ≠ ':') = true := by
      intro c hc
      rw [List.mem_reverse] at hc
      exact decide_eq_true (ne_of_mem_of_not_mem hc hback)
    rw [hlist, List.rtakeWhile, List.reverse_append, List.reverse_cons, List.append_assoc,
      List.takeWhile_append_of_pos hkept]
    simp
  rw [payloadOf, rsplitOnce, if_pos hmem, hlast]
  exact String.ofList_toList

/-- The payload of a text without colons is all of it. -/
theorem payloadOf_of_not_mem {text : String} (hcolon : ':' ∉ text.toList) :
    payloadOf text = text := by
  rw [payloadOf, rsplitOnce, if_neg hcolon]

/-- What is retyped of a text whose payload is of base32's characters is read as that payload. -/
theorem clean_payloadOf {start body text : String} (hbody : ∀ c ∈ body.toList, c ∈ alphabet)
    (hretyped : Retyped (start ++ ":" ++ body) text) : clean (payloadOf text) = body := by
  have hcolon : ':' ∉ body.toList := fun hmem => absurd (hbody _ hmem) (by decide)
  have hsame : ∀ {front back : String}, start ++ ":" ++ body = front ++ ":" ++ back →
      ':' ∉ back.toList → back = body := by
    intro front back htext hback
    have hpayload := congrArg payloadOf htext
    rw [payloadOf_append hcolon, payloadOf_append hback] at hpayload
    exact hpayload.symm
  cases hretyped with
  | bare htext hback htyped =>
      rw [hsame htext hback] at htyped
      obtain ⟨hclean, hnone⟩ := clean_of_typed hbody htyped
      rw [payloadOf_of_not_mem hnone, clean, hclean, String.ofList_toList]
  | headed htext hback htyped head =>
      rw [hsame htext hback] at htyped
      obtain ⟨hclean, hnone⟩ := clean_of_typed hbody htyped
      rw [payloadOf_append hnone, clean, hclean, String.ofList_toList]

/-- A payload is read back from its bytes. -/
theorem fromBytes_toBytes (payload : QrPayload) : fromBytes payload.toBytes = .ok payload := by
  obtain ⟨version, token, fingerprint, hread, htoken, hfingerprint⟩ := payload
  have hlength : (token ++ fingerprint).length = payloadLen - 1 := by
    rw [List.length_append, htoken, hfingerprint]
    rfl
  rw [toBytes, fromBytes, dif_pos hread, dif_pos hlength]
  simp [← htoken]

/-- Bytes a payload is read from are its own. -/
theorem toBytes_of_fromBytes {bytes : List UInt8} {payload : QrPayload}
    (hread : fromBytes bytes = .ok payload) : payload.toBytes = bytes := by
  unfold fromBytes at hread
  split at hread
  · cases hread
  · split_ifs at hread
    rw [← Except.ok.inj hread, toBytes, List.take_append_drop]

/-- A payload at a version this build does not read is refused as that. -/
theorem fromBytes_unsupported {version : UInt8} (hversion : readsPayload version = false)
    (rest : List UInt8) : fromBytes (version :: rest) = .error (.unsupportedVersion version) := by
  rw [fromBytes, dif_neg (Bool.eq_false_iff.mp hversion)]

section Codec

variable {codec : Codec}

/-- What is retyped of the text of some bytes is read as those bytes. -/
theorem read_retyped (hstrict : codec.Strict) {bytes : List UInt8} {text : String}
    (hretyped : Retyped (qrPrefix ++ codec.encode bytes) text) :
    read codec text = fromBytes bytes := by
  have hhead : qrPrefix = "BLITI" ++ ":" := rfl
  rw [hhead] at hretyped
  rw [read, clean_payloadOf (hstrict.mem_alphabet bytes) hretyped, hstrict.decode_encode]

/-- A payload is read back however its text is typed; what a payload is read from is its encoded
form, once cleaned; and a payload at a version this build does not read is told by its version,
whatever follows it. -/
theorem read_toText (hstrict : codec.Strict) :
    (∀ (payload : QrPayload) (text : String), Retyped (payload.toText codec) text →
        read codec text = .ok payload) ∧
      (∀ (text : String) (payload : QrPayload), read codec text = .ok payload →
        clean (payloadOf text) = payload.encoded codec) ∧
      ∀ (version : UInt8) (rest : List UInt8), readsPayload version = false →
        fromBytes (version :: rest) = .error (.unsupportedVersion version) ∧
          ∀ text, Retyped (qrPrefix ++ codec.encode (version :: rest)) text →
            read codec text = .error (.unsupportedVersion version) := by
  refine ⟨?_, ?_, ?_⟩
  · intro payload text hretyped
    rw [read_retyped hstrict hretyped, fromBytes_toBytes]
  · intro text payload hread
    unfold read at hread
    split at hread
    · rename_i bytes hdecode
      rw [encoded, toBytes_of_fromBytes hread, hstrict.encode_decode _ _ hdecode]
    · cases hread
  · intro version rest hversion
    refine ⟨fromBytes_unsupported hversion rest, fun text hretyped => ?_⟩
    rw [read_retyped hstrict hretyped, fromBytes_unsupported hversion]

end Codec

/-- Characters may be typed in lower case. -/
theorem typed_lower (cs : List Char) : Typed cs (cs.map Char.toLower) := by
  induction cs with
  | nil => exact .nil
  | cons c cs ih => exact .written .lower ih

/-- A payload of zeros. -/
def zeros : QrPayload where
  version := payloadVersion
  presenceToken := List.replicate presenceTokenLen 0
  fingerprint := List.replicate keyFingerprintLen 0
  version_read := by decide +kernel
  length_presenceToken := List.length_replicate
  length_fingerprint := List.length_replicate

/-- A payload of zeros is read back from its text in lower case, with a dash and no colon. -/
theorem read_toText_zeros :
    read Base32.nopad
      (String.ofList ('-' :: (zeros.encoded Base32.nopad).toList.map Char.toLower)) = .ok zeros := by
  have htext : zeros.toText Base32.nopad = "BLITI" ++ ":" ++ zeros.encoded Base32.nopad := by
    have hhead : qrPrefix = "BLITI" ++ ":" := rfl
    rw [toText, hhead]
  apply (read_toText Base32.nopad_strict).1
  refine .bare htext ?_ ?_
  · exact fun hmem => absurd (Base32.nopad_strict.mem_alphabet _ _ hmem) (by decide)
  · rw [String.toList_ofList]
    exact .spaced (.inr rfl) (typed_lower _)

end QrPayload

end Bliti
