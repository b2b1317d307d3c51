import Bliti.Channel.Envelope.Faults
import Bliti.Channel.Messages.Shape.Types
import Bliti.Channel.Messages.Written

/-!
# The message set - messages at fault

Which bytes off a stream are a fault, which are refused or skipped for a type that is not
known: a fault is told by the bytes, the names, the `type` and what is critical, and for a
known type by the members it is to carry.

Main results:

- Theorem `read_faults`: a fault exactly where one of these is wrong.
-/

namespace Bliti.Channel.Messages

open Envelope (Faulty Parsed Raw Unknown)
open Message (plainFormats)

variable {φ Date : Type}

/-- A message off a stream is a fault exactly where it is no text, no JSON, or a message whose
names, shape, type, criticality or members are wrong, and refused or skipped for its type exactly
where that is not known. -/
theorem read_faults (formats : Formats φ Date) (fromStr : String → Except String (Raw φ))
    (bytes : ByteArray) :
    ((∃ fault, Envelope.read (messages formats) fromStr bytes = .error fault) ↔
      String.fromUTF8? bytes = none ∨
      (∃ text detail, String.fromUTF8? bytes = some text ∧ fromStr text = .error detail) ∨
      ∃ raw, Parsed fromStr bytes raw ∧ Faulty (messages formats) (Shaped formats) raw) ∧
    ∀ typeName,
      (Envelope.read (messages formats) fromStr bytes =
          .ok (.refused (.criticalType typeName)) ↔
        ∃ entries, Parsed fromStr bytes (.object entries) ∧
          Unknown (messages formats) entries typeName ∧ ∃ member, ("TYPE", member) ∈ entries) ∧
      (Envelope.read (messages formats) fromStr bytes =
          .ok (.skipped (.unknownType typeName)) ↔
        ∃ entries, Parsed fromStr bytes (.object entries) ∧
          Unknown (messages formats) entries typeName ∧
          ¬ ∃ member, ("TYPE", member) ∈ entries) := by
  refine ⟨Envelope.read_fault_iff ?_, fun typeName => Envelope.read_unknown_iff⟩
  intro object typeName htype hknown
  exact fromMap_iff hknown htype

/-! ## A member that may be left out -/

/-- An object carries the members a type requires. -/
def Required (formats : Formats φ Date) (typeName : String) (map : Json.Map φ) : Prop :=
  ∃ members, (shapes formats).lookup typeName = some members ∧
    ∀ member ∈ members, member.presence = .required → member.met Shape.takes map = true

/-- A scan of an interface that is no text. -/
def misread : Json.Map Int :=
  [("interface", .number (.int 5)), ("type", .string "scan")]

/-- A JSON reader that knows the text of that scan. -/
def misreader (text : String) : Except String (Raw Int) :=
  if text = "\x7b\"interface\":5,\"type\":\"scan\"\x7d" then .ok (Raw.ofJson (.object misread))
  else .error "expected value"

/-- A fault is not always one of the bytes, the names, the `type`, what is critical and the
members a type requires. -/
theorem not_read_faults_required :
    ¬ ∀ (fromStr : String → Except String (Raw Int)) (bytes : ByteArray),
      (∃ fault, Envelope.read (messages plainFormats) fromStr bytes = .error fault) ↔
        String.fromUTF8? bytes = none ∨
        (∃ text detail, String.fromUTF8? bytes = some text ∧ fromStr text = .error detail) ∨
        ∃ raw, Parsed fromStr bytes raw ∧
          Faulty (messages plainFormats) (Required plainFormats) raw := by
  intro hall
  let text : String := "\x7b\"interface\":5,\"type\":\"scan\"\x7d"
  have htext : String.fromUTF8? text.toByteArray = some text := Envelope.fromUTF8?_toByteArray text
  have hparsed : Parsed misreader text.toByteArray (Raw.ofJson (.object misread)) :=
    ⟨text, htext, if_pos rfl⟩
  have hkept : Envelope.Kept (.object misread) :=
    Envelope.kept_object ["interface", "type"] rfl (by decide) (by simp [misread])
  obtain ⟨hnames, hvalue⟩ := Envelope.ofJson_wellNamed hkept
  have htype : Json.get misread "type" = some (.string "scan") := rfl
  have hscan : "scan" ∈ (messages plainFormats).knownTypes := by simp [messages, knownTypes]
  have hmembers : (shapes plainFormats).lookup "scan" = some [optionalText "interface"] := rfl
  have hsame : ∀ object typeName, (Raw.ofJson (.object misread)).value = .object object →
      Json.get object "type" = some (.string typeName) → object = misread ∧ typeName = "scan" := by
    intro object typeName hobject hname
    rw [hvalue, Json.object.injEq] at hobject
    rw [← hobject, htype] at hname
    cases hname
    exact ⟨hobject.symm, rfl⟩
  have hfault : ∃ fault, Envelope.read (messages plainFormats) misreader text.toByteArray =
      .error fault := by
    refine ((read_faults plainFormats misreader _).1).mpr (.inr (.inr ⟨_, hparsed, ?_⟩))
    refine .members hvalue htype hscan fun hshaped => ?_
    obtain ⟨members, hlookup, hmet⟩ := hshaped
    rw [hmembers] at hlookup
    cases hlookup
    exact absurd (hmet _ List.mem_cons_self) (by decide)
  rcases (hall misreader text.toByteArray).mp hfault with hnone | ⟨other, _, hother, hfails⟩ |
    ⟨raw, hraw, hfaulty⟩
  · rw [htext] at hnone
    cases hnone
  · rw [htext] at hother
    cases hother
    cases hfails
  · rw [hparsed.unique hraw] at hfaulty
    cases hfaulty with
    | names hmisnamed => exact hmisnamed hnames
    | shape hshape => exact hshape _ hvalue
    | untyped hobject huntyped =>
        rw [hvalue, Json.object.injEq] at hobject
        exact huntyped "scan" (hobject ▸ htype)
    | marked hobject hname _ hmarks =>
        obtain ⟨rfl, rfl⟩ := hsame _ _ hobject hname
        exact hmarks trivial
    | members hobject hname _ hrequired =>
        obtain ⟨rfl, rfl⟩ := hsame _ _ hobject hname
        refine hrequired ⟨_, hmembers, ?_⟩
        simp [optionalText]

end Bliti.Channel.Messages
