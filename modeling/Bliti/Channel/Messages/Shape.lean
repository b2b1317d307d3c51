import Bliti.Channel.Envelope.Shape
import Bliti.Channel.Messages.ReadBack

/-!
# The message set - the shapes of messages

What a message of each type is to carry: its members, whether each is to be there, and what
it is to hold.
-/

namespace Bliti.Channel.Messages

open Config (Failure Outcome)
open Envelope (Member Reads Taken)
open Readings (Entry)
open Report

variable {φ Date : Type} {formats : Formats φ Date}

/-! ## Values -/

/-- A text. -/
def isText (value : Json φ) : Bool :=
  value.asStr.isSome

/-- One of some texts. -/
def isOneOf (texts : List String) (value : Json φ) : Bool :=
  value.asStr.any texts.contains

/-- An array of texts. -/
def isTexts : Json φ → Bool
  | .array items => items.all isText
  | _ => false

/-- A truth value. -/
def isTruth : Json φ → Bool
  | .bool _ => true
  | _ => false

/-- A number. -/
def isNumber : Json φ → Bool
  | .number _ => true
  | _ => false

/-- A whole number below a bound. -/
def isBelow (bound : Int) : Json φ → Bool
  | .number (.int i) => 0 ≤ i && i < bound
  | _ => false

/-- An array. -/
def isArray : Json φ → Bool
  | .array _ => true
  | _ => false

/-- A date. -/
def isDate (formats : Formats φ Date) (value : Json φ) : Bool :=
  (value.asStr.bind formats.readDate).isSome

/-- What a member of a message holds: a value kept whole or with nothing below it, an object read
part by part, or an array of such objects, each perhaps as its parts in order. -/
inductive Shape (φ : Type) where
  | whole (takes : Json φ → Bool)
  | object (parts : List (Member (Json φ → Bool)))
  | records (parts : List (Member (Json φ → Bool)))

/-- An object has the parts it is to. -/
def partsMet (parts : List (Member (Json φ → Bool))) (object : Json.Map φ) : Bool :=
  parts.all fun part => part.met (fun takes => takes) object

/-- Whether a value is of a shape. -/
def Shape.takes : Shape φ → Json φ → Bool
  | .whole takes, value => takes value
  | .object parts, .object held => partsMet parts held
  | .records parts, .array items => items.all fun item =>
      (fields (parts.map Member.name) item).any (partsMet parts)
  | _, _ => false

/-- What a value with nothing read below it is written again as: itself, where anything is below
it. -/
def wholeFollows (value again : Json φ) : Prop :=
  again = value ∨ value.isScalar = true

/-- What an object read part by part is written again as: another, each part as it follows. -/
def partsFollow (parts : List (Member (Json φ → Bool))) (value again : Json φ) : Prop :=
  ∃ round, again = .object round ∧ ∀ held, value = .object held →
    ∀ part ∈ parts, part.Follows (fun _ => wholeFollows) held (Json.get round part.name)

/-- What a value of a shape is written again as. -/
def Shape.follows : Shape φ → Json φ → Json φ → Prop
  | .whole _, value, again => wholeFollows value again
  | .object parts, value, again => partsFollow parts value again
  | .records parts, value, again => ∃ items rounds, value = .array items ∧
      again = .array rounds ∧ List.Forall₂ (partsFollow parts) items rounds

/-! ## Types -/

/-- The parts of a failure. -/
def failureParts : List (Member (Json φ → Bool)) := [
  ⟨"at", .required, isText⟩,
  ⟨"reason", .required, isText⟩,
  ⟨"reached", .optional, isText⟩]

/-- The parts of a time. -/
def spanParts : List (Member (Json φ → Bool)) := [
  ⟨"duration", .required, isNumber⟩,
  ⟨"margin", .required, isNumber⟩]

/-- The parts of a step. -/
def stepParts : List (Member (Json φ → Bool)) := [
  ⟨"id", .required, isText⟩,
  ⟨"title", .required, isText⟩,
  ⟨"done", .required, isOneOf ["done", "not-done", "unknown"]⟩,
  ⟨"why", .optional, isText⟩,
  ⟨"state", .required, isOneOf ["unchosen", "pending", "running", "waiting", "passed", "failed"]⟩,
  ⟨"progress", .optional, isNumber⟩,
  ⟨"reason", .optional, isText⟩,
  ⟨"result", .optional, Json.isObject⟩]

/-- The parts of a prompt. -/
def promptParts : List (Member (Json φ → Bool)) := [
  ⟨"id", .required, isText⟩,
  ⟨"step", .required, isText⟩,
  ⟨"kind", .required, isText⟩,
  ⟨"text", .required, isText⟩,
  ⟨"blocking", .required, isTruth⟩,
  ⟨"default", .optional, isText⟩]

/-- The members of an entry, named by one of them. -/
def entryMembers (nameMember : String) : List (Member (Shape φ)) := [
  ⟨"at", .required, .whole (isBelow 18446744073709551616)⟩,
  ⟨nameMember, .required, .whole isText⟩,
  ⟨"traits", .required, .whole Json.isObject⟩,
  ⟨"kind", .required, .whole isText⟩,
  ⟨"unit", .optional, .whole isText⟩,
  ⟨"value", .free, .whole fun _ => true⟩]

/-- A text that is to be there. -/
def textMember (name : String) : Member (Shape φ) :=
  ⟨name, .required, .whole isText⟩

/-- A text that may be left out. -/
def optionalText (name : String) : Member (Shape φ) :=
  ⟨name, .optional, .whole isText⟩

/-- Texts that are to be there. -/
def textsMember (name : String) : Member (Shape φ) :=
  ⟨name, .required, .whole isTexts⟩

/-- An object that is to be there. -/
def objectMember (name : String) : Member (Shape φ) :=
  ⟨name, .required, .whole Json.isObject⟩

/-- The members of each type beside its `type`. -/
def shapes (formats : Formats φ Date) : List (String × List (Member (Shape φ))) := [
  ("hello", [textMember "name", textMember "version"]),
  ("subscribe", [textMember "topic"]),
  ("fact", entryMembers "fact"),
  ("reading", entryMembers "measurement"),
  ("end-of-batch", []),
  ("configure", []),
  ("configuration", [objectMember "document",
    ⟨"capabilities", .optional, .whole Json.isObject⟩]),
  ("state", [⟨"busy", .required, .whole isTruth⟩,
    ⟨"outcome", .required, .whole (isOneOf ["verifying", "applied", "failed"])⟩,
    ⟨"failure", .optional, .object failureParts⟩,
    ⟨"attachments", .required, .whole isArray⟩,
    ⟨"capabilities", .optional, .whole Json.isObject⟩]),
  ("cannot-act", [textMember "act", textMember "at", textMember "reason"]),
  ("cannot-configure", [textMember "at", textMember "reason"]),
  ("scan", [optionalText "interface"]),
  ("survey", [optionalText "interface"]),
  ("networks", [⟨"access-points", .required, .whole isArray⟩]),
  ("spectrum", [objectMember "spectrum"]),
  ("power", []),
  ("acts", [textsMember "acts"]),
  ("act", [textMember "act"]),
  ("accepted", []),
  ("going-away", [textMember "act", textMember "cause"]),
  ("curve", []),
  ("curves", [⟨"document", .optional, .whole fun _ => true⟩,
    ⟨"lasts", .optional, .object spanParts⟩,
    ⟨"recharge", .optional, .object spanParts⟩]),
  ("load", [⟨"document", .required, .whole fun _ => true⟩]),
  ("reset", []),
  ("tailscale", []),
  ("tailscale-acts", [textsMember "acts"]),
  ("tailscale-act", [textMember "act", optionalText "method", optionalText "key",
    optionalText "name", optionalText "peer"]),
  ("tailscale-accepted", []),
  ("tailscale-login-link", [textMember "url"]),
  ("tailscale-result", [objectMember "result"]),
  ("tailscale-failed", [textMember "reason"]),
  ("tamanu", []),
  ("tamanu-acts", [textsMember "acts"]),
  ("tamanu-act", [textMember "act"]),
  ("tamanu-accepted", []),
  ("tamanu-failed", [textMember "reason"]),
  ("provision", []),
  ("provision-state", [⟨"revision", .required, .whole (isBelow 4294967296)⟩,
    ⟨"built", .required, .whole (isDate formats)⟩,
    ⟨"run", .required, .whole (isOneOf ["idle", "running", "waiting", "failed", "finished"])⟩,
    ⟨"checked", .required, .whole isTruth⟩,
    ⟨"provisioned", .required, .whole isTruth⟩,
    ⟨"steps", .required, .records stepParts⟩,
    ⟨"prompts", .required, .records promptParts⟩]),
  ("provision-act", [textMember "act", ⟨"steps", .optional, .whole isTexts⟩,
    optionalText "prompt", ⟨"value", .optional, .whole fun _ => true⟩]),
  ("provision-accepted", [])]

end Bliti.Channel.Messages
