import Bliti.Channel.Envelope.Names
import Bliti.Channel.Messages.ReadBack

/-!
# The message set - messages of their types

A message read of an object is of the type the object names, and what it carries of raw
JSON is what the object holds.
-/

namespace Bliti.Channel.Messages

open Fallible (Yields yields_bind yields_pure)

variable {φ Date : Type} {formats : Formats φ Date}

/-! ## Types -/

/-- The reader of a type reads messages of that type. -/
theorem typeName_of_readers : ∀ entry ∈ readers formats, ∀ map : Json.Map φ,
    Yields (fun message => message.typeName = entry.1) (entry.2 map) := by
  unfold readers
  repeat' rw [List.forall_mem_cons]
  simp only [List.not_mem_nil, false_imp_iff, implies_true, and_true]
  -- One reader after another: whatever it reads of the members, it ends with its own message.
  repeat' apply And.intro
  all_goals
    intro map
    repeat
      apply yields_bind
      intro _ _
    exact yields_pure rfl

variable {map : Json.Map φ} {message : Message φ Date}

/-- What is found in a list of pairs is one of them. -/
theorem mem_of_lookup {α : Type} {items : List (String × α)} {name : String} {a : α}
    (hfound : items.lookup name = some a) : (name, a) ∈ items := by
  induction items with
  | nil => cases hfound
  | cons item rest ih =>
      obtain ⟨other, held⟩ := item
      rw [List.lookup_cons] at hfound
      split at hfound
      · rename_i hsame
        cases hfound
        rw [beq_iff_eq.mp hsame]
        exact List.mem_cons_self
      · exact List.mem_cons_of_mem _ (ih hfound)

namespace Message

/-- A message read of an object is of the type the object names, read by its reader. -/
theorem reader_of_fromMap (hread : fromMap formats map = .ok message) :
    Json.get map "type" = some (.string message.typeName) ∧
      ∃ read, (readers formats).lookup message.typeName = some read ∧ read map = .ok message := by
  unfold fromMap at hread
  split at hread
  · cases hread
  · rename_i typeName htype
    obtain ⟨value, hget, htext⟩ := Option.bind_eq_some_iff.mp htype
    split at hread
    · rename_i read hlookup
      have hname : message.typeName = typeName :=
        (typeName_of_readers _ (mem_of_lookup hlookup) map).of_ok _ hread
      cases value with
      | string text =>
          cases htext
          rw [hname]
          exact ⟨hget, read, hlookup, hread⟩
      | _ => cases htext
    · cases hread

/-! ## Capabilities -/

/-- The capabilities a message carries. -/
def capabilities : Message φ Date → Option (Json.Map φ)
  | configuration _ capabilities => capabilities
  | state _ _ _ _ capabilities => capabilities
  | _ => none

/-- A message that carries capabilities carries no numbers, dates or prompts. -/
theorem carries_nothing_else {offered : Json.Map φ} (hoffered : message.capabilities = some offered) :
    message.doubles = [] ∧ message.payloads = [] ∧ message.dates = [] ∧ message.kinds = [] := by
  cases message with
  | configuration document capabilities => exact ⟨rfl, rfl, rfl, rfl⟩
  | state busy outcome failure attachments capabilities => exact ⟨rfl, rfl, rfl, rfl⟩
  | _ => cases hoffered

/-- An object read that may be left out is one its object holds. -/
theorem get_of_optionalObject {name : String} {object : Json.Map φ}
    (hread : optionalObject map name = .ok (some object)) :
    Json.get map name = some (.object object) := by
  rcases Config.optionalMember_cases hread with ⟨hnone, -⟩ | ⟨value, found, hget, -, hobject, hsame⟩
  · cases hnone
  · cases value with
    | object members =>
        cases hobject
        cases hsame
        exact hget
    | _ => cases hobject

/-- The capabilities a message read of an object carries are those the object holds. -/
theorem capabilities_of_fromMap (hread : fromMap formats map = .ok message)
    {offered : Json.Map φ} (hoffered : message.capabilities = some offered) :
    Json.get map "capabilities" = some (.object offered) := by
  obtain ⟨-, read, hlookup, hread⟩ := reader_of_fromMap hread
  cases message with
  | configuration document capabilities =>
      cases hlookup
      obtain ⟨_, _, hread⟩ := Fallible.bind_ok.mp hread
      obtain ⟨held, hcapabilities, hread⟩ := Fallible.bind_ok.mp hread
      cases hread
      exact get_of_optionalObject (hcapabilities.trans (congrArg _ hoffered))
  | state busy outcome failure attachments capabilities =>
      cases hlookup
      obtain ⟨_, _, hread⟩ := Fallible.bind_ok.mp hread
      obtain ⟨_, _, hread⟩ := Fallible.bind_ok.mp hread
      obtain ⟨_, _, hread⟩ := Fallible.bind_ok.mp hread
      obtain ⟨_, _, hread⟩ := Fallible.bind_ok.mp hread
      obtain ⟨_, _, hread⟩ := Fallible.bind_ok.mp hread
      obtain ⟨held, hcapabilities, hread⟩ := Fallible.bind_ok.mp hread
      cases hread
      exact get_of_optionalObject (hcapabilities.trans (congrArg _ hoffered))
  | _ => cases hoffered

/-- The capabilities of a message read have plain names alone. -/
theorem plain_capabilities {raw : Envelope.Raw φ}
    (hread : Envelope.readRaw (messages formats) raw = .ok (.message message))
    {offered : Json.Map φ} (hoffered : message.capabilities = some offered) :
    (Json.object offered).EveryObject Envelope.AllPlain := by
  obtain ⟨object, hplain, hback⟩ := Envelope.message_of_readRaw hread
  have hget : Json.get object "capabilities" = some (.object offered) :=
    capabilities_of_fromMap hback hoffered
  exact (Json.everyObject_object.mp hplain).2 _ (Json.mem_of_get hget)

end Message

end Bliti.Channel.Messages
