import Bliti.Channel.Messages.Shape.Members

/-!
# The shapes of messages - types read

The reader of each type takes an object exactly where the members of the type are met.
-/

namespace Bliti.Channel.Messages

open Config (Outcome)
open Envelope (Taken)

variable {φ Date : Type} {formats : Formats φ Date}

variable {map : Json.Map φ} {name : String}

/-! ## Types read -/

/-- The reader of each type takes an object where the members of the type are met, and what it
reads is written again as they follow. -/
theorem readers_taken : List.Forall₂ (fun reader shape => reader.1 = shape.1 ∧
    ∀ map : Json.Map φ, Taken Shape.takes Shape.follows map (Message.members formats) shape.2 []
      (reader.2 map = .ok ·)) (readers formats) (shapes formats) := by
  unfold readers shapes
  refine .cons ⟨rfl, fun map => ?_⟩ ?_
  · exact .bind string_reads fun name => .bind string_reads fun version => .pure rfl
  refine .cons ⟨rfl, fun map => ?_⟩ ?_
  · exact .bind string_reads fun topic => .pure rfl
  refine .cons ⟨rfl, fun map => ?_⟩ ?_
  · exact entry_taken fun _ => rfl
  refine .cons ⟨rfl, fun map => ?_⟩ ?_
  · exact entry_taken fun _ => rfl
  refine .cons ⟨rfl, fun map => ?_⟩ ?_
  · exact .pure rfl
  refine .cons ⟨rfl, fun map => ?_⟩ ?_
  · exact .pure rfl
  refine .cons ⟨rfl, fun map => ?_⟩ ?_
  · exact .bind object_reads fun document => .bind optionalObject_reads fun capabilities =>
      .pure rfl
  refine .cons ⟨rfl, fun map => ?_⟩ ?_
  · have houtcome : ∀ rest : Outcome → Except String (Message φ Date),
        (string map "outcome" >>= fun name => Outcome.read name >>= rest) =
          ((string map "outcome" >>= Outcome.read) >>= rest) := fun _ => (bind_assoc _ _ _).symm
    refine .bind boolean_reads fun busy => ?_
    rw [houtcome]
    refine .bind outcome_reads fun outcome => .bind optionalFailure_reads fun failure => ?_
    exact .bind array_reads fun attachments => .bind optionalObject_reads fun capabilities =>
      .pure rfl
  refine .cons ⟨rfl, fun map => ?_⟩ ?_
  · exact .bind string_reads fun act => .bind string_reads fun atPath =>
      .bind string_reads fun reason => .pure rfl
  refine .cons ⟨rfl, fun map => ?_⟩ ?_
  · exact .bind string_reads fun atPath => .bind string_reads fun reason => .pure rfl
  refine .cons ⟨rfl, fun map => ?_⟩ ?_
  · exact .bind optionalString_reads fun interface => .pure rfl
  refine .cons ⟨rfl, fun map => ?_⟩ ?_
  · exact .bind optionalString_reads fun interface => .pure rfl
  refine .cons ⟨rfl, fun map => ?_⟩ ?_
  · exact .bind array_reads fun accessPoints => .pure rfl
  refine .cons ⟨rfl, fun map => ?_⟩ ?_
  · exact .bind object_reads fun spectrum => .pure rfl
  refine .cons ⟨rfl, fun map => ?_⟩ ?_
  · exact .pure rfl
  refine .cons ⟨rfl, fun map => ?_⟩ ?_
  · exact .bind strings_reads fun acts => .pure rfl
  refine .cons ⟨rfl, fun map => ?_⟩ ?_
  · exact .bind string_reads fun act => .pure rfl
  refine .cons ⟨rfl, fun map => ?_⟩ ?_
  · exact .pure rfl
  refine .cons ⟨rfl, fun map => ?_⟩ ?_
  · exact .bind string_reads fun act => .bind string_reads fun cause => .pure rfl
  refine .cons ⟨rfl, fun map => ?_⟩ ?_
  · exact .pure rfl
  refine .cons ⟨rfl, fun map => ?_⟩ ?_
  · refine .given (a := optionalValue map "document") optionalValue_reads ?_
    exact .bind optionalSpan_reads fun lasts => .bind optionalSpan_reads fun recharge =>
      .pure (by simp [Message.members])
  refine .cons ⟨rfl, fun map => ?_⟩ ?_
  · exact .bind anyMember_reads fun document => .pure rfl
  refine .cons ⟨rfl, fun map => ?_⟩ ?_
  · exact .pure rfl
  refine .cons ⟨rfl, fun map => ?_⟩ ?_
  · exact .pure rfl
  refine .cons ⟨rfl, fun map => ?_⟩ ?_
  · exact .bind strings_reads fun acts => .pure rfl
  refine .cons ⟨rfl, fun map => ?_⟩ ?_
  · refine .bind string_reads fun act => .bind optionalString_reads fun method => ?_
    refine .bind optionalString_reads fun key => .bind optionalString_reads fun name => ?_
    exact .bind optionalString_reads fun peer => .pure (by
      simp [Message.members, textMember, optionalText, Function.comp_def])
  refine .cons ⟨rfl, fun map => ?_⟩ ?_
  · exact .pure rfl
  refine .cons ⟨rfl, fun map => ?_⟩ ?_
  · exact .bind string_reads fun url => .pure rfl
  refine .cons ⟨rfl, fun map => ?_⟩ ?_
  · exact .bind object_reads fun result => .pure rfl
  refine .cons ⟨rfl, fun map => ?_⟩ ?_
  · exact .bind string_reads fun reason => .pure rfl
  refine .cons ⟨rfl, fun map => ?_⟩ ?_
  · exact .pure rfl
  refine .cons ⟨rfl, fun map => ?_⟩ ?_
  · exact .bind strings_reads fun acts => .pure rfl
  refine .cons ⟨rfl, fun map => ?_⟩ ?_
  · exact .bind string_reads fun act => .pure rfl
  refine .cons ⟨rfl, fun map => ?_⟩ ?_
  · exact .pure rfl
  refine .cons ⟨rfl, fun map => ?_⟩ ?_
  · exact .bind string_reads fun reason => .pure rfl
  refine .cons ⟨rfl, fun map => ?_⟩ ?_
  · exact .pure rfl
  refine .cons ⟨rfl, fun map => ?_⟩ ?_
  · refine .bind revision_reads fun revision => .bind built_reads fun built => ?_
    refine .bind run_reads fun run => .bind boolean_reads fun checked => ?_
    refine .bind boolean_reads fun provisioned => .bind steps_reads fun steps => ?_
    exact .bind prompts_reads fun prompts => .pure rfl
  refine .cons ⟨rfl, fun map => ?_⟩ ?_
  · refine .bind string_reads fun act => .bind optionalStrings_reads fun steps => ?_
    refine .bind optionalString_reads fun prompt => ?_
    exact .given (a := optionalValue map "value") optionalValue_reads (.pure (by
      simp [Message.members, textMember, optionalText, Function.comp_def]))
  refine .cons ⟨rfl, fun map => ?_⟩ ?_
  · exact .pure rfl
  exact .nil

/-- What is found in a list of pairs is found beside it in another of the same names. -/
theorem lookup_of_forall₂ {α β : Type} (related : α → β → Prop) {items : List (String × α)}
    {others : List (String × β)} {name : String} {a : α}
    (hall : List.Forall₂ (fun item other => item.1 = other.1 ∧ related item.2 other.2) items others)
    (hfound : items.lookup name = some a) : ∃ b, others.lookup name = some b ∧ related a b := by
  induction hall with
  | nil => cases hfound
  | cons hone _ ih =>
      obtain ⟨hname, hrelated⟩ := hone
      rw [List.lookup_cons] at hfound ⊢
      rw [← hname]
      split at hfound
      · cases hfound
        exact ⟨_, rfl, hrelated⟩
      · exact ih hfound

/-- An object is of the shape of a type. -/
def Shaped (formats : Formats φ Date) (typeName : String) (map : Json.Map φ) : Prop :=
  ∃ members, (shapes formats).lookup typeName = some members ∧
    ∀ member ∈ members, member.met Shape.takes map = true

/-- The types both ends know are those there are readers for. -/
theorem knownTypes_eq (formats : Formats φ Date) : knownTypes = (readers formats).map Prod.fst :=
  rfl

/-- There is a reader for a type that is known. -/
theorem reader_of_known (formats : Formats φ Date) {typeName : String}
    (hknown : typeName ∈ knownTypes) :
    ∃ read, (readers formats).lookup typeName = some read := by
  obtain ⟨reader, hreader, hname⟩ := List.mem_map.mp (knownTypes_eq formats ▸ hknown)
  exact Option.isSome_iff_exists.mp (List.lookup_isSome_iff.mpr ⟨reader, hreader, by simp [hname]⟩)

/-- A message of a type that is known is read of an object where the members of the type are met,
and written again as they follow. -/
theorem fromMap_taken (formats : Formats φ Date) {typeName : String} (hknown : typeName ∈ knownTypes)
    (htype : Json.get map "type" = some (.string typeName)) :
    ∃ members, (shapes formats).lookup typeName = some members ∧
      Taken Shape.takes Shape.follows map (Message.members formats) members []
        (Message.fromMap formats map = .ok ·) := by
  obtain ⟨read, hread⟩ := reader_of_known formats hknown
  obtain ⟨members, hmembers, htaken⟩ := lookup_of_forall₂ (fun read members => ∀ map, Taken
    Shape.takes Shape.follows map (Message.members formats) members [] (read map = .ok ·))
    readers_taken hread
  have hfromMap : Message.fromMap formats map = read map := by
    unfold Message.fromMap
    rw [htype]
    simp only [Json.asStr, Option.bind_some, hread]
  rw [hfromMap]
  exact ⟨members, hmembers, htaken map⟩

/-- A message is read of an object of a type that is known exactly where the object is of its
shape. -/
theorem fromMap_iff {typeName : String} (hknown : typeName ∈ knownTypes)
    (htype : Json.get map "type" = some (.string typeName)) :
    (∃ message, Message.fromMap formats map = .ok message) ↔ Shaped formats typeName map := by
  obtain ⟨members, hmembers, htaken⟩ := fromMap_taken formats hknown htype
  rw [htaken.succeeds, Shaped, hmembers]
  simp

end Bliti.Channel.Messages
