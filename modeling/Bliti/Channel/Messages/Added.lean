import Bliti.Channel.Envelope.Added
import Bliti.Channel.Messages.Shape.Types
import Bliti.Channel.Messages.Typed
import Bliti.Channel.Messages.Written

/-!
# The message set - members added

A message with members added to it that its type does not define, in the message itself and
in the objects its type reads part by part.  What reads a type looks up the members it
defines and no others, and what it writes again carries no others, so members in lower case
change nothing; one in upper case is refused.

Main results:

- Theorem `read_added`: a message with members added is read as the same message, and is
  refused where one is added in upper case.
-/

namespace Bliti.Channel.Messages

open Config (Failure Outcome)
open Envelope (Beside Clear HeldTo Member Parsed Raw)
open Message (plainFormats)
open Readings (Entry)
open Report

variable {φ Date : Type} {formats : Formats φ Date} {pinned : Prop}
  {parts : List (Member (Json φ → Bool))} {members : List (Member (Shape φ))}

/-! ## Members added -/

/-- An object read part by part, with members added that are none of its parts. -/
def PartsAdded (pinned : Prop) (parts : List (Member (Json φ → Bool))) (raw other : Raw φ) : Prop :=
  other = raw ∨ ∃ entries others, raw = .object entries ∧ other = .object others ∧
    Beside (parts.map Member.name) pinned (fun _ raw other => other = raw) entries others

/-- A value of a shape, with members added to the objects read part by part. -/
def Shape.Added (pinned : Prop) : Shape φ → Raw φ → Raw φ → Prop
  | .whole _, raw, other => other = raw
  | .object parts, raw, other => PartsAdded pinned parts raw other
  | .records parts, raw, other => other = raw ∨ ∃ items others, raw = .array items ∧
      other = .array others ∧ List.Forall₂ (PartsAdded pinned parts) items others

/-- A member of a message, with members added within it where its type says what it holds. -/
def Within (pinned : Prop) (members : List (Member (Shape φ))) (name : String)
    (raw other : Raw φ) : Prop :=
  (∀ member ∈ members, member.name = name → member.content.Added pinned raw other) ∧
    (name ∉ members.map Member.name → other = raw)

/-- The names a message of a type may carry. -/
def names (members : List (Member (Shape φ))) : List String :=
  "type" :: members.map Member.name

/-- A message of a type with members in lower case added that the type does not define; where
what is critical on the type is pinned, they hold nothing in upper case. -/
def Added (formats : Formats φ Date) (typeName : String) (raw other : Raw φ) : Prop :=
  ∃ members entries others, (shapes formats).lookup typeName = some members ∧
    raw = .object entries ∧ other = .object others ∧
    Beside (names members) (criticality typeName ≠ .unconstrained)
      (Within (criticality typeName ≠ .unconstrained) members) entries others

/-! ## Objects alike in what is defined -/

/-- Two values are objects alike in some parts, or the same. -/
def PartsAlike (parts : List (Member (Json φ → Bool))) (value other : Json φ) : Prop :=
  other = value ∨ ∃ held again, value = .object held ∧ other = .object again ∧
    ∀ name ∈ parts.map Member.name, Json.get again name = Json.get held name

/-- Two values are alike in what their shape defines. -/
def Shape.Alike : Shape φ → Json φ → Json φ → Prop
  | .whole _, value, other => other = value
  | .object parts, value, other => PartsAlike parts value other
  | .records parts, value, other => other = value ∨ ∃ items others, value = .array items ∧
      other = .array others ∧ List.Forall₂ (PartsAlike parts) items others

/-- Two members are alike: neither is there, or both are, alike in what their shape defines. -/
def Shape.AlikeAt (shape : Shape φ) (found again : Option (Json φ)) : Prop :=
  (found = none ∧ again = none) ∨
    ∃ value other, found = some value ∧ again = some other ∧ shape.Alike value other

/-- Two objects are alike in some members. -/
def Alike : List (Member (Shape φ)) → Json.Map φ → Json.Map φ → Prop
  | [], _, _ => True
  | member :: rest, map, again =>
      member.content.AlikeAt (Json.get map member.name) (Json.get again member.name) ∧
        Alike rest map again

/-- Two objects are alike where they are in each member. -/
theorem alike_of_forall {map again : Json.Map φ}
    (hall : ∀ member ∈ members,
      member.content.AlikeAt (Json.get map member.name) (Json.get again member.name)) :
    Alike members map again := by
  induction members with
  | nil => exact trivial
  | cons member rest ih =>
      rw [List.forall_mem_cons] at hall
      exact ⟨hall.1, ih hall.2⟩

/-- An object with members added is alike in its parts. -/
theorem PartsAdded.alike {raw other : Raw φ} (hadded : PartsAdded pinned parts raw other)
    (hnames : raw.WellNamed) (hothers : other.WellNamed) :
    PartsAlike parts raw.value other.value := by
  rcases hadded with rfl | ⟨entries, others, rfl, rfl, hbeside⟩
  · exact .inl rfl
  · rw [Raw.value, Raw.value]
    refine .inr ⟨_, _, rfl, rfl, fun name hname => ?_⟩
    rcases hbeside.get hnames hothers hname with ⟨hnone, hnone'⟩ |
      ⟨raw, other, hraw, hother, -, -, rfl⟩
    · rw [hnone, hnone']
    · rw [hraw, hother]

/-- The items of an array of well-formed names have them. -/
theorem wellNamed_of_mem {items : List (Raw φ)} {item : Raw φ}
    (hnames : (Raw.array items).WellNamed) (hitem : item ∈ items) : item.WellNamed := by
  rw [Raw.WellNamed] at hnames
  induction items with
  | nil => cases hitem
  | cons first rest ih =>
      rw [Envelope.ItemsWellNamed] at hnames
      rcases List.mem_cons.mp hitem with rfl | hrest
      · exact hnames.1
      · exact ih hnames.2 hrest

/-- A value with members added is alike in what its shape defines. -/
theorem Shape.Added.alike {shape : Shape φ} {raw other : Raw φ}
    (hadded : shape.Added pinned raw other) (hnames : raw.WellNamed) (hothers : other.WellNamed) :
    shape.Alike raw.value other.value := by
  cases shape with
  | whole takes =>
      rw [Shape.Added] at hadded
      rw [hadded]
      exact rfl
  | object parts => exact PartsAdded.alike hadded hnames hothers
  | records parts =>
      rcases hadded with rfl | ⟨items, others, rfl, rfl, hall⟩
      · exact .inl rfl
      · rw [Raw.value, Raw.value, Envelope.itemsValue_eq, Envelope.itemsValue_eq]
        refine .inr ⟨_, _, rfl, rfl, ?_⟩
        rw [List.forall₂_map_left_iff, List.forall₂_map_right_iff]
        refine List.forall₂_iff_get.mpr ⟨hall.length_eq, fun i hi hi' => ?_⟩
        exact (hall.get hi hi').alike (wellNamed_of_mem hnames (List.get_mem items ⟨i, hi⟩))
          (wellNamed_of_mem hothers (List.get_mem others ⟨i, hi'⟩))

theorem alike_of_beside {entries others : List (String × Raw φ)}
    (hbeside : Beside (names members) pinned (Within pinned members) entries others)
    (hnames : (Raw.object entries).WellNamed) (hothers : (Raw.object others).WellNamed) :
    Alike members (Json.collect (Envelope.entriesValue entries))
      (Json.collect (Envelope.entriesValue others)) := by
  refine alike_of_forall fun member hmember => ?_
  have hname : member.name ∈ names members :=
    List.mem_cons_of_mem _ (List.mem_map.mpr ⟨member, hmember, rfl⟩)
  rcases hbeside.get hnames hothers hname with hneither |
    ⟨raw, other, hraw, hother, hwell, hwellOther, hwithin, -⟩
  · exact .inl hneither
  · exact .inr ⟨_, _, hraw, hother, (hwithin member hmember rfl).alike hwell hwellOther⟩

/-! ## What is read of objects alike -/

/-- What one reading returns, another does. -/
def Keeps {α : Type} (x y : Except String α) : Prop :=
  ∀ a, x = .ok a → y = .ok a

namespace Keeps

variable {α β : Type} {x y : Except String α} {f g : α → Except String β}

theorem refl : Keeps x x :=
  fun _ hx => hx

theorem of_eq (hsame : y = x) : Keeps x y := by
  rw [hsame]
  exact refl

/-- One reading after another is kept where both are. -/
theorem bind (hone : Keeps x y) (hlater : ∀ a, Keeps (f a) (g a)) : Keeps (x >>= f) (y >>= g) := by
  intro b hb
  obtain ⟨a, ha, hf⟩ := Fallible.bind_ok.mp hb
  exact Fallible.bind_ok.mpr ⟨a, hone a ha, hlater a b hf⟩

end Keeps

variable {map again : Json.Map φ} {name : String} {takes : Json φ → Bool}

/-- Members kept whole that are alike are the same. -/
theorem Shape.AlikeAt.whole {found other : Option (Json φ)}
    (halike : (Shape.whole takes).AlikeAt found other) : other = found := by
  rcases halike with ⟨rfl, rfl⟩ | ⟨value, other, rfl, rfl, hsame⟩
  · rfl
  · rw [show other = value from hsame]

variable (hwhole : (Shape.whole takes).AlikeAt (Json.get map name) (Json.get again name))

include hwhole

theorem member_keeps {α : Type} {what : String} {read : Json φ → Option α} :
    Keeps (member map name what read) (member again name what read) := by
  unfold member
  rw [hwhole.whole]
  exact .refl

theorem optional_keeps {α : Type} {what : String} {read : Json φ → Option α} :
    Keeps (optional map name what read) (optional again name what read) := by
  unfold optional Config.optionalMember
  rw [hwhole.whole]
  exact .refl

theorem strings_keeps : Keeps (strings map name) (strings again name) :=
  (member_keeps hwhole).bind fun _ => .refl

theorem optionalStrings_keeps : Keeps (optionalStrings map name) (optionalStrings again name) := by
  unfold optionalStrings strings array member
  rw [hwhole.whole]
  exact .refl

theorem optionalValue_alike : optionalValue again name = optionalValue map name := by
  unfold optionalValue
  rw [hwhole.whole]

theorem fromMember_keeps {α : Type} {read : Json φ → Option α} :
    Keeps (fromMember formats map name read) (fromMember formats again name read) := by
  unfold fromMember
  rw [hwhole.whole]
  exact .refl

omit hwhole

/-- A failure is read of its three members. -/
theorem failure_read_alike {held again : Json.Map φ}
    (hget : ∀ name ∈ (failureParts (φ := φ)).map Member.name,
      Json.get again name = Json.get held name) : Failure.read again = Failure.read held := by
  unfold Failure.read Failure.readString
  rw [hget "at" (by simp [failureParts]), hget "reason" (by simp [failureParts]),
    hget "reached" (by simp [failureParts])]

/-- A number of a time is read of its own member. -/
theorem seconds_alike {held again : Json.Map φ} {part : String}
    (hget : ∀ name ∈ (spanParts (φ := φ)).map Member.name,
      Json.get again name = Json.get held name)
    (hpart : part ∈ (spanParts (φ := φ)).map Member.name) :
    seconds formats name again part = seconds formats name held part := by
  unfold seconds
  rw [hget part hpart]

theorem optionalFailure_keeps
    (halike : (Shape.object failureParts).AlikeAt (Json.get map name) (Json.get again name)) :
    Keeps (optionalFailure map name) (optionalFailure again name) := by
  refine .of_eq ?_
  unfold optionalFailure optionalObject optional Config.optionalMember
  rcases halike with ⟨hnone, hnone'⟩ | ⟨value, other, hvalue, hother, hparts⟩
  · rw [hnone, hnone']
  · rw [hvalue, hother]
    rcases hparts with rfl | ⟨held, again, rfl, rfl, hget⟩
    · rfl
    · exact congrArg (Except.map some) (failure_read_alike hget)

theorem optionalSpan_keeps
    (halike : (Shape.object spanParts).AlikeAt (Json.get map name) (Json.get again name)) :
    Keeps (optionalSpan formats map name) (optionalSpan formats again name) := by
  refine .of_eq ?_
  unfold optionalSpan optionalObject optional Config.optionalMember
  rcases halike with ⟨hnone, hnone'⟩ | ⟨value, other, hvalue, hother, hparts⟩
  · rw [hnone, hnone']
  · rw [hvalue, hother]
    rcases hparts with rfl | ⟨held, again, rfl, rfl, hget⟩
    · rfl
    · simp only [Json.asObject, Fallible.ok_bind]
      rw [seconds_alike hget (by simp [spanParts]), seconds_alike hget (by simp [spanParts])]

/-- A step is read of the members it has. -/
theorem step_read_alike {ofInt : Int → φ} {value other : Json φ}
    (halike : PartsAlike stepParts value other) :
    StepReport.read ofInt other = StepReport.read ofInt value := by
  rcases halike with rfl | ⟨held, again, rfl, rfl, hget⟩
  · rfl
  · unfold StepReport.read requiredField optionalField
    simp only [fields, Option.bind_eq_bind, Option.bind_some]
    rw [hget "id" (by simp [stepParts]), hget "title" (by simp [stepParts]),
      hget "done" (by simp [stepParts]), hget "why" (by simp [stepParts]),
      hget "state" (by simp [stepParts]), hget "progress" (by simp [stepParts]),
      hget "reason" (by simp [stepParts]), hget "result" (by simp [stepParts])]

/-- A prompt is read of the members it has. -/
theorem prompt_read_alike {value other : Json φ} (halike : PartsAlike promptParts value other) :
    PromptReport.read other = PromptReport.read value := by
  rcases halike with rfl | ⟨held, again, rfl, rfl, hget⟩
  · rfl
  · unfold PromptReport.read requiredField optionalField
    simp only [fields, Option.bind_eq_bind, Option.bind_some]
    rw [hget "id" (by simp [promptParts]), hget "step" (by simp [promptParts]),
      hget "kind" (by simp [promptParts]), hget "text" (by simp [promptParts]),
      hget "blocking" (by simp [promptParts]), hget "default" (by simp [promptParts])]

/-- Records are read one by one. -/
theorem records_keeps {α : Type} {read : Json φ → Option α}
    (hread : ∀ value other, PartsAlike parts value other → read other = read value)
    (halike : (Shape.records parts).AlikeAt (Json.get map name) (Json.get again name)) :
    Keeps (fromMember formats map name fun value => (asArray value).bind fun items =>
        items.mapM read)
      (fromMember formats again name fun value => (asArray value).bind fun items =>
        items.mapM read) := by
  unfold fromMember
  rcases halike with ⟨hnone, hnone'⟩ | ⟨value, other, hvalue, hother, hparts⟩
  · rw [hnone, hnone']
    exact .refl
  · rw [hvalue, hother]
    rcases hparts with rfl | ⟨items, others, rfl, rfl, hall⟩
    · exact .refl
    · have hsame : others.mapM read = items.mapM read := by
        clear hvalue hother
        induction hall with
        | nil => rfl
        | cons hone _ ih => rw [List.mapM_cons, List.mapM_cons, hread _ _ hone, ih]
      simp only [asArray, Option.bind_some, hsame]
      intro found hfound
      cases hitems : items.mapM read with
      | none =>
          rw [hitems] at hfound
          cases hfound
      | some records =>
          rw [hitems] at hfound
          exact hfound

theorem entry_keeps {nameMember : String}
    (halike : Alike (entryMembers nameMember) map again) :
    Keeps (Entry.readFrom nameMember map) (Entry.readFrom nameMember again) := by
  obtain ⟨hat, hname, htraits, hkind, hunit, hvalue, -⟩ := halike
  have hsame : ∀ {takes : Json φ → Bool} {member : String},
      (Shape.whole takes).AlikeAt (Json.get map member) (Json.get again member) →
      Json.get again member = Json.get map member := fun h => h.whole
  refine .of_eq ?_
  unfold Entry.readFrom Entry.required Config.optionalMember
  rw [hsame hat, hsame hname, hsame htraits, hsame hkind, hsame hunit, hsame hvalue]

/-- What the reader of each type reads of an object it reads of any alike in the members of the
type. -/
theorem readers_alike : List.Forall₂ (fun reader shape => reader.1 = shape.1 ∧
    ∀ map again : Json.Map φ, Alike shape.2 map again → Keeps (reader.2 map) (reader.2 again))
    (readers formats) (shapes formats) := by
  unfold readers shapes
  refine .cons ⟨rfl, fun map again h => ?_⟩ ?_
  · obtain ⟨hname, hversion, -⟩ := h
    exact (member_keeps hname).bind fun _ => (member_keeps hversion).bind fun _ => .refl
  refine .cons ⟨rfl, fun map again h => ?_⟩ ?_
  · exact (member_keeps h.1).bind fun _ => .refl
  refine .cons ⟨rfl, fun map again h => ?_⟩ ?_
  · exact (entry_keeps h).bind fun _ => .refl
  refine .cons ⟨rfl, fun map again h => ?_⟩ ?_
  · exact (entry_keeps h).bind fun _ => .refl
  refine .cons ⟨rfl, fun _ _ _ => .refl⟩ ?_
  refine .cons ⟨rfl, fun _ _ _ => .refl⟩ ?_
  refine .cons ⟨rfl, fun map again h => ?_⟩ ?_
  · obtain ⟨hdocument, hcapabilities, -⟩ := h
    exact (member_keeps hdocument).bind fun _ => (optional_keeps hcapabilities).bind fun _ => .refl
  refine .cons ⟨rfl, fun map again h => ?_⟩ ?_
  · obtain ⟨hbusy, houtcome, hfailure, hattachments, hcapabilities, -⟩ := h
    refine (member_keeps hbusy).bind fun _ => (member_keeps houtcome).bind fun _ => ?_
    refine Keeps.refl.bind fun _ => (optionalFailure_keeps hfailure).bind fun _ => ?_
    exact (member_keeps hattachments).bind fun _ => (optional_keeps hcapabilities).bind fun _ =>
      .refl
  refine .cons ⟨rfl, fun map again h => ?_⟩ ?_
  · obtain ⟨hact, hat, hreason, -⟩ := h
    exact (member_keeps hact).bind fun _ => (member_keeps hat).bind fun _ =>
      (member_keeps hreason).bind fun _ => .refl
  refine .cons ⟨rfl, fun map again h => ?_⟩ ?_
  · obtain ⟨hat, hreason, -⟩ := h
    exact (member_keeps hat).bind fun _ => (member_keeps hreason).bind fun _ => .refl
  refine .cons ⟨rfl, fun map again h => ?_⟩ ?_
  · exact (optional_keeps h.1).bind fun _ => .refl
  refine .cons ⟨rfl, fun map again h => ?_⟩ ?_
  · exact (optional_keeps h.1).bind fun _ => .refl
  refine .cons ⟨rfl, fun map again h => ?_⟩ ?_
  · exact (member_keeps h.1).bind fun _ => .refl
  refine .cons ⟨rfl, fun map again h => ?_⟩ ?_
  · exact (member_keeps h.1).bind fun _ => .refl
  refine .cons ⟨rfl, fun _ _ _ => .refl⟩ ?_
  refine .cons ⟨rfl, fun map again h => ?_⟩ ?_
  · exact (strings_keeps h.1).bind fun _ => .refl
  refine .cons ⟨rfl, fun map again h => ?_⟩ ?_
  · exact (member_keeps h.1).bind fun _ => .refl
  refine .cons ⟨rfl, fun _ _ _ => .refl⟩ ?_
  refine .cons ⟨rfl, fun map again h => ?_⟩ ?_
  · obtain ⟨hact, hcause, -⟩ := h
    exact (member_keeps hact).bind fun _ => (member_keeps hcause).bind fun _ => .refl
  refine .cons ⟨rfl, fun _ _ _ => .refl⟩ ?_
  refine .cons ⟨rfl, fun map again h => ?_⟩ ?_
  · obtain ⟨hdocument, hlasts, hrecharge, -⟩ := h
    refine (optionalSpan_keeps hlasts).bind fun _ => (optionalSpan_keeps hrecharge).bind fun _ => ?_
    exact .of_eq (by rw [optionalValue_alike hdocument])
  refine .cons ⟨rfl, fun map again h => ?_⟩ ?_
  · exact (member_keeps h.1).bind fun _ => .refl
  refine .cons ⟨rfl, fun _ _ _ => .refl⟩ ?_
  refine .cons ⟨rfl, fun _ _ _ => .refl⟩ ?_
  refine .cons ⟨rfl, fun map again h => ?_⟩ ?_
  · exact (strings_keeps h.1).bind fun _ => .refl
  refine .cons ⟨rfl, fun map again h => ?_⟩ ?_
  · obtain ⟨hact, hmethod, hkey, hname, hpeer, -⟩ := h
    refine (member_keeps hact).bind fun _ => (optional_keeps hmethod).bind fun _ => ?_
    refine (optional_keeps hkey).bind fun _ => (optional_keeps hname).bind fun _ => ?_
    exact (optional_keeps hpeer).bind fun _ => .refl
  refine .cons ⟨rfl, fun _ _ _ => .refl⟩ ?_
  refine .cons ⟨rfl, fun map again h => ?_⟩ ?_
  · exact (member_keeps h.1).bind fun _ => .refl
  refine .cons ⟨rfl, fun map again h => ?_⟩ ?_
  · exact (member_keeps h.1).bind fun _ => .refl
  refine .cons ⟨rfl, fun map again h => ?_⟩ ?_
  · exact (member_keeps h.1).bind fun _ => .refl
  refine .cons ⟨rfl, fun _ _ _ => .refl⟩ ?_
  refine .cons ⟨rfl, fun map again h => ?_⟩ ?_
  · exact (strings_keeps h.1).bind fun _ => .refl
  refine .cons ⟨rfl, fun map again h => ?_⟩ ?_
  · exact (member_keeps h.1).bind fun _ => .refl
  refine .cons ⟨rfl, fun _ _ _ => .refl⟩ ?_
  refine .cons ⟨rfl, fun map again h => ?_⟩ ?_
  · exact (member_keeps h.1).bind fun _ => .refl
  refine .cons ⟨rfl, fun _ _ _ => .refl⟩ ?_
  refine .cons ⟨rfl, fun map again h => ?_⟩ ?_
  · obtain ⟨hrevision, hbuilt, hrun, hchecked, hprovisioned, hsteps, hprompts, -⟩ := h
    refine (fromMember_keeps hrevision).bind fun _ => (fromMember_keeps hbuilt).bind fun _ => ?_
    refine (fromMember_keeps hrun).bind fun _ => (member_keeps hchecked).bind fun _ => ?_
    refine (member_keeps hprovisioned).bind fun _ => ?_
    refine (records_keeps (fun _ _ => step_read_alike) hsteps).bind fun _ => ?_
    exact (records_keeps (fun _ _ => prompt_read_alike) hprompts).bind fun _ => .refl
  refine .cons ⟨rfl, fun map again h => ?_⟩ ?_
  · obtain ⟨hact, hsteps, hprompt, hvalue, -⟩ := h
    refine (member_keeps hact).bind fun _ => (optionalStrings_keeps hsteps).bind fun _ => ?_
    refine (optional_keeps hprompt).bind fun _ => ?_
    exact .of_eq (by rw [optionalValue_alike hvalue])
  refine .cons ⟨rfl, fun _ _ _ => .refl⟩ ?_
  exact .nil

/-! ## What is written carries what is defined alone -/

/-- A value of a shape carries no parts but those of the shape, in the objects read part by
part. -/
def Shape.Carries : Shape φ → Json φ → Prop
  | .whole _, _ => True
  | .object parts, value => ∀ round, value = .object round →
      ∀ name ∉ parts.map Member.name, Json.get round name = none
  | .records parts, value => ∀ rounds, value = .array rounds →
      ∀ item ∈ rounds, ∀ round, item = .object round →
        ∀ name ∉ parts.map Member.name, Json.get round name = none

/-- A member read part by part is one of five. -/
theorem shape_of_member : ∀ shape ∈ shapes formats, ∀ member ∈ shape.2,
    (∃ takes, member.content = .whole takes) ∨
      (shape.1 = "state" ∧ member.name = "failure" ∧ member.content = .object failureParts) ∨
      (shape.1 = "curves" ∧ member.name = "lasts" ∧ member.content = .object spanParts) ∨
      (shape.1 = "curves" ∧ member.name = "recharge" ∧ member.content = .object spanParts) ∨
      (shape.1 = "provision-state" ∧ member.name = "steps" ∧
        member.content = .records stepParts) ∨
      (shape.1 = "provision-state" ∧ member.name = "prompts" ∧
        member.content = .records promptParts) := by
  simp [shapes, entryMembers, textMember, optionalText, textsMember, objectMember]

theorem failure_carries (failure : Failure) :
    (Shape.object failureParts).Carries (φ := φ) (.object failure.toMap) := by
  rintro _ hround name hname
  cases hround
  simp only [failureParts, List.map_cons, List.map_nil, List.mem_cons, List.not_mem_nil, or_false,
    not_or] at hname
  obtain ⟨atPath, reason, reached⟩ := failure
  cases reached <;> simp [Failure.toMap, Ne.symm hname.1, Ne.symm hname.2.1, Ne.symm hname.2.2]

theorem span_carries (span : Span φ) : (Shape.object spanParts).Carries span.toJson := by
  rintro _ hround name hname
  cases hround
  simp only [spanParts, List.map_cons, List.map_nil, List.mem_cons, List.not_mem_nil, or_false,
    not_or] at hname
  simp [Ne.symm hname.1, Ne.symm hname.2]

theorem step_carries (step : StepReport φ) {name : String}
    (hname : name ∉ (stepParts (φ := φ)).map Member.name) : Json.get step.toMap name = none := by
  simp only [stepParts, List.map_cons, List.map_nil, List.mem_cons, List.not_mem_nil, or_false,
    not_or] at hname
  obtain ⟨hid, htitle, hdone, hwhy, hstate, hprogress, hreason, hresult⟩ := hname
  simp [StepReport.toMap, Ne.symm hid, Ne.symm htitle, Ne.symm hdone, Ne.symm hwhy,
    Ne.symm hstate, Ne.symm hprogress, Ne.symm hreason, Ne.symm hresult]

theorem prompt_carries (prompt : PromptReport) {name : String}
    (hname : name ∉ (promptParts (φ := φ)).map Member.name) :
    Json.get (φ := φ) prompt.toMap name = none := by
  simp only [promptParts, List.map_cons, List.map_nil, List.mem_cons, List.not_mem_nil, or_false,
    not_or] at hname
  obtain ⟨hid, hstep, hkind, htext, hblocking, hdefault⟩ := hname
  simp [PromptReport.toMap, Ne.symm hid, Ne.symm hstep, Ne.symm hkind, Ne.symm htext,
    Ne.symm hblocking, Ne.symm hdefault]

open Message in
/-- What a message is written as carries, in each member of its type, what its shape defines
alone. -/
theorem toMap_carries {message : Message φ Date}
    (hmembers : (shapes formats).lookup message.typeName = some members) {member : Member (Shape φ)}
    (hmember : member ∈ members) {found : Json φ}
    (hfound : Json.get (message.toMap formats) member.name = some found) :
    member.content.Carries found := by
  rcases shape_of_member _ (mem_of_lookup hmembers) member hmember with
    ⟨takes, hwhole⟩ | ⟨htype, hname, hcontent⟩ | ⟨htype, hname, hcontent⟩ |
    ⟨htype, hname, hcontent⟩ | ⟨htype, hname, hcontent⟩ | ⟨htype, hname, hcontent⟩
  · rw [hwhole]
    exact trivial
  all_goals
    rw [hname] at hfound
    rw [hcontent]
    cases message <;> simp only [typeName, String.reduceEq] at htype
  · rename_i busy outcome failure attachments capabilities
    have hwritten : Json.get (toMap formats
          (state busy outcome failure attachments capabilities)) "failure" =
        failure.map fun failure => .object failure.toMap := get_toMap (by simp [Message.members])
    rw [hwritten] at hfound
    obtain ⟨failure, -, rfl⟩ := Option.map_eq_some_iff.mp hfound
    exact failure_carries failure
  · rename_i document lasts recharge
    have hwritten : Json.get (toMap formats (curves document lasts recharge)) "lasts" =
        lasts.map Span.toJson :=
      get_toMap (by simp [Message.members])
    rw [hwritten] at hfound
    obtain ⟨span, -, rfl⟩ := Option.map_eq_some_iff.mp hfound
    exact span_carries span
  · rename_i document lasts recharge
    have hwritten : Json.get (toMap formats (curves document lasts recharge)) "recharge" =
        recharge.map Span.toJson :=
      get_toMap (by simp [Message.members])
    rw [hwritten] at hfound
    obtain ⟨span, -, rfl⟩ := Option.map_eq_some_iff.mp hfound
    exact span_carries span
  · rename_i revision built run checked provisioned steps prompts
    have hwritten : Json.get (toMap formats (provisionState revision built run checked
          provisioned steps prompts)) "steps" =
        some (.array (steps.map fun step => .object step.toMap)) :=
      get_toMap (by simp [Message.members])
    rw [hwritten] at hfound
    cases hfound
    rintro _ hrounds item hitem round rfl name hname
    cases hrounds
    obtain ⟨step, -, hstep⟩ := List.mem_map.mp hitem
    cases hstep
    exact step_carries step hname
  · rename_i revision built run checked provisioned steps prompts
    have hwritten : Json.get (toMap formats (provisionState revision built run checked
          provisioned steps prompts)) "prompts" =
        some (.array (prompts.map fun prompt => .object prompt.toMap)) :=
      get_toMap (by simp [Message.members])
    rw [hwritten] at hfound
    cases hfound
    rintro _ hrounds item hitem round rfl name hname
    cases hrounds
    obtain ⟨prompt, -, hprompt⟩ := List.mem_map.mp hitem
    cases hprompt
    exact prompt_carries prompt hname

/-- What a message is written as carries no names but those of its type. -/
theorem toMap_within {map : Json.Map φ} {message : Message φ Date}
    (hread : Message.fromMap formats map = .ok message) (hknown : message.typeName ∈ knownTypes)
    (hmembers : (shapes formats).lookup message.typeName = some members) {name : String}
    (hname : name ∉ names members) : Json.get (message.toMap formats) name = none := by
  obtain ⟨htype, -⟩ := Message.reader_of_fromMap hread
  obtain ⟨others, hothers, htaken⟩ := fromMap_taken formats hknown htype
  rw [hmembers] at hothers
  cases hothers
  obtain ⟨after, hwritten, hall⟩ := htaken.follows message hread
  rw [List.nil_append] at hwritten
  have hsame : (message.members formats).map Prod.fst = members.map Member.name := by
    rw [hwritten]
    clear hwritten hmembers hname htaken
    induction hall with
    | nil => rfl
    | cons hone _ ih => rw [List.map_cons, List.map_cons, hone.1, ih]
  rw [names, List.mem_cons, not_or] at hname
  unfold Message.toMap
  rw [Json.get_setAll_of_not_mem (hsame ▸ hname.2)]
  simp [typed, Ne.symm hname.1]

/-! ## What is added stays clear -/

/-- An object read part by part is clear with members added. -/
theorem PartsAdded.clear {raw other : Raw φ} {found : Json φ} {path : String}
    (hadded : PartsAdded pinned parts raw other) (hnames : raw.WellNamed)
    (hothers : other.WellNamed)
    (hcarries : ∀ round, found = .object round →
      ∀ name ∉ parts.map Member.name, Json.get round name = none)
    (hclear : Clear path found raw) : Clear path found other := by
  rcases hadded with rfl | ⟨entries, others, rfl, rfl, hbeside⟩
  · exact hclear
  · cases found with
    | object round =>
        refine hbeside.clear hnames hothers (hcarries round rfl) ?_ hclear
        rintro name raw other found rfl - - - hclear
        exact hclear
    | _ =>
        intro p _
        simp [Raw.value, Envelope.collectUnknown]

/-- A value of a shape is clear with members added. -/
theorem Shape.Added.clear {shape : Shape φ} {raw other : Raw φ} {found : Json φ} {path : String}
    (hadded : shape.Added pinned raw other) (hnames : raw.WellNamed) (hothers : other.WellNamed)
    (hcarries : shape.Carries found) (hclear : Clear path found raw) : Clear path found other := by
  cases shape with
  | whole takes =>
      rw [Shape.Added] at hadded
      rwa [hadded]
  | object parts => exact PartsAdded.clear hadded hnames hothers hcarries hclear
  | records parts =>
      rcases hadded with rfl | ⟨items, others, rfl, rfl, hall⟩
      · exact hclear
      · cases found with
        | array rounds =>
            rw [Envelope.clear_array] at hclear ⊢
            intro i other found hother hfound
            obtain ⟨hi, rfl⟩ := List.getElem?_eq_some_iff.mp hother
            have hlength : i < items.length := hall.length_eq ▸ hi
            have hitem := List.getElem?_eq_getElem hlength
            exact (hall.get hlength hi).clear (wellNamed_of_mem hnames (List.getElem_mem hlength))
              (wellNamed_of_mem hothers (List.getElem_mem hi))
              (hcarries rounds rfl found (List.mem_of_getElem? hfound))
              (hclear i _ found hitem hfound)
        | _ =>
            intro p _
            simp [Raw.value, Envelope.collectUnknown]

/-- The names in upper case of an object are those there were, where none may be added. -/
theorem PartsAdded.marks {raw other : Raw φ} (hadded : PartsAdded pinned parts raw other)
    (hpinned : pinned) (path : String) : other.marks path = raw.marks path := by
  rcases hadded with rfl | ⟨entries, others, rfl, rfl, hbeside⟩
  · rfl
  · rw [Raw.marks, Raw.marks]
    refine hbeside.marks hpinned ?_ path
    rintro name raw other rfl path
    rfl

theorem Shape.Added.marks {shape : Shape φ} {raw other : Raw φ}
    (hadded : shape.Added pinned raw other) (hpinned : pinned) (path : String) :
    other.marks path = raw.marks path := by
  cases shape with
  | whole takes =>
      rw [Shape.Added] at hadded
      rw [hadded]
  | object parts => exact PartsAdded.marks hadded hpinned path
  | records parts =>
      rcases hadded with rfl | ⟨items, others, rfl, rfl, hall⟩
      · rfl
      · rw [Raw.marks, Raw.marks]
        generalize 0 = index
        induction hall generalizing index with
        | nil => rfl
        | cons hone _ ih =>
            rw [Envelope.itemsMarks, Envelope.itemsMarks, hone.marks hpinned, ih]

theorem Within.marks {name : String} {raw other : Raw φ}
    (hwithin : Within pinned members name raw other) (hpinned : pinned) (path : String) :
    other.marks path = raw.marks path := by
  by_cases hname : name ∈ members.map Member.name
  · obtain ⟨member, hmember, hsame⟩ := List.mem_map.mp hname
    exact (hwithin.1 member hmember hsame).marks hpinned path
  · rw [hwithin.2 hname]

/-! ## Messages read -/

/-- No type defines a member that is its own `type`. -/
theorem type_not_mem : ∀ shape ∈ shapes formats, "type" ∉ shape.2.map Member.name := by
  simp [shapes, entryMembers, textMember, optionalText, textsMember, objectMember]

/-- What a type is held to carry in upper case, it defines. -/
theorem mem_names_of_required {typeName : String} {required : List String}
    (hmembers : (shapes formats).lookup typeName = some members)
    (hpinned : criticality typeName = .exactly required) :
    ∀ name ∈ required, name ∈ names members := by
  unfold criticality at hpinned
  split at hpinned
  · cases hpinned
    simp
  · split at hpinned
    · rename_i htype
      subst htype
      cases hmembers
      cases hpinned
      simp [names, textMember]
    · cases hpinned

/-- A message is read of an object alike in its type and the members of it. -/
theorem fromMap_alike {map again : Json.Map φ} {message : Message φ Date}
    (hread : Message.fromMap formats map = .ok message)
    (hmembers : (shapes formats).lookup message.typeName = some members)
    (halike : Alike members map again) (htype : Json.get again "type" = Json.get map "type") :
    Message.fromMap formats again = .ok message := by
  obtain ⟨hname, read, hlookup, hmap⟩ := Message.reader_of_fromMap hread
  obtain ⟨others, hothers, hkeeps⟩ := lookup_of_forall₂ (fun read members =>
    ∀ map again : Json.Map φ, Alike members map again → Keeps (read map) (read again))
    readers_alike hlookup
  rw [hmembers] at hothers
  cases hothers
  unfold Message.fromMap
  rw [htype, hname]
  simp only [Json.asStr, Option.bind_some, hlookup]
  exact hkeeps map again halike message hmap

section

variable {typeName : String} {entries others : List (String × Raw φ)}

theorem type_beside (hmembers : (shapes formats).lookup typeName = some members)
    (hbeside : Beside (names members) pinned (Within pinned members) entries others)
    (hwell : (Raw.object entries).WellNamed) (hnames : (Raw.object others).WellNamed) :
    Json.get (Json.collect (Envelope.entriesValue others)) "type" =
      Json.get (Json.collect (Envelope.entriesValue entries)) "type" := by
  rcases hbeside.get hwell hnames (List.mem_cons_self : "type" ∈ names members) with
    ⟨hnone, hnone'⟩ | ⟨raw, other, hraw, hother, -, -, hwithin⟩
  · rw [hnone, hnone']
  · rw [hraw, hother, hwithin.2 (type_not_mem _ (mem_of_lookup hmembers))]

theorem heldTo_beside (hmembers : (shapes formats).lookup typeName = some members)
    (hbeside : Beside (names members) (criticality typeName ≠ .unconstrained)
      (Within (criticality typeName ≠ .unconstrained) members) entries others)
    (hwell : (Raw.object entries).WellNamed) (hnames : (Raw.object others).WellNamed)
    (hheld : HeldTo (Json.collect (Envelope.entriesValue entries))
      ((Raw.object entries).marks "") (criticality typeName)) :
    HeldTo (Json.collect (Envelope.entriesValue others)) ((Raw.object others).marks "")
      (criticality typeName) := by
  cases hpinned : criticality typeName with
  | unconstrained => exact trivial
  | exactly required =>
      have hpins : criticality typeName ≠ .unconstrained := by
        rw [hpinned]
        simp
      have hmarks : (Raw.object others).marks "" = (Raw.object entries).marks "" := by
        rw [Raw.marks, Raw.marks]
        exact hbeside.marks hpins (fun _ _ _ hwithin => hwithin.marks hpins) ""
      rw [hpinned] at hheld
      rw [hmarks]
      refine ⟨hheld.1, fun name hname hsome => hheld.2 name hname ?_⟩
      rcases hbeside.get hwell hnames (mem_names_of_required hmembers hpinned name hname) with
        ⟨-, hnone⟩ | ⟨raw, other, hraw, -, -, -, -⟩
      · rw [hnone] at hsome
        cases hsome
      · rw [hraw]
        rfl

end

/-- What is read of a message as it arrived, with members in lower case added that its type does
not define, is what was read of it. -/
theorem readRaw_added {raw other : Raw φ} {message : Message φ Date}
    (hread : Envelope.readRaw (messages formats) raw = .ok (.message message))
    (hadded : Added formats message.typeName raw other) (hnames : other.WellNamed) :
    Envelope.readRaw (messages formats) other = .ok (.message message) := by
  obtain ⟨hwell, entries, typeName, rfl, htype, hknown⟩ := Envelope.object_of_readRaw hread
  have hvalue : (Raw.object entries).value =
      .object (Json.collect (Envelope.entriesValue entries)) := by
    rw [Raw.value]
  obtain ⟨hheld, hfrom, hclear⟩ := Envelope.held_of_readRaw hwell hvalue htype hknown hread
  have hmap : Message.fromMap formats (Json.collect (Envelope.entriesValue entries)) =
      .ok message := hfrom
  obtain ⟨hown, -⟩ := Message.reader_of_fromMap hmap
  rw [htype] at hown
  cases hown
  obtain ⟨members, _, others, hmembers, hsame, rfl, hbeside⟩ := hadded
  cases hsame
  have hsameType := type_beside hmembers hbeside hwell hnames
  have hagain := fromMap_alike hmap hmembers (alike_of_beside hbeside hwell hnames) hsameType
  have hheldAgain := heldTo_beside hmembers hbeside hwell hnames hheld
  have hclearAgain : Clear "" (.object (message.toMap formats)) (Raw.object others) := by
    refine hbeside.clear hwell hnames (fun name hname => toMap_within hmap hknown hmembers hname) ?_
      hclear
    intro name raw other found hwithin hraw hother hfound hclear
    by_cases hname : name ∈ members.map Member.name
    · obtain ⟨member, hmember, rfl⟩ := List.mem_map.mp hname
      exact (hwithin.1 member hmember rfl).clear hraw hother
        (toMap_carries hmembers hmember hfound) hclear
    · rwa [hwithin.2 hname]
  exact (Envelope.readRaw_held hnames (by rw [Raw.value]) (hsameType.trans htype) hknown hheldAgain
    hagain).1 hclearAgain

/-- A shape is alike to itself. -/
theorem Shape.alikeAt_refl (shape : Shape φ) (found : Option (Json φ)) :
    shape.AlikeAt found found := by
  cases found with
  | none => exact .inl ⟨rfl, rfl⟩
  | some value =>
      refine .inr ⟨value, value, rfl, rfl, ?_⟩
      cases shape with
      | whole takes => exact rfl
      | object parts => exact .inl rfl
      | records parts => exact .inl rfl

/-- A type defines a member: its own `type`, or one it is to carry. -/
def Defines (formats : Formats φ Date) (typeName name : String) : Prop :=
  ∃ members, (shapes formats).lookup typeName = some members ∧ name ∈ names members

/-- What is read of a message as it arrived, with one member added in upper case that its type does
not define, and any in lower case, is a refusal that names it, where nothing is pinned on the
type. -/
theorem readRaw_added_upper {raw value : Raw φ} {message : Message φ Date} {name : String}
    {before after : List (String × Raw φ)}
    (hread : Envelope.readRaw (messages formats) raw = .ok (.message message))
    (hadded : Added formats message.typeName raw (.object (before ++ after)))
    (hname : Envelope.classify name = some true)
    (hnew : ¬ Defines formats message.typeName name.toLower)
    (hnames : (Raw.object (before ++ (name, value) :: after)).WellNamed)
    (hfree : criticality message.typeName = .unconstrained) :
    ∃ members, name.toLower ∈ members ∧
      Envelope.readRaw (messages formats) (.object (before ++ (name, value) :: after)) =
        .ok (.refused (.criticalMembers message.typeName members)) := by
  have hless := Envelope.wellNamed_of_insert hnames
  have hlower := readRaw_added hread hadded hless
  obtain ⟨-, _, typeName, hsame, htype, hknown⟩ := Envelope.object_of_readRaw hlower
  cases hsame
  obtain ⟨-, hfrom, -⟩ := Envelope.held_of_readRaw hless (by rw [Raw.value]) htype hknown hlower
  have hmap : Message.fromMap formats (Json.collect (Envelope.entriesValue (before ++ after))) =
      .ok message := hfrom
  obtain ⟨hown, -⟩ := Message.reader_of_fromMap hmap
  rw [htype] at hown
  cases hown
  obtain ⟨members, _, _, hmembers, -, -, -⟩ := hadded
  have hout : name.toLower ∉ names members := fun hin => hnew ⟨members, hmembers, hin⟩
  have hentry : (name, value) ∈ before ++ (name, value) :: after :=
    List.mem_append_right _ List.mem_cons_self
  have hdistinct := hnames
  rw [Raw.WellNamed] at hdistinct
  have hget : ∀ other ∈ names members,
      Json.get (Json.collect (Envelope.entriesValue (before ++ (name, value) :: after))) other =
        Json.get (Json.collect (Envelope.entriesValue (before ++ after))) other := by
    intro other hother
    refine Envelope.get_insert hdistinct.1 fun hclash => hout ?_
    rwa [← hclash]
  have hagain := fromMap_alike hmap hmembers (alike_of_forall fun member hmember => by
    rw [hget _ (List.mem_cons_of_mem _ (List.mem_map.mpr ⟨member, hmember, rfl⟩))]
    exact member.content.alikeAt_refl _) (hget "type" List.mem_cons_self)
  have hheld : HeldTo (Json.collect (Envelope.entriesValue (before ++ (name, value) :: after)))
      ((Raw.object (before ++ (name, value) :: after)).marks "")
      (criticality message.typeName) := by
    rw [hfree]
    exact trivial
  have hmark : name.toLower ∈ (Raw.object (before ++ (name, value) :: after)).marks "" := by
    rw [Raw.marks, Envelope.mem_entriesMarks_iff]
    refine ⟨_, hentry, ?_⟩
    rw [Envelope.entryMarks, if_pos hname]
    exact List.mem_cons_self
  have hlost : name.toLower ∈ Envelope.collectUnknown "" ∅ (.object (message.toMap formats))
      (Raw.object (before ++ (name, value) :: after)).value := by
    rw [Raw.value, Envelope.collectUnknown, Envelope.mem_unknownMembers]
    refine ⟨_, (Envelope.mem_collect_entriesValue hdistinct.1).mpr ⟨_, hentry, rfl⟩, .inl ⟨?_, ?_⟩⟩
    · rw [Envelope.entryValue_fst]
      exact toMap_within hmap hknown hmembers hout
    · rw [Envelope.entryValue_fst]
      rfl
  exact (Envelope.readRaw_held hnames (by rw [Raw.value])
    ((hget "type" List.mem_cons_self).trans htype) hknown hheld hagain).2 _ hmark hlost

/-- A message with members in lower case added that its type does not define is read as the same
message; with one in upper case too it is refused, naming that, where nothing is pinned on the
type. -/
theorem read_added {fromStr : String → Except String (Raw φ)} {bytes : ByteArray} {raw : Raw φ}
    {message : Message φ Date} (hbytes : Parsed fromStr bytes raw)
    (hread : Envelope.read (messages formats) fromStr bytes = .ok (.message message)) :
    (∀ others other, Parsed fromStr others other → other.WellNamed →
      Added formats message.typeName raw other →
      Envelope.read (messages formats) fromStr others = .ok (.message message)) ∧
    ∀ others before name value after,
      Parsed fromStr others (.object (before ++ (name, value) :: after)) →
      (Raw.object (before ++ (name, value) :: after)).WellNamed →
      Added formats message.typeName raw (.object (before ++ after)) →
      Envelope.classify name = some true → ¬ Defines formats message.typeName name.toLower →
      criticality message.typeName = .unconstrained →
      ∃ members, name.toLower ∈ members ∧ Envelope.read (messages formats) fromStr others =
        .ok (.refused (.criticalMembers message.typeName members)) := by
  rw [Envelope.read_of_parsed hbytes] at hread
  constructor
  · intro others other hother hnames hadded
    rw [Envelope.read_of_parsed hother]
    exact readRaw_added hread hadded hnames
  · intro others before name value after hother hnames hadded hname hnew hfree
    rw [Envelope.read_of_parsed hother]
    exact readRaw_added_upper hread hadded hname hnew hnames hfree

/-! ## The end of a batch with a member added -/

/-- The end of a batch. -/
def batchEnd : List (String × Raw Int) :=
  [("type", .other (.string "end-of-batch") rfl)]

theorem isScalar_null : (Json.null : Json φ).isScalar = true :=
  rfl

/-- A member no type defines, with one in upper case below it. -/
def freshMember (name : String) : String × Raw Int :=
  (name, .object [("DEEP", .other .null isScalar_null)])

/-- The text of the end of a batch, with a member added under a name or none. -/
def batchText (name : String) : String :=
  "\x7b" ++ (if name = "" then "" else "\"" ++ name ++ "\":\x7b\"DEEP\":null\x7d,") ++
    "\"type\":\"end-of-batch\"\x7d"

/-- A JSON reader that knows the end of a batch, as it is and with a member added in either
case. -/
def batchReader (text : String) : Except String (Raw Int) :=
  if text = batchText "" then .ok (.object batchEnd)
  else if text = batchText "fresh" then .ok (.object (freshMember "fresh" :: batchEnd))
  else if text = batchText "FRESH" then .ok (.object (freshMember "FRESH" :: batchEnd))
  else .error "expected value"

/-- The end of a batch read with a member added is itself, and is refused with it in upper case. -/
theorem read_added_batch :
    Envelope.read (messages plainFormats) batchReader (batchText "fresh").toByteArray =
        .ok (.message .endOfBatch) ∧
      ∃ members, "fresh" ∈ members ∧
        Envelope.read (messages plainFormats) batchReader (batchText "FRESH").toByteArray =
          .ok (.refused (.criticalMembers "end-of-batch" members)) := by
  have hlow : "fresh".toLower = "fresh" := by
    apply String.toList_inj.mp
    rw [String.toLower, String.toList_map]
    decide
  have hup : "FRESH".toLower = "fresh" := by
    apply String.toList_inj.mp
    rw [String.toLower, String.toList_map]
    decide
  have htype : "type".toLower = "type" := by
    apply String.toList_inj.mp
    rw [String.toLower, String.toList_map]
    decide
  have hknown : "end-of-batch" ∈ (messages (φ := Int) plainFormats).knownTypes := by decide
  have hnames : (Raw.object batchEnd).WellNamed := by
    simp [Raw.WellNamed, batchEnd, Envelope.EntriesWellNamed, Envelope.EntryWellNamed,
      show Envelope.classify "type" = some false by decide]
  have hadded : ∀ name, name.toLower = "fresh" → (Envelope.classify name).isSome = true →
      (Raw.object (freshMember name :: batchEnd)).WellNamed := by
    intro name hname hformed
    simp [Raw.WellNamed, batchEnd, freshMember, Envelope.EntriesWellNamed,
      Envelope.EntryWellNamed, hname, htype, hformed,
      show Envelope.classify "type" = some false by decide,
      show Envelope.classify "DEEP" = some true by decide]
  have hbytes : Parsed batchReader (batchText "").toByteArray (.object batchEnd) :=
    ⟨_, Envelope.fromUTF8?_toByteArray _, if_pos rfl⟩
  have hlower : Parsed batchReader (batchText "fresh").toByteArray
      (.object (freshMember "fresh" :: batchEnd)) :=
    ⟨_, Envelope.fromUTF8?_toByteArray _, (if_neg (by decide)).trans (if_pos rfl)⟩
  have hupper : Parsed batchReader (batchText "FRESH").toByteArray
      (.object (freshMember "FRESH" :: batchEnd)) :=
    ⟨_, Envelope.fromUTF8?_toByteArray _,
      (if_neg (by decide)).trans ((if_neg (by decide)).trans (if_pos rfl))⟩
  have hvalue : (Raw.object batchEnd).value = .object [("type", .string "end-of-batch")] := by
    simp [Raw.value, batchEnd, Envelope.entriesValue, Envelope.entryValue, htype, Json.collect,
      Json.insertAll, Json.insert]
  have hread : Envelope.read (messages plainFormats) batchReader (batchText "").toByteArray =
      .ok (.message .endOfBatch) := by
    rw [Envelope.read_of_parsed hbytes]
    refine (Envelope.readRaw_held hnames hvalue rfl hknown trivial rfl).1 fun path hpath => ?_
    simp [Raw.marks, batchEnd, Envelope.entriesMarks, Envelope.entryMarks,
      show Envelope.classify "type" ≠ some true by decide] at hpath
  have hkept : Beside (names (φ := Int) []) (criticality "end-of-batch" ≠ .unconstrained)
      (Within (criticality "end-of-batch" ≠ .unconstrained) []) batchEnd batchEnd :=
    .keep ⟨fun _ hmember => absurd hmember List.not_mem_nil, fun _ => rfl⟩ .nil
  have hnew : "fresh" ∉ names (φ := Int) [] := by decide
  have hall := read_added hbytes hread
  constructor
  · refine hall.1 _ _ hlower (hadded _ hlow (by decide)) ?_
    exact ⟨[], _, _, rfl, rfl, rfl, .add (by decide) (by rw [hlow]; exact hnew) (fun h => absurd rfl h)
      hkept⟩
  · have hrefused := hall.2 _ [] "FRESH" _ batchEnd hupper (hadded _ hup (by decide))
      ⟨[], _, _, rfl, rfl, rfl, hkept⟩ (by decide) ?_ rfl
    · rw [hup] at hrefused
      exact hrefused
    · rintro ⟨members, hmembers, hin⟩
      cases hmembers
      exact hnew (hup ▸ hin)

end Bliti.Channel.Messages
