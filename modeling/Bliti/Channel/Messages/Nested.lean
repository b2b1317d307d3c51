import Bliti.Channel.Messages.Added
import Bliti.Channel.Messages.Recased

/-!
# The message set - critical members within a message

A message as it arrived that the reader of its type takes, some of its names in upper case.  One is
lost where it is of a member its type does not define, or of one sent as null for left out; and so
is one in an object the type reads part by part.  Any that is lost costs the whole message, wherever
it is.

Main results:

- Theorem `refused_on_top`: when it is refused exactly for what the message itself carries.
-/

namespace Bliti.Channel.Messages

open Envelope (Clear EntryClear HeldTo Member Parsed Raw)
open Message (plainFormats)

variable {φ Date C : Type} {formats : Formats φ Date} {members : List (Member (Shape φ))}

/-! ## Members lost -/

/-- An entry of an object that may have some members: its name is in upper case, and of none of them
but such as are sent as null for left out, or what it holds is lost below it. -/
def EntryLost (members : List (Member C)) (lost : C → Raw φ → Prop) (entry : String × Raw φ) :
    Prop :=
  (Envelope.classify entry.1 = some true ∧
    ∀ member ∈ members, member.name = entry.1.toLower → member.null entry.2.value = true) ∨
  ∃ member ∈ members, member.name = entry.1.toLower ∧ member.null entry.2.value = false ∧
    lost member.content entry.2

/-- An object read part by part holds an entry that is lost. -/
def PartLost (parts : List (Member (Json φ → Bool))) (raw : Raw φ) : Prop :=
  ∃ entries, raw = .object entries ∧ ∃ entry ∈ entries, EntryLost parts (fun _ _ => False) entry

/-- A value of a shape holds an entry that is lost, in the objects read part by part. -/
def Shape.Lost : Shape φ → Raw φ → Prop
  | .whole _, _ => False
  | .object parts, raw => PartLost parts raw
  | .records parts, raw => ∃ items, raw = .array items ∧ ∃ item ∈ items, PartLost parts item

/-- An entry is clear where it is not lost, of an object written again as its members follow. -/
theorem entryClear_iff {members : List (Member C)} {lost : C → Raw φ → Prop}
    {follows : C → Json φ → Json φ → Prop} {entries : List (String × Raw φ)}
    {entry : String × Raw φ} {path : String} {round : Json.Map φ}
    (hdistinct : (entries.map fun entry => entry.1.toLower).Nodup) (hin : entry ∈ entries)
    (hfollows : ∀ member ∈ members, member.Follows follows
      (Json.collect (Envelope.entriesValue entries)) (Json.get round member.name))
    (hcarries : ∀ name ∉ members.map Member.name, Json.get round name = none)
    (hbelow : ∀ member ∈ members, ∀ again, member.name = entry.1.toLower →
      Json.get round entry.1.toLower = some again → follows member.content entry.2.value again →
        (Clear (Envelope.below path entry.1.toLower) again entry.2 ↔
          ¬ lost member.content entry.2)) :
    EntryClear path round entry ↔ ¬ EntryLost members lost entry := by
  have hget : Json.get (Json.collect (Envelope.entriesValue entries)) entry.1.toLower =
      some entry.2.value :=
    (Envelope.get_collect_entriesValue hdistinct).mpr ⟨entry, hin, by rw [Envelope.entryValue]⟩
  have hwritten : ∀ member ∈ members, member.name = entry.1.toLower →
      if member.null entry.2.value = true then Json.get round entry.1.toLower = none
      else ∃ again, Json.get round entry.1.toLower = some again ∧
        follows member.content entry.2.value again := by
    intro member hmember hname
    rw [← hname]
    exact hfollows member hmember entry.2.value (hname ▸ hget)
  unfold EntryClear
  cases hround : Json.get round entry.1.toLower with
  | none =>
      have hnull : ∀ member ∈ members, member.name = entry.1.toLower →
          member.null entry.2.value = true := by
        intro member hmember hname
        by_contra hnot
        have hagain := hwritten member hmember hname
        rw [if_neg hnot, hround] at hagain
        obtain ⟨again, hsome, -⟩ := hagain
        cases hsome
      refine not_congr ⟨fun hmark => .inl ⟨hmark, hnull⟩, fun hlost => ?_⟩
      rcases hlost with hmark | ⟨member, hmember, hname, hnot, -⟩
      · exact hmark.1
      · rw [hnull member hmember hname] at hnot
        cases hnot
  | some again =>
      have hfound : ∀ member ∈ members, member.name = entry.1.toLower →
          member.null entry.2.value = false ∧ follows member.content entry.2.value again := by
        intro member hmember hname
        have hagain := hwritten member hmember hname
        rw [hround] at hagain
        split at hagain
        · cases hagain
        · rename_i hnot
          obtain ⟨other, hsame, hother⟩ := hagain
          cases hsame
          exact ⟨by simpa using hnot, hother⟩
      obtain ⟨member, hmember, hname⟩ : ∃ member ∈ members, member.name = entry.1.toLower := by
        by_contra hnone
        have hgone := hcarries entry.1.toLower fun hin => hnone (List.mem_map.mp hin)
        rw [hround] at hgone
        cases hgone
      obtain ⟨hnull, hagain⟩ := hfound member hmember hname
      constructor
      · intro hclear hlost
        rcases hlost with ⟨-, hall⟩ | ⟨other, hother, hsame, -, hlost⟩
        · rw [hall member hmember hname] at hnull
          cases hnull
        · have hfollowed := (hfound other hother hsame).2
          exact (hbelow other hother again hsame hround hfollowed).mp hclear hlost
      · intro hkept
        refine (hbelow member hmember again hname hround hagain).mpr fun hlost => hkept (.inr ?_)
        exact ⟨member, hmember, hname, hnull, hlost⟩

/-- A value with nothing read below it is clear. -/
theorem clear_whole {raw : Raw φ} {again : Json φ} {path : String}
    (hfollows : wholeFollows raw.value again) : Clear path again raw :=
  fun _ _ => not_mem_collectUnknown_whole (Envelope.value_ascending raw) hfollows

/-- An object read part by part is clear where it holds no entry that is lost. -/
theorem clear_parts_iff {parts : List (Member (Json φ → Bool))} {raw : Raw φ} {again : Json φ}
    {path : String} (hnames : raw.WellNamed) (hfollows : partsFollow parts raw.value again)
    (hcarries : ∀ round, again = .object round →
      ∀ name ∉ parts.map Member.name, Json.get round name = none) :
    Clear path again raw ↔ ¬ PartLost parts raw := by
  obtain ⟨round, rfl, hround⟩ := hfollows
  cases raw with
  | object entries =>
      have hentry : ∀ entry ∈ entries,
          (EntryClear path round entry ↔ ¬ EntryLost parts (fun _ _ => False) entry) := by
        intro entry hin
        refine entryClear_iff ?_ hin (hround _ (by rw [Raw.value])) (hcarries round rfl) ?_
        · rw [Raw.WellNamed] at hnames
          exact hnames.1
        · intro part _ again _ _ hagain
          exact iff_of_true (clear_whole hagain) fun hlost => hlost
      rw [Envelope.clear_object hnames]
      constructor
      · intro hclear hlost
        obtain ⟨_, hsame, entry, hin, hlost⟩ := hlost
        cases hsame
        exact (hentry entry hin).mp (hclear entry hin) hlost
      · intro hkept entry hin
        exact (hentry entry hin).mpr fun hlost => hkept ⟨entries, rfl, entry, hin, hlost⟩
  | array items =>
      refine iff_of_true ?_ fun hlost => ?_
      · intro p _
        simp [Raw.value, Envelope.collectUnknown]
      · obtain ⟨_, hsame, -⟩ := hlost
        cases hsame
  | other value hscalar =>
      refine iff_of_true ?_ fun hlost => ?_
      · intro p hmark
        rw [Raw.marks] at hmark
        cases hmark
      · obtain ⟨_, hsame, -⟩ := hlost
        cases hsame

/-- A value of a shape is clear where it holds no entry that is lost. -/
theorem clear_shape_iff {shape : Shape φ} {raw : Raw φ} {again : Json φ} {path : String}
    (hnames : raw.WellNamed) (hfollows : shape.follows raw.value again)
    (hcarries : shape.Carries again) : Clear path again raw ↔ ¬ shape.Lost raw := by
  cases shape with
  | whole takes => exact iff_of_true (clear_whole hfollows) fun hlost => hlost
  | object parts => exact clear_parts_iff hnames hfollows hcarries
  | records parts =>
      obtain ⟨values, rounds, hvalue, rfl, hall⟩ := hfollows
      cases raw with
      | object entries =>
          rw [Raw.value] at hvalue
          cases hvalue
      | other value hscalar =>
          rw [Raw.value] at hvalue
          rw [hvalue] at hscalar
          cases hscalar
      | array items =>
          rw [Raw.value] at hvalue
          cases hvalue
          rw [Envelope.itemsValue_eq] at hall
          have hitem : ∀ (i : ℕ) (item : Raw φ) (found : Json φ), items[i]? = some item →
              rounds[i]? = some found →
                (Clear (Envelope.below path (toString i)) found item ↔ ¬ PartLost parts item) := by
            intro i item found hheld hfound
            have hraised : (items.map Raw.value)[i]? = some item.value := by
              rw [List.getElem?_map, hheld]
              rfl
            obtain ⟨other, hother, hone⟩ := getElem?_of_forall₂ hall hraised
            rw [hfound] at hother
            cases hother
            exact clear_parts_iff (wellNamed_of_mem hnames (List.mem_of_getElem? hheld)) hone
              (hcarries rounds rfl found (List.mem_of_getElem? hfound))
          rw [Envelope.clear_array]
          constructor
          · intro hclear hlost
            obtain ⟨_, hsame, item, hin, hlost⟩ := hlost
            cases hsame
            obtain ⟨i, hheld⟩ := List.mem_iff_getElem?.mp hin
            have hraised : (items.map Raw.value)[i]? = some item.value := by
              rw [List.getElem?_map, hheld]
              rfl
            obtain ⟨found, hfound, -⟩ := getElem?_of_forall₂ hall hraised
            exact (hitem i item found hheld hfound).mp (hclear i item found hheld hfound) hlost
          · intro hkept i item found hheld hfound
            refine (hitem i item found hheld hfound).mpr fun hlost => hkept ⟨items, rfl, item, ?_⟩
            exact ⟨List.mem_of_getElem? hheld, hlost⟩

/-! ## Messages refused -/

/-- A message as it arrived, taken by the reader of its type: its names well formed, in upper case
as its type is held to, and its members read. -/
structure Reads (formats : Formats φ Date) (members : List (Member (Shape φ)))
    (entries : List (String × Raw φ)) (message : Message φ Date) : Prop where
  names : (Raw.object entries).WellNamed
  type : Json.get (Json.collect (Envelope.entriesValue entries)) "type" =
    some (.string message.typeName)
  known : message.typeName ∈ knownTypes
  members : (shapes formats).lookup message.typeName = some members
  held : HeldTo (Json.collect (Envelope.entriesValue entries)) ((Raw.object entries).marks "")
    (criticality message.typeName)
  message : Message.fromMap formats (Json.collect (Envelope.entriesValue entries)) = .ok message

/-- A name in upper case on the message itself is of a member its type does not define. -/
def OnTop (members : List (Member (Shape φ))) (entries : List (String × Raw φ)) : Prop :=
  ∃ entry ∈ entries, Envelope.classify entry.1 = some true ∧ entry.1.toLower ∉ names members

/-- A name in upper case on the message itself is of a member its type defines, sent as null for
left out. -/
def LeftOut (members : List (Member (Shape φ))) (entries : List (String × Raw φ)) : Prop :=
  ∃ entry ∈ entries, Envelope.classify entry.1 = some true ∧ entry.1.toLower ∈ names members ∧
    ∀ member ∈ textMember "type" :: members, member.name = entry.1.toLower →
      member.null entry.2.value = true

/-- A name in upper case in an object the type reads part by part is of none of its parts, or of one
sent as null for left out. -/
def InPart (members : List (Member (Shape φ))) (entries : List (String × Raw φ)) : Prop :=
  ∃ entry ∈ entries, ∃ member ∈ textMember "type" :: members, member.name = entry.1.toLower ∧
    member.null entry.2.value = false ∧ member.content.Lost entry.2

/-- An entry of a message is lost on the message itself or within it. -/
theorem exists_entryLost_iff {entries : List (String × Raw φ)} :
    (∃ entry ∈ entries, EntryLost (textMember "type" :: members) Shape.Lost entry) ↔
      OnTop members entries ∨ LeftOut members entries ∨ InPart members entries := by
  constructor
  · intro hlost
    obtain ⟨entry, hin, hlost⟩ := hlost
    rcases hlost with ⟨hmark, hall⟩ | ⟨member, hmember, hname, hnull, hlost⟩
    · by_cases hdefined : entry.1.toLower ∈ names members
      · exact .inr (.inl ⟨entry, hin, hmark, hdefined, hall⟩)
      · exact .inl ⟨entry, hin, hmark, hdefined⟩
    · exact .inr (.inr ⟨entry, hin, member, hmember, hname, hnull, hlost⟩)
  · intro hany
    rcases hany with ⟨entry, hin, hmark, hnew⟩ | ⟨entry, hin, hmark, -, hall⟩ |
      ⟨entry, hin, member, hmember, hname, hnull, hlost⟩
    · refine ⟨entry, hin, .inl ⟨hmark, fun member hmember hname => absurd ?_ hnew⟩⟩
      exact hname ▸ List.mem_map_of_mem hmember
    · exact ⟨entry, hin, .inl ⟨hmark, hall⟩⟩
    · exact ⟨entry, hin, .inr ⟨member, hmember, hname, hnull, hlost⟩⟩

/-- A message is clear where none of its entries is lost. -/
theorem Reads.clear_iff {entries : List (String × Raw φ)} {message : Message φ Date}
    (hreads : Reads formats members entries message) :
    Clear "" (.object (message.toMap formats)) (.object entries) ↔
      ¬ ∃ entry ∈ entries, EntryLost (textMember "type" :: members) Shape.Lost entry := by
  have hnames := hreads.names
  rw [Raw.WellNamed] at hnames
  have hentry : ∀ entry ∈ entries, (EntryClear "" (message.toMap formats) entry ↔
      ¬ EntryLost (textMember "type" :: members) Shape.Lost entry) := by
    intro entry hin
    refine entryClear_iff hnames.1 hin (follows_toMap hreads.type hreads.known hreads.members
      hreads.message) (fun name hname => ?_) fun member hmember again hname hround hagain => ?_
    · exact toMap_within hreads.message hreads.known hreads.members hname
    · refine clear_shape_iff ?_ hagain ?_
      · have hwell := hnames.2.of_mem hin
        rw [Envelope.EntryWellNamed] at hwell
        exact hwell.2
      · rcases List.mem_cons.mp hmember with rfl | hdefined
        · exact trivial
        · exact toMap_carries hreads.members hdefined (hname ▸ hround)
  rw [Envelope.clear_object hreads.names]
  constructor
  · intro hclear hlost
    obtain ⟨entry, hin, hlost⟩ := hlost
    exact (hentry entry hin).mp (hclear entry hin) hlost
  · intro hkept entry hin
    exact (hentry entry hin).mpr fun hlost => hkept ⟨entry, hin, hlost⟩

/-- A message is refused for the members in upper case that are lost. -/
def Refused (formats : Formats φ Date) (fromStr : String → Except String (Raw φ))
    (bytes : ByteArray) : Prop :=
  ∃ typeName refused, Envelope.read (messages formats) fromStr bytes =
    .ok (.refused (.criticalMembers typeName refused))

/-- A message is refused where an entry is lost, on the message itself or within it. -/
theorem refused_iff {fromStr : String → Except String (Raw φ)} {bytes : ByteArray}
    {entries : List (String × Raw φ)} {message : Message φ Date}
    (hbytes : Parsed fromStr bytes (.object entries))
    (hreads : Reads formats members entries message) :
    Refused formats fromStr bytes ↔
      OnTop members entries ∨ LeftOut members entries ∨ InPart members entries := by
  have hboth := @Envelope.readRaw_held _ _ (messages formats) _ _ _ _ hreads.names
    (by rw [Raw.value]) hreads.type hreads.known hreads.held hreads.message
  rw [← exists_entryLost_iff, ← not_iff_not, ← hreads.clear_iff]
  unfold Refused
  rw [Envelope.read_of_parsed hbytes]
  constructor
  · intro hread path hmark hlost
    obtain ⟨refused, -, hrefused⟩ := hboth.2 path hmark hlost
    exact hread ⟨_, refused, hrefused⟩
  · intro hclear hread
    obtain ⟨typeName, refused, hrefused⟩ := hread
    rw [hboth.1 hclear] at hrefused
    cases hrefused

/-! ## A critical member in a time -/

/-- The members of the times a curve gives. -/
def curvesMembers : List (Member (Shape Int)) := [
  ⟨"document", .optional, .whole fun _ => true⟩,
  ⟨"lasts", .optional, .object spanParts⟩,
  ⟨"recharge", .optional, .object spanParts⟩]

/-- A time with a critical member its type does not define. -/
def scopedSpan : Raw Int :=
  .object [("duration", .other (.number (.int 60)) rfl), ("margin", .other (.number (.int 1)) rfl),
    ("SCOPE", .other .null isScalar_null)]

/-- The times of a curve, one of them so. -/
def scopedCurves : List (String × Raw Int) :=
  [("type", .other (.string "curves") rfl), ("lasts", scopedSpan)]

/-- Its text. -/
def scopedText : String :=
  "\x7b\"type\":\"curves\",\"lasts\":\x7b\"duration\":60,\"margin\":1,\"SCOPE\":null\x7d\x7d"

/-- A JSON reader that knows it. -/
def scopedReader (text : String) : Except String (Raw Int) :=
  if text = scopedText then .ok (.object scopedCurves) else .error "expected value"

theorem parsed_scoped : Parsed scopedReader scopedText.toByteArray (.object scopedCurves) :=
  ⟨_, Envelope.fromUTF8?_toByteArray _, if_pos rfl⟩

/-- A text in lower case. -/
theorem toLower_eq {s lowered : String} (h : s.toList.map Char.toLower = lowered.toList) :
    s.toLower = lowered := by
  apply String.toList_inj.mp
  rw [String.toLower, String.toList_map, h]

theorem reads_scoped : Reads plainFormats curvesMembers scopedCurves
    (.curves none (some { duration := some 60, margin := some 1 }) none) := by
  have htype : "type".toLower = "type" := toLower_eq (by decide)
  have hlasts : "lasts".toLower = "lasts" := toLower_eq (by decide)
  have hduration : "duration".toLower = "duration" := toLower_eq (by decide)
  have hmargin : "margin".toLower = "margin" := toLower_eq (by decide)
  have hscope : "SCOPE".toLower = "scope" := toLower_eq (by decide)
  have hvalue : Json.collect (Envelope.entriesValue scopedCurves) =
      [("lasts", .object [("duration", .number (.int 60)), ("margin", .number (.int 1)),
        ("scope", .null)]), ("type", .string "curves")] := by
    have hentries : Envelope.entriesValue scopedCurves = [("type", .string "curves"),
        ("lasts", .object (Json.collect [("duration", .number (.int 60)),
          ("margin", .number (.int 1)), ("scope", .null)]))] := by
      simp [scopedCurves, scopedSpan, Raw.value, Envelope.entriesValue, Envelope.entryValue, htype,
        hlasts, hduration, hmargin, hscope]
    rw [hentries]
    rfl
  constructor
  · simp [Raw.WellNamed, scopedCurves, scopedSpan, Envelope.EntriesWellNamed,
      Envelope.EntryWellNamed, htype, hlasts, hduration, hmargin, hscope,
      show Envelope.classify "type" = some false by decide,
      show Envelope.classify "lasts" = some false by decide,
      show Envelope.classify "duration" = some false by decide,
      show Envelope.classify "margin" = some false by decide,
      show Envelope.classify "SCOPE" = some true by decide]
  · rw [hvalue]
    rfl
  · decide
  · rfl
  · exact trivial
  · rw [hvalue]
    rfl

/-- A message is refused exactly where the message itself carries a critical member its type does
not define, if it carries one besides any lost otherwise, and only then. -/
theorem refused_on_top {fromStr : String → Except String (Raw φ)} {bytes : ByteArray}
    {entries : List (String × Raw φ)} {message : Message φ Date}
    (hbytes : Parsed fromStr bytes (.object entries))
    (hreads : Reads formats members entries message) :
    (Refused formats fromStr bytes ↔ OnTop members entries) ↔
      (LeftOut members entries ∨ InPart members entries → OnTop members entries) := by
  rw [refused_iff hbytes hreads]
  constructor
  · intro hexact hlost
    exact hexact.mp (.inr hlost)
  · intro hbesides
    refine ⟨fun hany => ?_, .inl⟩
    rcases hany with htop | hlost
    · exact htop
    · exact hbesides hlost

/-- Where a time holds one, it is for that. -/
theorem refused_on_top_curves :
    (Refused plainFormats scopedReader scopedText.toByteArray ↔ OnTop curvesMembers scopedCurves) ↔
      (LeftOut curvesMembers scopedCurves ∨ InPart curvesMembers scopedCurves →
        OnTop curvesMembers scopedCurves) :=
  refused_on_top parsed_scoped reads_scoped

/-- A message is refused for a critical member in an object within it, though it carries none
itself. -/
theorem refused_within :
    Refused plainFormats scopedReader scopedText.toByteArray ∧
      ¬ OnTop curvesMembers scopedCurves := by
  constructor
  · refine (refused_iff parsed_scoped reads_scoped).mpr (.inr (.inr ?_))
    refine ⟨("lasts", scopedSpan), by simp [scopedCurves], ⟨"lasts", .optional, .object spanParts⟩,
      by simp [curvesMembers], (toLower_eq (by decide)).symm, by simp [scopedSpan, Member.null,
        Raw.value, Json.isNull], _, rfl, ("SCOPE", .other .null isScalar_null), by simp, .inl ⟨by decide, ?_⟩⟩
    intro part hpart hname
    have hscope : "SCOPE".toLower = "scope" := toLower_eq (by decide)
    rw [hscope] at hname
    simp only [spanParts, List.mem_cons, List.not_mem_nil, or_false] at hpart
    rcases hpart with rfl | rfl
    · exact absurd hname (by decide)
    · exact absurd hname (by decide)
  · intro htop
    obtain ⟨entry, hin, hmark, -⟩ := htop
    simp only [scopedCurves, List.mem_cons, List.not_mem_nil, or_false] at hin
    rcases hin with rfl | rfl
    · exact absurd hmark (by decide)
    · exact absurd hmark (by decide)

end Bliti.Channel.Messages
