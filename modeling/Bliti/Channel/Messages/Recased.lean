import Bliti.Channel.Envelope.Recased
import Bliti.Channel.Messages.Shape.Types
import Bliti.Channel.Messages.Written

/-!
# The message set - messages in another case

A message of a type nothing is pinned on, each of whose members the type defines, with its
names put in another case.  It is read as the same message but where a name in upper case is
of a member that may be left out and is sent as null: the message written again lacks it, so
it is taken for one that is not known.

Main results:

- Theorem `read_recased`: when a message is read the same in another case.
-/

namespace Bliti.Channel.Messages

open Envelope (Defined Kept Member Parsed Raw)
open Message (plainFormats)

variable {φ Date : Type} {formats : Formats φ Date}

/-! ## What a shape defines -/

/-- The members of a value are among the parts it may have. -/
def partsDefined (parts : List (Member (Json φ → Bool))) : Json φ → Prop
  | .object held => Defined (fun _ _ => True) parts held
  | _ => True

/-- The paths of the parts of a value sent as null for left out. -/
def partsNulls (path : String) (parts : List (Member (Json φ → Bool))) : Json φ → List String
  | .object held => Envelope.nulls (fun _ _ _ => []) path parts held
  | _ => []

/-- The members of a value are ones its shape defines; a value kept whole is as it likes. -/
def Shape.defined : Shape φ → Json φ → Prop
  | .object parts, value => partsDefined parts value
  | .records parts, .array items => ∀ item ∈ items, partsDefined parts item
  | _, _ => True

/-- The paths of the members of a value sent as null for left out. -/
def Shape.nulls (path : String) : Shape φ → Json φ → List String
  | .object parts, value => partsNulls path parts value
  | .records parts, .array items => items.zipIdx.flatMap fun item =>
      partsNulls (Envelope.below path (toString item.2)) parts item.1
  | _, _ => []

/-- The paths of the members of a message sent as null for left out. -/
def nullPaths (members : List (Member (Shape φ))) (object : Json.Map φ) : List String :=
  Envelope.nulls Shape.nulls "" members object

/-! ## What does not come back -/

/-- Nothing is unknown of a value with nothing below it, or that comes back as it was. -/
theorem not_mem_collectUnknown_whole {value again : Json φ} {path p : String}
    (hordered : value.EveryObject Json.Ascending) (hfollows : wholeFollows value again) :
    p ∉ Envelope.collectUnknown path ∅ again value := by
  rcases hfollows with rfl | hscalar
  · rw [Envelope.collectUnknown_self _ hordered]
    simp
  · cases value with
    | array items => cases hscalar
    | object members => cases hscalar
    | _ => simp [Envelope.collectUnknown]

/-- What does not come back of an object read part by part are its parts sent as null for left
out. -/
theorem mem_collectUnknown_parts {parts : List (Member (Json φ → Bool))} {value again : Json φ}
    {path p : String} (hordered : value.EveryObject Json.Ascending)
    (hdefined : partsDefined parts value) (hfollows : partsFollow parts value again) :
    p ∈ Envelope.collectUnknown path ∅ again value ↔ p ∈ partsNulls path parts value := by
  obtain ⟨round, rfl, hround⟩ := hfollows
  cases value with
  | object held =>
      rw [Json.everyObject_object] at hordered
      have hheld : Defined (fun _ _ => True) parts held := hdefined
      have hnulls : partsNulls path parts (.object held) =
          Envelope.nulls (fun _ _ _ => []) path parts held := rfl
      rw [hnulls]
      apply Envelope.mem_collectUnknown_object hordered.1.nodup hheld (hround held rfl)
      intro part _ value again path hmember _ hfollows
      exact iff_of_false (not_mem_collectUnknown_whole (hordered.2 _ hmember) hfollows) (by simp)
  | _ => simp [Envelope.collectUnknown, partsNulls]

/-- What is at a place in a list is beside what is there in another. -/
theorem getElem?_of_forall₂ {α β : Type} {related : α → β → Prop} {items : List α}
    {others : List β} (hall : List.Forall₂ related items others) {i : Nat} {a : α}
    (hfound : items[i]? = some a) : ∃ b, others[i]? = some b ∧ related a b := by
  obtain ⟨hi, rfl⟩ := List.getElem?_eq_some_iff.mp hfound
  have hother : i < others.length := hall.length_eq ▸ hi
  exact ⟨others[i], List.getElem?_eq_getElem hother, hall.get hi hother⟩

/-- What does not come back of a value of a shape are its members sent as null for left out. -/
theorem mem_collectUnknown_shape {shape : Shape φ} {value again : Json φ} {path p : String}
    (hordered : value.EveryObject Json.Ascending) (hdefined : shape.defined value)
    (hfollows : shape.follows value again) :
    p ∈ Envelope.collectUnknown path ∅ again value ↔ p ∈ shape.nulls path value := by
  cases shape with
  | whole takes =>
      exact iff_of_false (not_mem_collectUnknown_whole hordered hfollows) (by simp [Shape.nulls])
  | object parts => exact mem_collectUnknown_parts hordered hdefined hfollows
  | records parts =>
      obtain ⟨items, rounds, rfl, rfl, hall⟩ := hfollows
      rw [Json.everyObject_array] at hordered
      rw [Envelope.collectUnknown, Envelope.mem_unknownItems, Shape.nulls, List.mem_flatMap]
      simp only [Nat.zero_add]
      constructor
      · intro hlost
        obtain ⟨i, item, again, hitem, hagain, hlost⟩ := hlost
        have hmember := List.mem_of_getElem? hitem
        obtain ⟨found, hfound, hfollows⟩ := getElem?_of_forall₂ hall hitem
        rw [hagain] at hfound
        cases hfound
        exact ⟨(item, i), List.mk_mem_zipIdx_iff_getElem?.mpr hitem,
          (mem_collectUnknown_parts (hordered item hmember) (hdefined item hmember) hfollows).mp
            hlost⟩
      · intro hnull
        obtain ⟨⟨item, i⟩, hindex, hnull⟩ := hnull
        have hitem := List.mk_mem_zipIdx_iff_getElem?.mp hindex
        have hmember := List.mem_of_getElem? hitem
        obtain ⟨again, hagain, hfollows⟩ := getElem?_of_forall₂ hall hitem
        exact ⟨i, item, again, hitem, hagain,
          (mem_collectUnknown_parts (hordered item hmember) (hdefined item hmember) hfollows).mpr
            hnull⟩

/-- A message read of an object is written again as each member of its type follows. -/
theorem follows_toMap {typeName : String} {members : List (Member (Shape φ))}
    {object : Json.Map φ} {message : Message φ Date}
    (htype : Json.get object "type" = some (.string typeName)) (hknown : typeName ∈ knownTypes)
    (hmembers : (shapes formats).lookup typeName = some members)
    (hread : Message.fromMap formats object = .ok message) :
    ∀ member ∈ textMember "type" :: members, member.Follows Shape.follows object
      (Json.get (message.toMap formats) member.name) := by
  rw [List.forall_mem_cons]
  constructor
  · intro value hvalue
    rw [textMember, htype] at hvalue
    cases hvalue
    exact ⟨.string message.typeName, Message.get_type, Or.inr rfl⟩
  · obtain ⟨found, hfound, htaken⟩ := fromMap_taken formats hknown htype
    rw [hmembers] at hfound
    cases hfound
    exact htaken.get_follows hread fun _ hwritten => Message.get_toMap hwritten

/-- What does not come back of a message read of an object that is all defined are its members sent
as null for left out. -/
theorem mem_collectUnknown_message {typeName p : String} {members : List (Member (Shape φ))}
    {object : Json.Map φ} {message : Message φ Date}
    (hordered : (Json.object object).EveryObject Json.Ascending)
    (htype : Json.get object "type" = some (.string typeName)) (hknown : typeName ∈ knownTypes)
    (hmembers : (shapes formats).lookup typeName = some members)
    (hdefined : Defined Shape.defined (textMember "type" :: members) object)
    (hread : Message.fromMap formats object = .ok message) :
    p ∈ Envelope.collectUnknown "" ∅ (.object (message.toMap formats)) (.object object) ↔
      p ∈ nullPaths members object := by
  have htyped : nullPaths members object = nullPaths (textMember "type" :: members) object := by
    unfold nullPaths Envelope.nulls
    rw [List.flatMap_cons, textMember]
    simp [htype, Member.null, Shape.nulls]
  have hfollows := follows_toMap htype hknown hmembers hread
  rw [htyped]
  rw [Json.everyObject_object] at hordered
  apply Envelope.mem_collectUnknown_object hordered.1.nodup hdefined hfollows
  intro member _ value again path hmember hdefined hfollows
  exact mem_collectUnknown_shape (hordered.2 _ hmember) hdefined hfollows

/-! ## Messages in another case -/

/-- A message of a type nothing is pinned on, its names well formed, its members as the type takes
them and at every depth ones the type defines. -/
structure Spoken (formats : Formats φ Date) (raw : Raw φ) (object : Json.Map φ)
    (members : List (Member (Shape φ))) : Prop where
  names : raw.WellNamed
  lowered : raw.value = .object object
  typed : ∃ typeName, Json.get object "type" = some (.string typeName) ∧
    typeName ∈ knownTypes ∧ criticality typeName = .unconstrained ∧
    (shapes formats).lookup typeName = some members
  met : ∀ member ∈ members, member.met Shape.takes object = true
  defined : Defined Shape.defined (textMember "type" :: members) object

namespace Spoken

variable {raw other : Raw φ} {object : Json.Map φ} {members : List (Member (Shape φ))}

/-- In another case it is spoken as well, of the same object. -/
theorem recased (hspoken : Spoken formats raw object members) (hrecased : raw.Recased other) :
    Spoken formats other object members := by
  obtain ⟨hnames, hvalue⟩ := Envelope.recased_value hrecased hspoken.names
  exact {
    names := hnames
    lowered := hvalue.trans hspoken.lowered
    typed := hspoken.typed
    met := hspoken.met
    defined := hspoken.defined }

/-- One message is read of it wherever it is read as a message, which is where no name in upper
case is of a member sent as null for left out. -/
theorem message (hspoken : Spoken formats raw object members) :
    ∃ message, Message.fromMap formats object = .ok message ∧
      ∀ raw, Spoken formats raw object members → ∀ found,
        Envelope.readRaw (messages formats) raw = .ok (.message found) ↔
          found = message ∧ ∀ path ∈ raw.marks "", path ∉ nullPaths members object := by
  obtain ⟨typeName, htype, hknown, hfree, hmembers⟩ := hspoken.typed
  obtain ⟨message, hread⟩ := (fromMap_iff hknown htype).mpr ⟨members, hmembers, hspoken.met⟩
  refine ⟨message, hread, fun raw hraw found => ?_⟩
  rw [Envelope.readRaw_message_iff hraw.names hraw.lowered htype hknown hfree hread]
  have hordered : (Json.object object).EveryObject Json.Ascending :=
    hraw.lowered ▸ Envelope.value_ascending raw
  have hlost : ∀ path, path ∈ Envelope.collectUnknown "" ∅
      (.object (message.toMap formats)) (.object object) ↔ path ∈ nullPaths members object :=
    fun path => mem_collectUnknown_message hordered htype hknown hmembers hraw.defined hread
  simp only [messages, hlost]

end Spoken

/-- A message of a type nothing is pinned on, all of whose members the type defines, is read as one
message in either case exactly where no name in upper case, in the one or the other, is of a member
that may be left out and is sent as null. -/
theorem read_recased {fromStr : String → Except String (Raw φ)} {bytes others : ByteArray}
    {raw other : Raw φ} {object : Json.Map φ} {members : List (Member (Shape φ))}
    (hspoken : Spoken formats raw object members) (hrecased : raw.Recased other)
    (hbytes : Parsed fromStr bytes raw) (hothers : Parsed fromStr others other) :
    (∃ message, Envelope.read (messages formats) fromStr bytes = .ok (.message message) ∧
        Envelope.read (messages formats) fromStr others = .ok (.message message)) ↔
      ∀ path ∈ nullPaths members object, path ∉ raw.marks "" ∧ path ∉ other.marks "" := by
  obtain ⟨message, -, hread⟩ := hspoken.message
  rw [Envelope.read_of_parsed hbytes, Envelope.read_of_parsed hothers]
  simp only [hread raw hspoken, hread other (hspoken.recased hrecased)]
  constructor
  · intro hsame path hnull
    obtain ⟨found, ⟨-, hraw⟩, -, hother⟩ := hsame
    exact ⟨fun hmark => hraw path hmark hnull, fun hmark => hother path hmark hnull⟩
  · intro hclear
    exact ⟨message, ⟨rfl, fun path hmark hnull => (hclear path hnull).1 hmark⟩,
      rfl, fun path hmark hnull => (hclear path hnull).2 hmark⟩

/-! ## A scan in either case -/

/-- A scan, its interface under a name. -/
def scanned (name : String) (value : Json Int) (hscalar : value.isScalar = true) : Raw Int :=
  .object [(name, .other value hscalar), ("type", .other (.string "scan") rfl)]

/-- The text of a scan, its interface under a name. -/
def scanText (name shown : String) : String :=
  "\x7b\"" ++ name ++ "\":" ++ shown ++ ",\"type\":\"scan\"\x7d"

/-- A JSON reader that knows the text of a scan in lower case and in upper case. -/
def scanReader (shown : String) (value : Json Int) (hscalar : value.isScalar = true)
    (text : String) : Except String (Raw Int) :=
  if text = scanText "interface" shown then .ok (scanned "interface" value hscalar)
  else if text = scanText "INTERFACE" shown then .ok (scanned "INTERFACE" value hscalar)
  else .error "expected value"

variable {shown : String} {value : Json Int} {hscalar : value.isScalar = true}

/-- It reads the text in lower case. -/
theorem parsed_lower : Parsed (scanReader shown value hscalar)
    (scanText "interface" shown).toByteArray (scanned "interface" value hscalar) :=
  ⟨_, Envelope.fromUTF8?_toByteArray _, if_pos rfl⟩

/-- It reads the text in upper case. -/
theorem parsed_upper : Parsed (scanReader shown value hscalar)
    (scanText "INTERFACE" shown).toByteArray (scanned "INTERFACE" value hscalar) := by
  have hother : scanText "INTERFACE" shown ≠ scanText "interface" shown := by
    intro hsame
    have hlist := congrArg (fun text => text.toList[2]?) hsame
    simp [scanText] at hlist
  exact ⟨_, Envelope.fromUTF8?_toByteArray _, (if_neg hother).trans (if_pos rfl)⟩

/-- The letters of a name in upper case. -/
theorem toUpper_interface : "interface".toUpper = "INTERFACE" := by
  apply String.toList_inj.mp
  rw [String.toUpper, String.toList_map]
  decide

/-- A scan in upper case is one in lower case with its names in another case. -/
theorem recased_scanned :
    (scanned "interface" value hscalar).Recased (scanned "INTERFACE" value hscalar) :=
  .object (.cons (.inr toUpper_interface.symm) (.other _ _) (.cons (.inl (by
    rw [Envelope.toLower_of_plain (by decide)])) (.other _ _) .nil))

/-- The interface of a scan in upper case is marked. -/
theorem marks_scanned (hnames : (scanned "INTERFACE" value hscalar).WellNamed) :
    "interface" ∈ (scanned "INTERFACE" value hscalar).marks "" := by
  have hlower : "INTERFACE".toLower = "interface" :=
    toUpper_interface ▸ (Envelope.classify_toUpper (by decide)).2.trans
      (Envelope.toLower_of_plain (by decide))
  have hcritical : Envelope.classify "INTERFACE" = some true := by decide
  rw [scanned, Raw.WellNamed] at hnames
  rw [scanned, Raw.marks, Envelope.mem_entriesMarks hnames.2 (by decide)]
  exact ⟨_, List.mem_cons_self, hcritical, hlower⟩

/-- A scan of an interface that is a text, or sent as null for none, is one its type defines. -/
theorem spoken_scanned (hmet : (optionalText "interface").met Shape.takes
      [("interface", value), ("type", .string "scan")] = true) :
    Spoken plainFormats (scanned "interface" value hscalar)
      [("interface", value), ("type", .string "scan")] [optionalText "interface"] := by
  have hjson : scanned "interface" value hscalar =
      Raw.ofJson (.object [("interface", value), ("type", .string "scan")]) := by
    cases value with
    | array items => cases hscalar
    | object members => cases hscalar
    | _ => rfl
  have hvalue : Kept value := Envelope.everyObject_scalar hscalar
  have hkept : Kept (.object [("interface", value), ("type", .string "scan")]) :=
    Envelope.kept_object ["interface", "type"] rfl (by decide) (by simpa using hvalue)
  obtain ⟨hnames, hlowered⟩ := Envelope.ofJson_wellNamed hkept
  exact {
    names := hjson ▸ hnames
    lowered := hjson ▸ hlowered
    typed := ⟨"scan", rfl, by simp [knownTypes], rfl, rfl⟩
    met := by simpa using hmet
    defined := by simp [Defined, textMember, optionalText, Shape.defined] }

/-- A scan of an interface is read the same in upper case. -/
theorem read_recased_scan :
    ∃ message, Envelope.read (messages plainFormats) (scanReader "\"wlan0\"" (.string "wlan0") rfl)
        (scanText "interface" "\"wlan0\"").toByteArray = .ok (.message message) ∧
      Envelope.read (messages plainFormats) (scanReader "\"wlan0\"" (.string "wlan0") rfl)
        (scanText "INTERFACE" "\"wlan0\"").toByteArray = .ok (.message message) := by
  have hspoken : Spoken plainFormats (scanned "interface" (.string "wlan0") rfl) _ _ :=
    spoken_scanned (by decide)
  exact (read_recased hspoken recased_scanned parsed_lower parsed_upper).mpr
    (by simp [nullPaths, Envelope.nulls, optionalText, Member.null, Json.get, Json.isNull,
      Shape.nulls])

/-- A scan of no interface, sent as null, is not read the same in upper case. -/
theorem not_read_recased_null :
    ¬ ∀ (fromStr : String → Except String (Raw Int)) (bytes others : ByteArray)
      (raw other : Raw Int) (object : Json.Map Int) (members : List (Member (Shape Int))),
      Spoken plainFormats raw object members → raw.Recased other →
      Parsed fromStr bytes raw → Parsed fromStr others other →
      ∃ message, Envelope.read (messages plainFormats) fromStr bytes = .ok (.message message) ∧
        Envelope.read (messages plainFormats) fromStr others = .ok (.message message) := by
  intro hall
  have hspoken : Spoken plainFormats (scanned "interface" .null rfl) _ _ :=
    spoken_scanned (by decide)
  have hupper := hspoken.recased recased_scanned
  obtain ⟨message, -, hread⟩ := hall (scanReader "null" .null rfl) _ _ _ _ _ _ hspoken
    recased_scanned parsed_lower parsed_upper
  obtain ⟨_, -, hmessage⟩ := hspoken.message
  have hraw := (Envelope.read_of_parsed parsed_upper).symm.trans hread
  refine ((hmessage _ hupper message).mp hraw).2 "interface" ?_ ?_
  · exact marks_scanned hupper.names
  · simp [nullPaths, Envelope.nulls, optionalText, Member.null, Json.get, Json.isNull,
      Envelope.below]

end Bliti.Channel.Messages
