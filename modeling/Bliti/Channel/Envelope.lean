import Bliti.Json
import Bliti.Library.Fallible
import Mathlib.Data.String.Basic
import Std.Data.ExtTreeSet.Lemmas

/-!
# The message envelope

How a message is shaped, named and read.  A message is a JSON object carrying a
`type`, and the case of a member's name says what a receiver that does not know it
does: an upper case name is critical, a lower case one is passed over.  What the JSON
reader makes of a text is left to a parameter.
-/

namespace Bliti.Channel.Envelope

open Std (ExtTreeSet)

variable {φ T : Type}

/-! ## Sets of messages -/

/-- What is required of criticality on a message type. -/
inductive Criticality where
  | unconstrained
  | exactly (members : List String)
deriving DecidableEq, Repr

/-- A set of message types that can be read from the wire. -/
structure MessageSet (φ T : Type) where
  knownTypes : List String
  criticality : String → Criticality
  criticalMembers : String → List String
  toValue : T → Json φ
  fromValue : Json φ → Except String T

/-- Whether a set has the named message type. -/
def MessageSet.knows (set : MessageSet φ T) (typeName : String) : Bool :=
  set.knownTypes.contains typeName

/-- The paths of members within a message. -/
abbrev Paths := ExtTreeSet String

/-! ## What reading yields -/

/-- Why a message was passed over. -/
inductive Skip where
  | unknownType (name : String)
deriving DecidableEq, Repr

/-- Why a message was not acted on, though its sender spoke the protocol. -/
inductive Refusal where
  | criticalType (name : String)
  | criticalMembers (typeName : String) (members : List String)
deriving DecidableEq, Repr

/-- What reading one message yielded. -/
inductive Reading (T : Type) where
  | message (message : T)
  | skipped (skip : Skip)
  | refused (refusal : Refusal)
deriving DecidableEq, Repr

/-- A peer that is not speaking the protocol. -/
inductive Fault where
  | notUtf8
  | notJson (detail : String)
  | notObject
  | malformedName (name : String)
  | duplicateName (name : String)
  | noType
  | typeNotString
  | criticalNotAllowed (typeName names : String)
  | criticalRequired (typeName names : String)
  | malformed (typeName detail : String)
deriving DecidableEq, Repr

/-! ## Names -/

/-- Whether a member name is well formed, and whether it is critical. -/
def classify (name : String) : Option Bool :=
  if name.isEmpty then none
  else if !name.toList.all (fun c => c.isAlphanum || c == '-') then none
  else
    match name.toList.any Char.isLower, name.toList.any Char.isUpper with
    | true, true => none
    | _, upper => some upper

/-- The path of a member or an item below the one at a path. -/
def below (path name : String) : String :=
  if path.isEmpty then name else path ++ "." ++ name

/-- JSON as it arrived, with every member in the order and the casing it was written in. -/
inductive Raw (φ : Type) where
  | object (entries : List (String × Raw φ))
  | array (items : List (Raw φ))
  | other (value : Json φ) (hscalar : value.isScalar = true)

mutual

/-- Check every member name, lower case it and record the paths of those critical. -/
def normalise (path : String) (critical : Paths) : Raw φ → Except Fault (Json φ × Paths)
  | .object entries => do
      let (object, critical) ← normaliseEntries path critical ∅ [] entries
      pure (.object object, critical)
  | .array items => do
      let (out, critical) ← normaliseItems path critical 0 items
      pure (.array out, critical)
  | .other value _ => .ok (value, critical)
termination_by structural raw => raw

/-- Check the entries of an object from one on, those before it seen and set. -/
def normaliseEntries (path : String) (critical : Paths) (seen : ExtTreeSet String)
    (object : Json.Map φ) : List (String × Raw φ) → Except Fault (Json.Map φ × Paths)
  | [] => .ok (object, critical)
  | entry :: rest => do
      let (lowered, value, critical) ← normaliseEntry path critical seen entry
      normaliseEntries path critical (seen.insert lowered) (Json.insert object lowered value) rest
termination_by structural entries => entries

/-- Check one entry of an object. -/
def normaliseEntry (path : String) (critical : Paths) (seen : ExtTreeSet String) :
    String × Raw φ → Except Fault (String × Json φ × Paths)
  | (name, raw) =>
      match classify name with
      | none => .error (.malformedName name)
      | some isCritical =>
          let lowered := name.toLower
          if lowered ∈ seen then .error (.duplicateName lowered)
          else do
            let (value, critical) ← normalise (below path lowered)
              (if isCritical then critical.insert (below path lowered) else critical) raw
            pure (lowered, value, critical)
termination_by structural entry => entry

/-- Check the items of an array from a position on. -/
def normaliseItems (path : String) (critical : Paths) (index : Nat) :
    List (Raw φ) → Except Fault (List (Json φ) × Paths)
  | [] => .ok ([], critical)
  | item :: rest => do
      let (value, critical) ← normalise (below path (toString index)) critical item
      let (others, critical) ← normaliseItems path critical (index + 1) rest
      pure (value :: others, critical)
termination_by structural items => items

end

mutual

/-- Collect the paths of members the input carried that the round trip does not. -/
def collectUnknown (path : String) (out : Paths) (round : Json φ) : Json φ → Paths
  | .object input =>
      match round with
      | .object round => unknownMembers path out round input
      | _ => out
  | .array input =>
      match round with
      | .array round => unknownItems path out round 0 input
      | _ => out
  | _ => out
termination_by structural input => input

/-- Collect those of the members of an object. -/
def unknownMembers (path : String) (out : Paths) (round : Json.Map φ) : Json.Map φ → Paths
  | [] => out
  | member :: rest => unknownMembers path (unknownMember path out round member) round rest
termination_by structural input => input

/-- Collect those of one member. -/
def unknownMember (path : String) (out : Paths) (round : Json.Map φ) : String × Json φ → Paths
  | (name, value) =>
      match Json.get round name with
      | none => out.insert (below path name)
      | some round => collectUnknown (below path name) out round value
termination_by structural member => member

/-- Collect those of the items of an array from a position on. -/
def unknownItems (path : String) (out : Paths) (round : List (Json φ)) (index : Nat) :
    List (Json φ) → Paths
  | [] => out
  | item :: rest =>
      let out :=
        match round[index]? with
        | none => out
        | some round => collectUnknown (below path (toString index)) out round item
      unknownItems path out round (index + 1) rest
termination_by structural input => input

end

/-! ## Reading and writing -/

/-- Whether what is critical on a message is what its type is held to.  A member absent
altogether is left to the parse, which says it is missing. -/
def checkPinned (typeName : String) (object : Json.Map φ) (critical : Paths) :
    Criticality → Except Fault Unit
  | .unconstrained => .ok ()
  | .exactly required =>
      let surplus := critical.toList.filter fun name => !required.contains name
      let plain := required.filter fun name =>
        (Json.get object name).isSome && !critical.contains name
      if !surplus.isEmpty then
        .error (.criticalNotAllowed typeName (", ".intercalate surplus))
      else if !plain.isEmpty then .error (.criticalRequired typeName (", ".intercalate plain))
      else .ok ()

/-- Read a message of a known type.  Whatever the input carried that the round trip does not is
a member this build does not know, and only the critical ones stop the message. -/
def readKnown (set : MessageSet φ T) (typeName : String) (object : Json.Map φ)
    (critical : Paths) : Except Fault (Reading T) := do
  checkPinned typeName object critical (set.criticality typeName)
  let message ← (set.fromValue (.object object)).mapError (Fault.malformed typeName)
  let unknown := collectUnknown "" ∅ (set.toValue message) (.object object)
  let refused := critical.toList.filter fun path => path ∈ unknown
  if refused.isEmpty then pure (.message message)
  else pure (.refused (.criticalMembers typeName refused))

/-- Read a message whose names are checked. -/
def readNormalised (set : MessageSet φ T) (value : Json φ) (critical : Paths) :
    Except Fault (Reading T) :=
  match value with
  | .object object =>
      match Json.get object "type" with
      | none => .error .noType
      | some (.string typeName) =>
          if set.knows typeName then readKnown set typeName object critical
          else if "type" ∈ critical then .ok (.refused (.criticalType typeName))
          else .ok (.skipped (.unknownType typeName))
      | some _ => .error .typeNotString
  | _ => .error .notObject

/-- Read one message as it arrived. -/
def readRaw (set : MessageSet φ T) (raw : Raw φ) : Except Fault (Reading T) := do
  let (value, critical) ← normalise "" ∅ raw
  readNormalised set value critical

/-- Read one message off a stream, given what the JSON reader makes of a text. -/
def read (set : MessageSet φ T) (fromStr : String → Except String (Raw φ)) (bytes : ByteArray) :
    Except Fault (Reading T) :=
  match String.fromUTF8? bytes with
  | none => .error .notUtf8
  | some text => do
      let raw ← (fromStr text).mapError Fault.notJson
      readRaw set raw

/-- A member put in upper case, where an object carries it. -/
def upperCased (object : Json.Map φ) (name : String) : Json.Map φ :=
  match Json.get object name with
  | some member => Json.insert (Json.remove object name) name.toUpper member
  | none => object

/-- A message as it goes on a stream, its critical members in upper case. -/
def written (set : MessageSet φ T) (message : T) : Json φ :=
  let value := set.toValue message
  match value with
  | .object object =>
      let typeName := ((Json.get object "type").bind Json.asStr).getD ""
      .object ((set.criticalMembers typeName).foldl upperCased object)
  | value => value

/-- Write a message as the bytes that go on a stream. -/
def write [ToString φ] (set : MessageSet φ T) (message : T) : ByteArray :=
  (written set message).text.toByteArray

/-- The paths of members of a message that do not survive being written and read. -/
def roundTripOmissions (set : MessageSet φ T) (message : T) : List String :=
  match set.fromValue (set.toValue message) with
  | .error _ => ["<does not round trip>"]
  | .ok parsed =>
      (collectUnknown "" ∅ (set.toValue parsed) (set.toValue message)).toList

end Bliti.Channel.Envelope
