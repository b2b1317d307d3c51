import Bliti.Library.Fallible
import Bliti.Network.Session.Held

/-!
# The configuration session - the store

The file the held configuration is recorded in: the raw document a client
proposed, how its verification went, why it failed where it did, and what it
replaced while it is being verified.
-/

namespace Bliti.Network.Session

open Channel.Config

variable {φ : Type}

namespace Stored

/-- What the file holds of a record. -/
def toJson (stored : Stored φ) : Json φ :=
  let file := Json.insert [] "document" (.object stored.document)
  let file := Json.insert file "outcome" (.string stored.outcome.asStr)
  let file :=
    match stored.failure with
    | some failure => Json.insert file "failure" (.object failure.toMap)
    | none => file
  let file :=
    match stored.replaced with
    | some replaced => Json.insert file "replaced" (.object replaced)
    | none => file
  .object file

/-- A member of the file that is an object, where it is there. -/
def objectMember (file : Json.Map φ) (member : String) :
    Except String (Option (Json.Map φ)) :=
  match Json.get file member with
  | some (.object object) => .ok (some object)
  | none => .ok none
  | some _ => .error ("`" ++ member ++ "` is not an object")

/-- Read a record from what the file holds. -/
def fromJson : Json φ → Except String (Stored φ)
  | .object file => do
      let document ←
        match ← objectMember file "document" with
        | some document => pure document
        | none => .error "no `document`"
      let failure ←
        match ← objectMember file "failure" with
        | some failure => do pure (some (← Failure.read failure))
        | none => pure none
      let replaced ← objectMember file "replaced"
      let outcome ←
        match Json.get file "outcome" with
        | some (.string outcome) => Outcome.read outcome
        | _ => .error "no `outcome`"
      pure {
        document := document
        outcome := outcome
        failure := failure
        replaced := replaced }
  | _ => .error "not an object"

/-- A record is read back as it was made. -/
@[simp]
theorem fromJson_toJson (stored : Stored φ) : fromJson stored.toJson = .ok stored := by
  obtain ⟨document, outcome, failure, replaced⟩ := stored
  cases failure <;> cases replaced <;>
    simp [fromJson, toJson, objectMember, Json.get, bind, Except.bind, pure, Except.pure]

end Stored

/-- What the file holds: JSON, or what is not. -/
abbrev File (φ : Type) := Except String (Json φ)

/-- What was last recorded, or none where nothing ever was.  The file may also be
one that cannot be read. -/
def load (file : Option (File φ)) (unreadable : Option String) :
    Except String (Option (Stored φ)) :=
  match unreadable, file with
  | some err, _ => .error err
  | none, none => .ok none
  | none, some file => do pure (some (← Stored.fromJson (← file)))

/-- What was recorded loads. -/
@[simp]
theorem load_recorded (stored : Stored φ) :
    load (some (.ok stored.toJson)) none = .ok (some stored) := by
  simp [load, bind, Except.bind, pure, Except.pure]

end Bliti.Network.Session
