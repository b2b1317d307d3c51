import Bliti.Channel.Config.Parse
import Bliti.Channel.Config.Write

/-!
# Readings - one shape for what a device reports of itself

A fact or a reading: what it is against a catalogue, what it is about in its traits,
and a value of some kind.  Traits and value are kept raw, as they arrived.
-/

namespace Bliti.Channel.Readings

variable {φ : Type}

/-- The trait that says how a datum stands. -/
def statusTrait : String := "status"

/-- The trait that marks a reading's scale. -/
def limitsTrait : String := "limits"

/-- The entries told apart by their value as well, being one of several held at once. -/
def toldApartByValue : List String := ["network-address"]

/-- One fact or reading; the message type says which catalogue names it. -/
structure Entry (φ : Type) where
  atMillis : UInt64
  name : String
  traits : Json.Map φ
  kind : String
  unit : Option String
  value : Option (Json φ)

/-- How a datum stands. -/
inductive Status where
  | passed
  | warning
  | failed
  | skipped
  | broken
  | ended
deriving DecidableEq, Repr

namespace Status

/-- The status on the wire. -/
def asStr : Status → String
  | .passed => "passed"
  | .warning => "warning"
  | .failed => "failed"
  | .skipped => "skipped"
  | .broken => "broken"
  | .ended => "ended"

/-- Whether a value accompanies a status. -/
def carriesValue : Status → Bool
  | .passed | .warning | .failed => true
  | _ => false

end Status

namespace Entry

/-- An entry with its status set, and its value left out where none accompanies it. -/
def setStatus (entry : Entry φ) (status : Status) (reason : Option String) : Entry φ :=
  let object := Json.insertSome (Json.insert [] "is" (.string status.asStr)) "reason"
    (reason.map Json.string)
  { entry with
    traits := Json.insert entry.traits statusTrait (.object object)
    value := if status.carriesValue then entry.value else none }

/-- Whether an entry is told apart by its value. -/
def toldApart (entry : Entry φ) : Bool :=
  toldApartByValue.contains entry.name

/-- An entry sent once more to say it no longer applies: only one told apart by its value keeps
the value. -/
def ended (entry : Entry φ) (atMillis : UInt64) (reason : String) : Entry φ :=
  let gone := { entry with atMillis := atMillis }.setStatus .ended (some reason)
  if entry.toldApart then { gone with value := entry.value } else gone

/-- What an entry says of how it stands. -/
def status (entry : Entry φ) : Option String := do
  let object ← (← Json.get entry.traits statusTrait).asObject
  (← Json.get object "is").asStr

/-- The members of an entry in a message, named by a member of the message. -/
def members (entry : Entry φ) (nameMember : String) : List (String × Option (Json φ)) :=
  [("at", some (.number (.int entry.atMillis.toNat))),
    (nameMember, some (.string entry.name)),
    ("traits", some (.object entry.traits)),
    ("kind", some (.string entry.kind)),
    ("unit", entry.unit.map Json.string),
    ("value", entry.value)]

/-- An entry written into a message. -/
def writeInto (entry : Entry φ) (nameMember : String) (map : Json.Map φ) : Json.Map φ :=
  Json.setAll map (entry.members nameMember)

/-- A whole number below `2 ^ 64`. -/
def readU64 : Json φ → Option UInt64
  | .number (.int i) =>
      if 0 ≤ i ∧ i < 18446744073709551616 then some (UInt64.ofNat i.toNat) else none
  | _ => none

/-- A whole number is read back. -/
@[simp]
theorem readU64_toNat (n : UInt64) : readU64 (φ := φ) (.number (.int n.toNat)) = some n := by
  have hn := n.toNat_lt
  rw [readU64, if_pos (by omega)]
  simp

/-- A required member, or what to say of its absence. -/
def required {α : Type} (map : Json.Map φ) (member reason : String)
    (read : Json φ → Option α) : Except String α :=
  match (Json.get map member).bind read with
  | some value => .ok value
  | none => .error reason

/-- An entry read of a message, its name taken from a member of the message. -/
def readFrom (nameMember : String) (map : Json.Map φ) : Except String (Entry φ) := do
  let atMillis ← required map "at" "an entry carries a number `at`" readU64
  let name ← required map nameMember ("an entry carries a string `" ++ nameMember ++ "`")
    Json.asStr
  let traits ← required map "traits" "an entry carries an object `traits`" Json.asObject
  let kind ← required map "kind" "an entry carries a string `kind`" Json.asStr
  let unit ← Config.optionalMember map "unit" "`unit` is a string" Json.asStr
  pure {
    atMillis := atMillis
    name := name
    traits := traits
    kind := kind
    unit := unit
    value := Json.get map "value" }

/-- A required member found is read. -/
theorem required_ok {α : Type} {map : Json.Map φ} {member reason : String}
    {read : Json φ → Option α} {value : Json φ} {a : α} (hget : Json.get map member = some value)
    (hread : read value = some a) : required map member reason read = .ok a := by
  unfold required
  rw [hget, Option.bind_some, hread]

/-- An entry is read back as it was written, under a name no other member has. -/
theorem readFrom_writeInto (entry : Entry φ) {nameMember : String} {map : Json.Map φ}
    (hname : nameMember ∉ ["at", "traits", "kind", "unit", "value"])
    (hvalue : Json.get map "value" = none) (hunit : Json.get map "unit" = none) :
    readFrom nameMember (entry.writeInto nameMember map) = .ok entry := by
  simp only [List.mem_cons, List.not_mem_nil, or_false, not_or] at hname
  obtain ⟨hat, htraits, hkind, hunitName, hvalueName⟩ := hname
  have hmillis : required (entry.writeInto nameMember map) "at" "an entry carries a number `at`"
      readU64 = .ok entry.atMillis :=
    required_ok (by simp [writeInto, members, Json.setAll, hat]) (readU64_toNat _)
  have hnamed : required (entry.writeInto nameMember map) nameMember
      ("an entry carries a string `" ++ nameMember ++ "`") Json.asStr = .ok entry.name := by
    have hget : Json.get (entry.writeInto nameMember map) nameMember =
        some (.string entry.name) := by
      simp [writeInto, members, Json.setAll, Ne.symm htraits, Ne.symm hkind, Ne.symm hunitName, Ne.symm hvalueName]
    exact required_ok hget rfl
  have hheldTraits : required (entry.writeInto nameMember map) "traits"
      "an entry carries an object `traits`" Json.asObject = .ok entry.traits := by
    have hget : Json.get (entry.writeInto nameMember map) "traits" =
        some (.object entry.traits) := by
      simp [writeInto, members, Json.setAll]
    exact required_ok hget rfl
  have hheldKind : required (entry.writeInto nameMember map) "kind"
      "an entry carries a string `kind`" Json.asStr = .ok entry.kind := by
    have hget : Json.get (entry.writeInto nameMember map) "kind" = some (.string entry.kind) := by
      simp [writeInto, members, Json.setAll]
    exact required_ok hget rfl
  have hunset : Json.get (entry.writeInto nameMember map) "unit" = entry.unit.map Json.string := by
    simp [writeInto, members, Json.setAll, hunitName, hunit]
  have hread : Config.optionalMember (entry.writeInto nameMember map) "unit" "`unit` is a string"
      Json.asStr = .ok entry.unit := by
    unfold Config.optionalMember
    rw [hunset]
    cases entry.unit <;> rfl
  have hheld : Json.get (entry.writeInto nameMember map) "value" = entry.value := by
    simp [writeInto, members, Json.setAll, hvalueName, hvalue]
  unfold readFrom
  rw [hmillis, hnamed, hheldTraits, hheldKind, hread, hheld]
  rfl

end Entry

end Bliti.Channel.Readings
