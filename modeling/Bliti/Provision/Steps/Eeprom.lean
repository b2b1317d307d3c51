import Bliti.Provision.Engine

/-!
# Provisioning - the step `eeprom`

The step that writes the HAT EEPROM the image for the board's version, while the operator
bridges the pads that lift its write protection: from placing the board to the write
having been read back, as the engine sees it.
-/

namespace Bliti.Provision.Steps.Eeprom

variable {φ : Type}

/-! ## What is seen of a board -/

/-- A Tamanu Iti's version. -/
structure Version where
  major : UInt16
  minor : UInt16
deriving DecidableEq, Repr

/-- A version in words. -/
def Version.display (version : Version) : String :=
  toString version.major ++ "." ++ toString version.minor

/-- What an EEPROM holds. -/
inductive Held where
  | image
  | blank
  | iti (version : Version)
  | other (vendor product : String)
  | unrecognised
deriving DecidableEq, Repr

/-- What an EEPROM holds, in words. -/
def Held.display (held : Held) : String :=
  match held with
  | .image => "the image"
  | .blank => "nothing, being blank"
  | .iti version => "a Tamanu Iti v" ++ version.display
  | .other vendor product =>
      "another HAT, " ++ Text.debug product ++ " from " ++ Text.debug vendor
  | .unrecognised => "contents that are not a HAT image"

/-- What the step comes to see of a board: the version it is placed as, why its image cannot be
read, what its EEPROM holds, whether that takes reading the whole of it, and how many tries at the
write fail before one is read back. -/
structure Board where
  placed : Option Version
  image : Option String
  held : Except String Held
  headBlank : Bool
  fails : Option Nat

/-! ## What the step does -/

/-- The reads it has carried out in the pool. -/
inductive Look where
  | air
  | image
  | head
  | whole
deriving DecidableEq, Repr

/-- Where the step is. -/
inductive At where
  | look (what : Look)
  | looking (what : Look)
  | foreign (version : Version) (held : Held)
  | asked
  | ready
  | trying (tries : Nat)
  | writing (tries : Nat)
  | sleeping (tries : Nat)
  | closing (written : Bool)
  | over (failed : Option String)
deriving DecidableEq, Repr

/-- What is asked before a foreign EEPROM is written over. -/
def overwriteText (version : Version) (held : Held) : String :=
  "The EEPROM holds " ++ held.display ++ ". Write the image for Tamanu Iti v" ++
    version.display ++ " over it?"

/-- What the operator is asked to do while the EEPROM is written. -/
def noticeText : String :=
  "Bridge the two ID WP pads with bare metal, such as the blades of scissors. " ++
    "Coated tools do not conduct. Hold the bridge until this step passes."

/-- What is said of a board that could not be placed. -/
def unplaced : String :=
  "the board could not be placed as a version of the Tamanu Iti and needs looking at"

/-- What is said of an EEPROM that could not be written in time. -/
def unwritten : String :=
  "the EEPROM could not be written within five minutes: check that bare metal bridges both ID WP " ++
    "pads"

/-- What what the EEPROM holds leads to. -/
def found (board : Board) : At :=
  match board.placed, board.held with
  | none, _ => .over (some unplaced)
  | some _, .error err => .over (some ("cannot read the EEPROM: " ++ err))
  | some _, .ok .image => .over none
  | some _, .ok .blank => .ready
  | some version, .ok (.iti held) =>
      if held = version then .ready else .foreign version (.iti held)
  | some version, .ok held => .foreign version held

/-- What a read leads to. -/
def looked (board : Board) (what : Look) : At :=
  match what with
  | .air => if board.placed.isSome then .look .image else .over (some unplaced)
  | .image =>
      match board.image with
      | none => .look .head
      | some why => .over (some why)
  | .head => if board.headBlank then .look .whole else found board
  | .whole => found board

/-- What the step does from where it is.  The limit on the write passes while it is tried, waited
for or slept between tries. -/
def next (board : Board) (place : At) (done : Work φ) : Option At :=
  match place, done with
  | .look what, .offload => some (.looking what)
  | .looking what, .joined => some (looked board what)
  | .foreign version held, .ask (.need key kind text) =>
      if key = "overwrite" ∧ kind = .confirm ∧ text = overwriteText version held then some .asked
      else none
  | .asked, .given answer =>
      some (if (Model.asBool answer).getD false then .ready
        else .over (some "the EEPROM was left as it was"))
  | .ready, .ask (.notice key text) =>
      if key = "id-wp" ∧ text = noticeText then some (.trying 0) else none
  | .trying tries, .offload => some (.writing tries)
  | .writing tries, .joined =>
      some (if board.fails = some tries then .closing true else .sleeping (tries + 1))
  | .sleeping tries, .inPlace => some (.trying tries)
  | .trying _, .limit => some (.closing false)
  | .writing _, .limit => some (.closing false)
  | .sleeping _, .limit => some (.closing false)
  | .closing written, .ask (.close id) =>
      if id = "id-wp" then some (.over (if written then none else some unwritten)) else none
  | .over none, .ends (.ok ()) => some (.over none)
  | .over (some why), .ends (.error reason) => if reason = why then some (.over (some why)) else none
  | _, _ => none

/-- The step. -/
def step (board : Board) : Step φ At where
  id := "eeprom"
  title := "Program the EEPROM"
  changesBoard := true
  asksAfter := none
  undoneBy := []
  undoing := "Program the EEPROM"
  start := .look .air
  next := next board

end Bliti.Provision.Steps.Eeprom
