import Bliti.Facts.Power.Curve.Parse

/-!
# Battery curves - the curve file

The curve document in force, and what the device keeps beside it that is its own, in a file replaced
atomically: through a temporary file beside it, synced, renamed over it, and the directory synced.
-/

namespace Bliti.Facts.Power

/-- What the curve file holds: the document, and the gauge's state of charge, as a share, when a
charge last finished. -/
structure Stored where
  document : Document
  gaugeFull : Option ℚ
  gaugeFull_pos : ∀ full ∈ gaugeFull, 0 < full

/-- What a device with no curve file starts from. -/
def Stored.shipped : Stored where
  document := .shipped
  gaugeFull := none
  gaugeFull_pos := by simp

/-- What is at the path of the curve file: nothing, what cannot be read, what is not JSON, or
JSON. -/
inductive Contents where
  | absent
  | unreadable (err : String)
  | notJson (err : String)
  | json (value : Json ℚ)

/-- Why the curve file could not be read or replaced. -/
inductive StoreError where
  | io (err : String)
  | json (err : String)
  | invalid (err : Invalid)
  | gaugeFull (full : ℚ)
deriving DecidableEq

/-- The file on disk: a document, and the gauge's full reading where it is there and not null. -/
def readFile : Json ℚ → Except String (Json ℚ × Option ℚ)
  | .object map =>
      match Json.get map "document" with
      | none => .error "missing field"
      | some document =>
          match Json.get map "gauge-full" with
          | none | some .null => .ok (document, none)
          | some value =>
              match asF64 value with
              | some full => .ok (document, some full)
              | none => .error "invalid type"
  | _ => .error "invalid type"

namespace Stored

/-- What the file holds of the curves. -/
def toJson (stored : Stored) : Json ℚ :=
  let map := Json.insert [] "document" stored.document.toJson
  .object (Json.insertSome map "gauge-full"
    (stored.gaugeFull.map fun full => .number (.float full)))

/-- The curves of what the file holds. -/
def fromJson (doubles : Doubles) (value : Json ℚ) : Except StoreError Stored :=
  match readFile value with
  | .error err => .error (.json err)
  | .ok (document, gaugeFull) =>
      match Document.fromJson doubles document with
      | .error err => .error (.invalid err)
      | .ok document =>
          match gaugeFull with
          | none => .ok { document := document, gaugeFull := none, gaugeFull_pos := by simp }
          | some full =>
              if hfull : 0 < full then
                .ok {
                  document := document
                  gaugeFull := some full
                  gaugeFull_pos := by simpa using hfull }
              else .error (.gaugeFull full)

/-- What was written is read back. -/
@[simp]
theorem fromJson_toJson (doubles : Doubles) (stored : Stored) :
    fromJson doubles stored.toJson = .ok stored := by
  obtain ⟨document, gaugeFull, hpos⟩ := stored
  cases gaugeFull with
  | none => simp [fromJson, toJson, readFile]
  | some full =>
      have hfull : 0 < full := hpos full rfl
      simp [fromJson, toJson, readFile, asF64, hfull]

end Stored

/-! ## The disk -/

/-- A step of replacing the file. -/
inductive SaveStep where
  | createDirectory
  | create
  | write
  | sync
  | rename
  | openDirectory
  | syncDirectory
deriving DecidableEq, Repr

/-- Whether the file had been replaced when a step failed. -/
def SaveStep.renamed : SaveStep → Bool
  | .createDirectory | .create | .write | .sync | .rename => false
  | .openDirectory | .syncDirectory => true

/-- A save that failed: at which step, and why. -/
structure SaveFault where
  step : SaveStep
  err : String
deriving DecidableEq, Repr

/-- The curve file, as it is read now, and as it is read after a power cut until its directory has
been synced.  The temporary file beside it is read by nothing. -/
structure Disk where
  file : Contents
  lasting : Contents

namespace Disk

/-- What the file holds, none where there is no file, or why it cannot be used. -/
def read (doubles : Doubles) (disk : Disk) : Except StoreError (Option Stored) :=
  match disk.file with
  | .absent => .ok none
  | .unreadable err => .error (.io err)
  | .notJson err => .error (.json err)
  | .json value => (Stored.fromJson doubles value).map some

/-- What to start from: the file, or the shipped curve where there is none or it cannot be used. -/
def load (doubles : Doubles) (disk : Disk) : Stored :=
  match disk.read doubles with
  | .ok (some stored) => stored
  | .ok none => .shipped
  | .error _ => .shipped

/-- Replace the file, until a step fails, where one does. -/
def save (disk : Disk) (stored : Stored) (fails : Option SaveFault) :
    Disk × Except StoreError Unit :=
  let written := Contents.json stored.toJson
  match fails with
  | none => ({ file := written, lasting := written }, .ok ())
  | some fault =>
      if fault.step.renamed then ({ disk with file := written }, .error (.io fault.err))
      else (disk, .error (.io fault.err))

/-- The power is cut: a file replaced whose directory has not been synced may be the old one. -/
def cut (disk : Disk) (lost : Bool) : Disk :=
  if lost then { disk with file := disk.lasting } else { disk with lasting := disk.file }

variable {doubles : Doubles} {disk disk' : Disk} {stored : Stored} {fails : Option SaveFault}

/-- What was written is what is started from. -/
theorem load_written (hfile : disk.file = .json stored.toJson) : disk.load doubles = stored := by
  simp [load, read, hfile, Except.map]

/-- A save replaces the file, or fails, having replaced it only where it failed after the
rename. -/
theorem save_cases {result : Except StoreError Unit} (hsave : disk.save stored fails =
    (disk', result)) :
    (fails = none ∧ result = .ok () ∧ disk'.file = .json stored.toJson) ∨
      ∃ fault, fails = some fault ∧ result = .error (.io fault.err) ∧
        (fault.step.renamed = true ∧ disk'.file = .json stored.toJson ∨
          fault.step.renamed = false ∧ disk' = disk) := by
  unfold save at hsave
  cases fails with
  | none =>
      cases hsave
      exact .inl ⟨rfl, rfl, rfl⟩
  | some fault =>
      dsimp only at hsave
      split at hsave
      · rename_i hrenamed
        cases hsave
        exact .inr ⟨fault, rfl, rfl, .inl ⟨hrenamed, rfl⟩⟩
      · rename_i hrenamed
        cases hsave
        exact .inr ⟨fault, rfl, rfl, .inr ⟨Bool.not_eq_true _ ▸ hrenamed, rfl⟩⟩

end Disk

end Bliti.Facts.Power
