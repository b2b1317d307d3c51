import Bliti.Facts.Power.Curve
import Bliti.Library.Fallible

/-!
# Battery curves - the document as JSON

The curve document on the wire and in the curve file.
-/

namespace Bliti.Facts.Power

open Channel.Config (Segment path)

/-- A number read as a double. -/
def asF64 : Json ℚ → Option ℚ
  | .number (.int i) => some i
  | .number (.float f) => some f
  | _ => none

/-- A point of a curve as it is written. -/
def pointToJson (point : ℚ × ℚ) : Json ℚ :=
  .array [.number (.float point.1), .number (.float point.2)]

/-- A curve as it is written. -/
def curveToJson (curve : Curve) : Json ℚ :=
  let map := Json.insert [] "points" (.array (curve.points.map pointToJson))
  let map := Json.insert map "learnt-from" (.number (.int curve.learntFrom.toNat))
  let map := Json.insert map "error" (.number (.float curve.error))
  let map := Json.insert map "duration" (.number (.float curve.duration))
  .object map

/-- A point of a curve as it is read: a pair of numbers. -/
def pointFromJson : Json ℚ → Option (ℚ × ℚ)
  | .array [volts, charge] => do
      let volts ← asF64 volts
      let charge ← asF64 charge
      pure (volts, charge)
  | _ => none

section Read

variable (doubles : Doubles) (direction : Direction)

/-- The points of a curve from one on. -/
def pointsFromJson (i : ℕ) : List (Json ℚ) → Except Invalid (List (ℚ × ℚ))
  | [] => .ok []
  | point :: rest =>
      match pointFromJson point with
      | some point => do
          let rest ← pointsFromJson (i + 1) rest
          pure (point :: rest)
      | none => .error {
          atPath := pointAt direction i
          reason := "the " ++ direction.name ++ " curve's point " ++ toString (i + 1) ++
            " is not a pair of numbers" }

/-- A member of a curve. -/
def curveMember (curve : Json.Map ℚ) (key : String) : Except Invalid (Json ℚ) :=
  match Json.get curve key with
  | some value => .ok value
  | none => .error {
      atPath := pathIn direction [.name key]
      reason := "the " ++ direction.name ++ " curve has no " ++ key }

/-- A member of a curve that is a number. -/
def curveNumber (curve : Json.Map ℚ) (key : String) : Except Invalid ℚ := do
  let value ← curveMember direction curve key
  match asF64 value with
  | some number => .ok number
  | none => .error {
      atPath := pathIn direction [.name key]
      reason := "the " ++ direction.name ++ " curve's " ++ key ++ " is not a number" }

/-- How many runs or charges a curve says it was learnt from. -/
def learntFromNumber (learnt : ℚ) : Except Invalid UInt32 :=
  let fault (why : String) : Except Invalid UInt32 := .error {
    atPath := pathIn direction [.name "learnt-from"]
    reason := "the " ++ direction.name ++ " curve's learnt-from, " ++ doubles.display learnt ++
      why }
  if learnt ≠ ⌊learnt⌋ then fault ", is not a whole number"
  else if learnt < 0 then fault ", is negative"
  else if 4294967295 < learnt then fault ", is too large"
  else .ok (.ofNat ⌊learnt⌋.toNat)

/-- A curve as it is read. -/
def curveFromJson : Json ℚ → Except Invalid Curve
  | .object curve => do
      match ← curveMember direction curve "points" with
      | .array listed =>
          let points ← pointsFromJson direction 0 listed
          let learntFrom ← learntFromNumber doubles direction
            (← curveNumber direction curve "learnt-from")
          let error ← curveNumber direction curve "error"
          let duration ← curveNumber direction curve "duration"
          pure { points, learntFrom, error, duration }
      | _ => .error {
          atPath := pathIn direction [.name "points"]
          reason := "the " ++ direction.name ++ " curve's points are not a list" }
  | _ => .error {
      atPath := pathIn direction []
      reason := "the " ++ direction.name ++ " curve is not a JSON object" }

end Read

namespace Document

/-- A document as it is written, with no `charging` where none is held. -/
def toJson (document : Document) : Json ℚ :=
  let map := Json.insert [] "discharging" (curveToJson document.discharging)
  .object (Json.insertSome map "charging" (document.charging.map curveToJson))

/-- The charging curve of a document as it is read, `null` taken as none. -/
def chargingFromJson (doubles : Doubles) (map : Json.Map ℚ) : Except Invalid (Option Curve) :=
  match Json.get map "charging" with
  | none | some .null => .ok none
  | some curve => (curveFromJson doubles .charging curve).map some

/-- A document as it is read, or why it cannot be loaded. -/
def fromJson (doubles : Doubles) : Json ℚ → Except Invalid Document
  | .object map => do
      let discharging ←
        match Json.get map "discharging" with
        | none | some .null => .error {
            atPath := path [.name "discharging"]
            reason := "the curve document has no discharging curve" }
        | some curve => curveFromJson doubles .discharging curve
      let charging ← chargingFromJson doubles map
      new doubles discharging charging
  | _ => .error { atPath := path [], reason := "the curve document is not a JSON object" }

end Document

/-! ## Reading back -/

section ReadBack

variable {doubles : Doubles} {direction : Direction}

theorem pointsFromJson_map (i : ℕ) (points : List (ℚ × ℚ)) :
    pointsFromJson direction i (points.map pointToJson) = .ok points := by
  induction points generalizing i with
  | nil => rfl
  | cons point rest ih =>
      rw [List.map_cons, pointsFromJson, ih]
      rfl

/-- A count is read back as it was written. -/
theorem learntFromNumber_toNat (learntFrom : UInt32) :
    learntFromNumber doubles direction learntFrom.toNat = .ok learntFrom := by
  have hsmall := learntFrom.toNat_lt
  have hfits : ¬4294967295 < learntFrom.toNat := by omega
  have hnonneg : ¬(learntFrom.toNat : ℚ) < 0 := (Nat.cast_nonneg _).not_gt
  unfold learntFromNumber
  simp [hfits, hnonneg]

/-- A curve is read back as it was written. -/
theorem curveFromJson_curveToJson (doubles : Doubles) (direction : Direction) (curve : Curve) :
    curveFromJson doubles direction (curveToJson curve) = .ok curve := by
  simp [curveFromJson, curveToJson, curveMember, curveNumber, asF64, pointsFromJson_map,
    learntFromNumber_toNat]

/-- A document is read back as it was written. -/
@[simp]
theorem Document.fromJson_toJson (document : Document) :
    Document.fromJson doubles document.toJson = .ok document := by
  have hobject : ∀ curve, ∃ map, curveToJson curve = .object map := fun curve => ⟨_, rfl⟩
  obtain ⟨discharging, hdischarging⟩ := hobject document.discharging
  have hcharging : ∀ map, Json.get map "charging" = document.charging.map curveToJson →
      chargingFromJson doubles map = .ok document.charging := by
    intro map hget
    unfold chargingFromJson
    rw [hget]
    cases hheld : document.charging with
    | none => rfl
    | some curve =>
        obtain ⟨written, hwritten⟩ := hobject curve
        have hread := curveFromJson_curveToJson doubles .charging curve
        rw [hwritten] at hread
        rw [Option.map_some, hwritten]
        simp [hread, Except.map]
  have hread := curveFromJson_curveToJson doubles .discharging document.discharging
  rw [hdischarging] at hread
  unfold Document.toJson Document.fromJson
  dsimp only
  rw [hcharging _ (by simp)]
  simp [hdischarging, hread, document.new_self]

end ReadBack

end Bliti.Facts.Power
