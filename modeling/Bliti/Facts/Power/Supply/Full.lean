import Bliti.Facts.Power.Learn

/-!
# The backup supply - telling a finished charge

A charge has finished once the cell voltage, having reached termination, relaxes back and holds, or
holds as high as only a resting cell does.
-/

namespace Bliti.Facts.Power

/-- The voltage a charge terminates at. -/
def terminationVolts : ℚ := 419 / 100

/-- How far below the highest voltage at termination the cell must fall to have relaxed. -/
def relaxVolts : ℚ := 1 / 200

/-- How far the cell may move and still be holding. -/
def stillVolts : ℚ := 1 / 400

/-- How long the cell must hold, having relaxed. -/
def hold : Duration := secs (5 * 60)

/-- A cell holding this high, below termination, is resting rather than taking charge. -/
def restingVolts : ℚ := 415 / 100

/-- Where a charge has got to. -/
inductive Full where
  | charging
  | atTermination (peak : ℚ)
  | holding (since : Duration) (low high : ℚ) (relaxed : Bool)
  | finished
deriving DecidableEq

namespace Full

/-- Holding from a reading. -/
def holdingFrom (now : Duration) (volts : ℚ) (relaxed : Bool) : Full :=
  .holding now volts volts relaxed

/-- Where a reading takes a charge that has not finished, before a cell found high is told from one
taking charge. -/
def next (full : Full) (now : Duration) (volts : ℚ) : Full :=
  if terminationVolts ≤ volts then
    match full with
    | .atTermination peak => .atTermination (max peak volts)
    | _ => .atTermination volts
  else
    match full with
    | .atTermination peak =>
        if volts ≤ peak - relaxVolts then holdingFrom now volts true else full
    | .holding since low high relaxed =>
        let low := min low volts
        let high := max high volts
        if stillVolts < high - low then holdingFrom now volts relaxed
        else if hold ≤ now - since then .finished
        else .holding since low high relaxed
    | .charging => if restingVolts ≤ volts then holdingFrom now volts false else .charging
    | .finished => .finished

/-- Count a reading taken with external power present, and whether the charge finishes on it. -/
def observe (full : Full) (now : Duration) (volts : ℚ) : Full × Bool :=
  match full with
  | .finished => (.finished, false)
  | _ =>
      let next := full.next now volts
      let next := match next with
        | .holding _ _ _ false => if volts < restingVolts then .charging else next
        | _ => next
      (next, next = .finished)

/-- A reading finishes a charge only where none had finished, and it has then. -/
theorem observe_finishes {full : Full} {now : Duration} {volts : ℚ}
    (hfinishes : (full.observe now volts).2 = true) :
    full ≠ .finished ∧ (full.observe now volts).1 = .finished := by
  cases full with
  | finished => cases hfinishes
  | charging => exact ⟨nofun, of_decide_eq_true hfinishes⟩
  | atTermination peak => exact ⟨nofun, of_decide_eq_true hfinishes⟩
  | holding since low high relaxed => exact ⟨nofun, of_decide_eq_true hfinishes⟩

end Full

end Bliti.Facts.Power
