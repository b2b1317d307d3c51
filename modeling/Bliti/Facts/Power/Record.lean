import Bliti.Facts.Power.Learn

/-!
# The backup supply's history - when external power went and came back

What has been seen of the power line, and what is reported of it.
-/

namespace Bliti.Facts.Power

/-- What the gauge answered: the cell voltage, and its state of charge in percent. -/
structure Gauge where
  volts : ℚ
  charge : ℚ
deriving DecidableEq

/-- How far the cell falls between the voltages reported, in millivolts. -/
def fallMv : ℚ := 10

/-- What has been seen of the supply so far: whether external power reached the board at the last
look, when it was seen to go, and the cell voltage last reported without it. -/
structure Record where
  external : Option Bool
  lost : Option Duration
  reported : ℚ
deriving DecidableEq

/-- Something to report. -/
inductive Event where
  | found (external : Bool) (gauge : Gauge)
  | lost (gauge : Gauge)
  | restored (gauge : Gauge) (away : Option Duration)
  | falling (gauge : Gauge) (away : Option Duration)
deriving DecidableEq

namespace Record

/-- A record of nothing yet. -/
def new : Record where
  external := none
  lost := none
  reported := 0

/-- Take in a look where the gauge and the power line both answered. -/
def observe (record : Record) (now : Duration) (external : Bool) (gauge : Gauge) :
    Record × Option Event :=
  let next := { record with external := some external }
  match record.external, external with
  | none, _ => ({ next with reported := gauge.volts }, some (.found external gauge))
  | some true, false =>
      ({ next with lost := some now, reported := gauge.volts }, some (.lost gauge))
  | some false, true =>
      ({ next with lost := none }, some (.restored gauge (record.lost.map fun lost => now - lost)))
  | some true, true => (next, none)
  | some false, false =>
      -- Half a millivolt of slack, so a fall of exactly one step is not lost to rounding.
      if fallMv - 1 / 2 ≤ (record.reported - gauge.volts) * 1000 then
        ({ next with reported := gauge.volts },
          some (.falling gauge (record.lost.map fun lost => now - lost)))
      else (next, none)

/-- How long external power has been absent, where the device saw it go. -/
def away (record : Record) (now : Duration) : Option Duration :=
  match record.external with
  | some false => record.lost.map fun lost => now - lost
  | _ => none

/-- A look moves the record to whether it saw external power. -/
@[simp]
theorem observe_external (record : Record) (now : Duration) (external : Bool) (gauge : Gauge) :
    (record.observe now external gauge).1.external = some external := by
  unfold observe
  split
  case h_5 => split <;> rfl
  all_goals rfl

end Record

end Bliti.Facts.Power
