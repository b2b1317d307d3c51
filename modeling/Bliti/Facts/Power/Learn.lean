import Mathlib
import Bliti.Facts.Power.Curve

/-!
# Refining the curves - what a run on battery or a charge teaches

The discharging curve is refined from a run on battery that reached the floor, and the charging
curve from a charge that began at a known charge and finished.  Times are nanoseconds.
-/

namespace Bliti.Facts.Power

/-- A span of time, or an instant counted from when the system booted, in nanoseconds. -/
abbrev Duration := ℕ

/-- A time of so many seconds. -/
def secs (n : ℕ) : Duration :=
  n * 1000000000

/-- A time in seconds. -/
def asSecs (time : Duration) : ℚ :=
  time / 1000000000

/-- A time and the cell voltage then. -/
abbrev Sample := Duration × ℚ

namespace Learn

/-- The weight the newest run or charge keeps once a curve has been learnt from a few. -/
def recent : ℚ := 2 / 5

/-- Spacing of the voltages a refined curve is resampled at. -/
def stepVolts : ℚ := 1 / 20

/-- How many samples either side of each the rolling median takes in. -/
def medianReach : ℕ := 3

/-- The shortest run or charge that teaches anything. -/
def shortest : Duration := secs (10 * 60)

/-- The least voltage a run or charge must cross to teach anything. -/
def narrowestVolts : ℚ := 1 / 20

/-- The least share of the scale a run or charge must cover to teach anything. -/
def narrowestCharge : ℚ := 1 / 50

/-- Grid voltages closer than this to a curve's end, or to where a run began, are left out. -/
def crowdedVolts : ℚ := 1 / 200

/-- Which curve was refined. -/
inductive Which where
  | discharging
  | charging
deriving DecidableEq, Repr

/-- The curve of a document that was refined. -/
def Which.curve (which : Which) (document : Document) : Option Curve :=
  match which with
  | .discharging => some document.discharging
  | .charging => document.charging

/-- Why a run or charge taught nothing. -/
inductive Untaught where
  | noFloor
  | tooShort
  | tooNarrow
deriving DecidableEq, Repr

/-- The weight a curve learnt from so many gives the next run or charge. -/
def weight (learntFrom : UInt32) : ℚ :=
  max (1 / (learntFrom.toNat + 1)) recent

/-- One more run or charge, up to the most a count holds. -/
def oneMore (learntFrom : UInt32) : UInt32 :=
  .ofNat (min (learntFrom.toNat + 1) 4294967295)

/-- A figure held to a share. -/
def clamp (x : ℚ) : ℚ :=
  max 0 (min x 1)

/-- An old figure and a new one, blended. -/
def blend (old new w : ℚ) : ℚ :=
  old * (1 - w) + new * w

/-- The share of a scale covered, no more than all of it.  A double over zero is infinite. -/
def share (part whole : ℚ) : ℚ :=
  if whole = 0 then 1 else min (part / whole) 1

/-! ## The voltage as smoothed -/

/-- The median voltage of the samples around one. -/
def median (samples : List Sample) (i : ℕ) : ℚ :=
  let window := (samples.take (min (i + medianReach + 1) samples.length)).drop (i - medianReach)
  let volts := (window.map Prod.snd).insertionSort (· ≤ ·)
  volts.getD (volts.length / 2) 0

/-- The samples from one on, smoothed, given the voltage held so far. -/
def smoothedFrom (samples : List Sample) (hold : ℚ → ℚ → ℚ) :
    ℕ → Option ℚ → List Sample → List (ℚ × ℚ)
  | _, _, [] => []
  | i, held, (time, _) :: rest =>
      let median := median samples i
      let volts := match held with
        | some held => hold held median
        | none => median
      (asSecs time, volts) :: smoothedFrom samples hold (i + 1) (some volts) rest

/-- The samples as seconds and volts, median-smoothed, then held to one direction. -/
def smoothed (samples : List Sample) (hold : ℚ → ℚ → ℚ) : List (ℚ × ℚ) :=
  smoothedFrom samples hold 0 none samples

/-- When the smoothed voltage first reached a voltage, interpolated between samples. -/
def crossed (smoothed : List (ℚ × ℚ)) (volts : ℚ) (reached : ℚ → ℚ → Bool) : Option ℚ :=
  match smoothed.findIdx? fun sample => reached sample.2 volts with
  | none => none
  | some index =>
      match smoothed[index]?, index with
      | some (t1, _), 0 => some t1
      | some (t1, v1), before + 1 =>
          match smoothed[before]? with
          | some (t0, v0) => some (t0 + (t1 - t0) * (v0 - volts) / (v0 - v1))
          | none => none
      | none, _ => none

/-- Whether a falling voltage has reached another. -/
def fallen (volts at' : ℚ) : Bool :=
  volts ≤ at'

/-- Whether a rising voltage has reached another. -/
def risen (volts at' : ℚ) : Bool :=
  at' ≤ volts

/-- The root mean square of differences, where there are any. -/
def rms (doubles : Doubles) (differences : List ℚ) : Option ℚ :=
  let (count, sum) := differences.foldl
    (fun (count, sum) difference => (count + 1, sum + difference * difference)) (0, 0)
  if 0 < count then some (doubles.sqrt (sum / (count : ℕ))) else none

/-- A low and a high voltage, and the multiples of the step between them. -/
def grid (low high : ℚ) : List ℚ :=
  let first := ⌊low / stepVolts⌋ + 1
  let last := ⌈high / stepVolts⌉ - 1
  let between := ((List.range (last + 1 - first).toNat).map fun (k : ℕ) =>
    ((first + k : ℤ) : ℚ) * stepVolts).filter fun volts =>
      low + crowdedVolts < volts && volts < high - crowdedVolts
  low :: (between ++ if low + crowdedVolts < high then [high] else [])

/-- Keep the charge from falling from the highest so far, and within a cell. -/
def monotoneFrom (highest : ℚ) : List (ℚ × ℚ) → List (ℚ × ℚ)
  | [] => []
  | (volts, charge) :: rest =>
      let highest := max highest (clamp charge)
      (volts, highest) :: monotoneFrom highest rest

/-- Keep the charge from falling as the voltage rises, and within a cell. -/
def monotone (points : List (ℚ × ℚ)) : List (ℚ × ℚ) :=
  monotoneFrom 0 points

/-! ## What a run teaches -/

section Run

variable (old : Curve) (fromFull : Bool) (start beganVolts ended : ℚ)

/-- The charge a run began at. -/
def runBegan : ℚ :=
  if fromFull then 1 else old.chargeAt beganVolts

/-- The charge a run showed at a time. -/
def runShown (t : ℚ) : ℚ :=
  let floor := old.chargeAt floorVolts
  let began := runBegan old fromFull beganVolts
  floor + (began - floor) * (ended - t) / (ended - start)

/-- The charge a run showed at a voltage. -/
def runObserved (smoothed : List (ℚ × ℚ)) (volts : ℚ) : ℚ :=
  match crossed smoothed volts fallen with
  | some t => runShown old fromFull start beganVolts ended t
  | none => runBegan old fromFull beganVolts

/-- The points a run refines: the curve's below the floor, a grid up to where it refines the curve,
and the curve's above. -/
def runPoints (observed : ℚ → ℚ) : List (ℚ × ℚ) :=
  let w := weight old.learntFrom
  let top := match old.points.getLast? with
    | some (volts, _) => volts
    | none => beganVolts
  let (refinedTo, top) :=
    if fromFull then (max top beganVolts, max top beganVolts) else (beganVolts, top)
  let below := old.points.filter fun point => point.1 < floorVolts
  let refined := (grid floorVolts refinedTo).map fun volts =>
    (volts, blend (old.chargeAt volts) (observed volts) w)
  let above := old.points.filter fun point =>
    refinedTo + crowdedVolts < point.1 && point.1 ≤ top
  below ++ refined ++ above

end Run

/-- The discharging curve refined by a run on battery that ended in a low-battery shutdown, from
its samples since it began. -/
def fromRun (doubles : Doubles) (old : Curve) (fromFull : Bool) (samples : List Sample) :
    Except Untaught Curve :=
  let smoothed := smoothed samples min
  match smoothed with
  | [] => .error .tooShort
  | (start, beganVolts) :: _ =>
      match crossed smoothed floorVolts fallen with
      | none => .error .noFloor
      | some ended =>
          let span := ended - start
          let floor := old.chargeAt floorVolts
          let began := runBegan old fromFull beganVolts
          if span < asSecs shortest then .error .tooShort
          else if beganVolts - floorVolts < narrowestVolts ∨ began - floor < narrowestCharge then
            .error .tooNarrow
          else
            let measured := rms doubles ((smoothed.filter fun sample => sample.1 ≤ ended).map
              fun sample => old.chargeAt sample.2 -
                runShown old fromFull start beganVolts ended sample.1)
            let w := weight old.learntFrom
            let points := runPoints old fromFull beganVolts
              (runObserved old fromFull start beganVolts ended smoothed)
            let covered := share (began - floor) (1 - floor)
            .ok {
              points := monotone points
              learntFrom := oneMore old.learntFrom
              error := clamp (blend old.error (measured.getD old.error) w)
              duration := blend old.duration (span / (began - floor)) (w * covered) }

/-! ## What a charge teaches -/

/-- The points of a charging curve a charge creates. -/
def createdPoints (low high : ℚ) (observed : ℚ → Option ℚ) : List (ℚ × ℚ) :=
  (grid low high).filterMap fun volts => (observed volts).map fun charge => (volts, charge)

/-- The points of a charging curve a charge refines. -/
def chargePoints (old : Curve) (low high : ℚ) (observed : ℚ → Option ℚ) : List (ℚ × ℚ) :=
  let w := weight old.learntFrom
  let oldLow := match old.points.head? with
    | some (volts, _) => volts
    | none => low
  let oldHigh := match old.points.getLast? with
    | some (volts, _) => volts
    | none => high
  (grid (min low oldLow) (max high oldHigh)).filterMap fun volts =>
    let new := if low ≤ volts ∧ volts ≤ high then observed volts else none
    let was := if old.covers volts then some (old.chargeAt volts) else none
    match was, new with
    | some was, some new => some (volts, blend was new w)
    | was, new => (was.or new).map fun charge => (volts, charge)

/-- The charging curve refined by a charge from `anchor` on the discharging curve's scale until it
finished, created where the device holds none.  `floor` is the discharging curve's charge at the
floor. -/
def fromCharge (doubles : Doubles) (old : Option Curve) (anchor floor : ℚ) (samples : List Sample)
    (ended : Duration) : Except Untaught Curve :=
  let beforeEnd := samples.filter fun sample => sample.1 ≤ ended
  let smoothed := smoothed beforeEnd max
  match smoothed.head?, smoothed.getLast? with
  | some (start, low), some (_, high) =>
      let span := asSecs ended - start
      if span < asSecs shortest then .error .tooShort
      else if high - low < narrowestVolts ∨ 1 - anchor < narrowestCharge then .error .tooNarrow
      else
        let shown (t : ℚ) := anchor + (1 - anchor) * (t - start) / span
        let observed (volts : ℚ) := (crossed smoothed volts risen).map shown
        let duration := span / (1 - anchor)
        match old with
        | none =>
            .ok {
              points := monotone (createdPoints low high observed)
              learntFrom := 1
              error := unmeasuredError doubles 1
              duration := duration }
        | some old =>
            let measured := rms doubles ((smoothed.filter fun sample => old.covers sample.2).map
              fun sample => old.chargeAt sample.2 - shown sample.1)
            let w := weight old.learntFrom
            let covered := share (1 - anchor) (1 - floor)
            .ok {
              points := monotone (chargePoints old low high observed)
              learntFrom := oneMore old.learntFrom
              error := clamp (blend old.error (measured.getD old.error) w)
              duration := blend old.duration duration (w * covered) }
  | _, _ => .error .tooShort

end Learn

end Bliti.Facts.Power
