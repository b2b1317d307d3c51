import Bliti.Facts.Power.Curve.Store
import Bliti.Facts.Power.Record
import Bliti.Facts.Power.Supply.Full
import Bliti.Facts.Power.Supply.Low

/-!
# The backup supply - its one state

What the record thread last saw of the supply, the run and the charge being recorded, and the curves
its charge is read from.  The history behind the rates the sampler reports is left out: nothing here
reads it.
-/

namespace Bliti.Facts.Power

open Learn (Which fromCharge fromRun)

/-- How many charges a charging curve must have been learnt from before it is read. -/
def chargingLearnt : UInt32 := 3

/-- The most samples a run or charge being recorded holds. -/
def recorded : ℕ := 24 * 60 * 6

/-- Why the curves were left as they were. -/
inductive Unchanged where
  | notManaged
  | save (err : StoreError)
deriving DecidableEq

/-- Why the gauge gave nothing. -/
inductive Unanswered where
  | noGauge
  | failed (reason : String)
deriving DecidableEq

/-- One look at the supply: what the gauge answered, and whether external power reaches the board,
where the power line could be read. -/
structure Look where
  gauge : Except Unanswered Gauge
  external : Option Bool

/-- The supply as a look with an answering gauge found it. -/
structure Reading where
  atMillis : ℕ
  gauge : Gauge
  external : Option Bool
  charge : ℚ
  full : Bool
  error : ℚ
deriving DecidableEq

/-- What the last look found. -/
inductive Seen where
  | nothing
  | noGauge
  | unanswered (atMillis : ℕ) (reason : String)
  | gauge (reading : Reading)
deriving DecidableEq

/-- The floor held, as reported when powering off for it. -/
structure Held where
  volts : ℚ
  away : Option Duration
deriving DecidableEq

/-- What a look calls for from the record thread. -/
structure Observed where
  report : Option (Event × ℚ)
  held : Option Held

/-- Timed cell voltages, from when the recording began. -/
structure Recording where
  began : Duration
  samples : List Sample
deriving DecidableEq

/-- A run on battery being recorded, and whether it began from a full cell. -/
structure Run where
  fromFull : Bool
  recording : Recording
deriving DecidableEq

/-- A charge being recorded, from the charge it began at on the curves' own scale. -/
structure Charge where
  anchor : ℚ
  recording : Recording
deriving DecidableEq

namespace Recording

/-- A recording as it begins. -/
def new (began : Duration) : Recording where
  began := began
  samples := []

/-- Add a sample, where the recording has not run too long to mean anything. -/
def push (recording : Recording) (now : Duration) (volts : ℚ) : Option Recording :=
  if recorded ≤ recording.samples.length then none
  else some { recording with
    samples := recording.samples ++ [(now - recording.began, volts)] }

/-- The last voltage recorded. -/
def last (recording : Recording) : Option ℚ :=
  recording.samples.getLast?.map Prod.snd

end Recording

/-- What the low-battery watch counts: only a look where the gauge and the power line both
answered. -/
def Look.floor (look : Look) : Option Floor :=
  match look.gauge, look.external with
  | .ok gauge, some external => some { volts := gauge.volts, external := external }
  | _, _ => none

/-! ## The charge to report -/

/-- The charging curve, where it is read at a voltage: learnt from enough charges, and covering
it. -/
def chargingCurve (document : Document) (volts : ℚ) : Option Curve :=
  document.charging.filter fun curve =>
    chargingLearnt ≤ curve.learntFrom && curve.covers volts

/-- The charge to report, from 0 at the floor to 1 at full. -/
def estimate (stored : Stored) (gauge : Gauge) (external : Option Bool) (full : Bool) : ℚ :=
  if full then 1
  else
    let document := stored.document
    if external = some true then
      match chargingCurve document gauge.volts with
      | some charging => document.report (charging.chargeAt gauge.volts)
      | none =>
          let share := gauge.charge / 100
          let scaled := match stored.gaugeFull with
            | some full => share / full
            | none => share
          Learn.clamp scaled
    else document.report (document.discharging.chargeAt gauge.volts)

/-- How far the charge `estimate` gives may be off, as a share of what is reported. -/
def figureError (doubles : Doubles) (stored : Stored) (gauge : Gauge) (external : Option Bool) :
    ℚ :=
  let document := stored.document
  let ofCurve (curve : Curve) :=
    let scale := 1 - document.floorCharge
    if 0 < scale then min (curve.error / scale) 1 else 1
  if external = some true then
    match chargingCurve document gauge.volts with
    | some charging => ofCurve charging
    | none => unmeasuredError doubles 0
  else ofCurve document.discharging

/-! ## The state -/

/-- The supply's state: the curve file, the curves and the gauge's full reading once the gauge has
answered, the curve document last sent to every curve stream, and what has been seen. -/
structure State where
  disk : Disk
  stored : Option Stored
  curves : Option Document
  seen : Seen
  record : Record
  run : Option Run
  charge : Option Charge
  full : Full
  low : Low

/-- How the saves a look may make end: that of the gauge's full reading, and that of a refined
curve. -/
structure Saves where
  full : Option SaveFault
  curve : Option SaveFault
deriving DecidableEq

namespace State

/-- A supply whose curves are kept on a disk, read the first time a gauge answers. -/
def new (disk : Disk) : State where
  disk := disk
  stored := none
  curves := none
  seen := .nothing
  record := .new
  run := none
  charge := none
  full := .charging
  low := .new

/-- Put a document in force: saved first, then sent to every curve stream. -/
def replace (s : State) (document : Document) (fails : Option SaveFault) :
    State × Except Unchanged Unit :=
  match s.stored with
  | none => (s, .error .notManaged)
  | some stored =>
      let next := { stored with document := document }
      match s.disk.save next fails with
      | (disk, .error err) => ({ s with disk := disk }, .error (.save err))
      | (disk, .ok ()) =>
          ({ s with disk := disk, curves := some next.document, stored := some next }, .ok ())

/-- Replace both curves with a document's. -/
def load (s : State) (document : Document) (fails : Option SaveFault) :
    State × Except Unchanged Unit :=
  s.replace document fails

/-- Return to the curve the build carries, holding no charging curve. -/
def reset (s : State) (fails : Option SaveFault) : State × Except Unchanged Unit :=
  s.replace .shipped fails

/-- Put a refined document in force, where it is valid. -/
def refine (s : State) (which : Which) (refined : Except Invalid Document)
    (fails : Option SaveFault) : State :=
  match refined with
  | .error _ => s
  | .ok document =>
      match which.curve document with
      | none => s
      | some _ => (s.replace document fails).1

/-- A charge from a known start has reached full: refine the charging curve from it.  It is taken
to have finished where the cell began the hold the finished charge was told by. -/
def learnFromCharge (doubles : Doubles) (s : State) (now : Duration) (charge : Charge)
    (fails : Option SaveFault) : State :=
  match s.stored with
  | none => s
  | some stored =>
      let document := stored.document
      let ended := now - charge.recording.began - hold
      match fromCharge doubles document.charging charge.anchor document.floorCharge
        charge.recording.samples ended with
      | .ok curve =>
          s.refine .charging (Document.new doubles document.discharging (some curve)) fails
      | .error _ => s

/-- A run on battery has ended in a low-battery shutdown: refine the discharging curve from it. -/
def learnFromRun (doubles : Doubles) (s : State) (fails : Option SaveFault) : State :=
  match s.run, s.stored with
  | some run, some stored =>
      let document := stored.document
      match fromRun doubles document.discharging run.fromFull run.recording.samples with
      | .ok curve =>
          { s with run := none }.refine .discharging
            (Document.new doubles curve document.charging) fails
      | .error _ => { s with run := none }
  | _, _ => { s with run := none }

/-- A finished charge: the gauge's reading now is its reading on a full cell. -/
def chargeFinished (doubles : Doubles) (s : State) (now : Duration) (gauge : Gauge)
    (saves : Saves) : State :=
  let share := gauge.charge / 100
  let s :=
    match s.stored with
    | some stored =>
        if hshare : 0 < share then
          let stored := { stored with
            gaugeFull := some share
            gaugeFull_pos := by simpa using hshare }
          { s with
            stored := some stored
            disk := (s.disk.save stored saves.full).1 }
        else s
    | none => s
  match s.charge with
  | some charge => { s with charge := none }.learnFromCharge doubles now charge saves.curve
  | none => s

/-- Load the curves from the store the first time a gauge answers. -/
def manage (doubles : Doubles) (s : State) : State :=
  match s.stored with
  | some _ => s
  | none =>
      let stored := s.disk.load doubles
      { s with curves := some stored.document, stored := some stored }

/-- Start and drop the run and charge being recorded, as external power comes and goes. -/
def followEvent (s : State) (now : Duration) (event : Option Event) (volts : ℚ) (wasFull : Bool) :
    State :=
  match event with
  | some (.found false _) =>
      { s with run := some { fromFull := false, recording := .new now } }
  | some (.lost _) =>
      -- A charge cut short never reached full, and teaches nothing.
      { s with charge := none, run := some { fromFull := wasFull, recording := .new now } }
  | some (.restored _ _) =>
      -- Where the run ended is the known start the charge is anchored at.
      let from' := (s.run.bind fun run => run.recording.last).getD volts
      let anchor := match s.stored with
        | some stored => stored.document.discharging.chargeAt from'
        | none => 0
      { s with run := none, charge := some { anchor := anchor, recording := .new now } }
  | _ => s

/-- Extend the run or charge being recorded, dropping one that has run too long. -/
def followSample (s : State) (now : Duration) (external : Option Bool) (volts : ℚ) : State :=
  match external with
  | some false =>
      { s with run := s.run.bind fun run =>
          (run.recording.push now volts).map fun recording => { run with recording := recording } }
  | some true =>
      { s with charge := s.charge.bind fun charge =>
          (charge.recording.push now volts).map fun recording =>
            { charge with recording := recording } }
  | none => s

/-- Start, extend and drop the run and charge being recorded, as external power comes and goes. -/
def follow (s : State) (now : Duration) (event : Option Event) (external : Option Bool)
    (volts : ℚ) (wasFull : Bool) : State :=
  (s.followEvent now event volts wasFull).followSample now external volts

/-- Take in whether external power reaches the board, as far as a finished charge goes. -/
def observeFull (doubles : Doubles) (s : State) (now : Duration) (gauge : Gauge)
    (external : Option Bool) (saves : Saves) : State :=
  match external with
  | some true =>
      match s.full.observe now gauge.volts with
      | (full, true) => { s with full := full }.chargeFinished doubles now gauge saves
      | (full, false) => { s with full := full }
  -- The cell carries the device again, so it is no longer known full.
  | some false => { s with full := .charging }
  | none => s

/-- Take in the power line, where it answered. -/
def observeLine (s : State) (now : Duration) (gauge : Gauge) (external : Option Bool) :
    State × Option Event :=
  match external with
  | none => (s, none)
  | some external =>
      match s.record.observe now external gauge with
      | (record, event) => ({ s with record := record }, event)

/-- Take in one look at the supply. -/
def observe (doubles : Doubles) (s : State) (look : Look) (now : Duration) (atMillis : ℕ)
    (uptime : Option Duration) (saves : Saves) : State × Observed :=
  match look.gauge with
  | .error unanswered =>
      let seen := match unanswered with
        | .noGauge => Seen.noGauge
        | .failed reason => .unanswered atMillis reason
      ({ s with seen := seen, low := (s.low.observe now uptime none).1 },
        { report := none, held := none })
  | .ok gauge =>
      let external := look.external
      let s := s.manage doubles
      let wasFull := s.full = .finished
      let s := s.observeFull doubles now gauge external saves
      let full := s.full = .finished
      let (charge, error) := match s.stored with
        | some stored =>
            (estimate stored gauge external full, figureError doubles stored gauge external)
        | none => (0, 1)
      let (s, event) := s.observeLine now gauge external
      let s := s.follow now event external gauge.volts wasFull
      let (low, held) := s.low.observe now uptime look.floor
      ({ s with
          seen := .gauge { atMillis, gauge, external, charge, full, error }
          low := low },
        { report := event.map fun event => (event, charge)
          held := if held then some { volts := gauge.volts, away := s.record.away now } else none })

/-- Powering off for a low battery has been asked for, whatever came of it. -/
def settle (s : State) : State :=
  { s with low := s.low.settle }

end State

end Bliti.Facts.Power
