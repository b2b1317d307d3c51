import Bliti.Network.Stack.Driver.Answer

/-!
# The network stack - the driver's task

The task driving the running system, one command, observation or piece of work
ended at a time: each is taken in, what changed is rendered and applied, what
waits is answered, and radios are swept for what is out of range.
-/

namespace Bliti.Network.Stack

open Std (ExtTreeMap ExtTreeSet)
open Channel.Config Select Probe

variable {φ : Type}

namespace Driver

/-! ## Sweeps -/

/-- The radios free to carry one wireless candidate that is out of range, which
are to be scanned for it. -/
def sweepingFor (d : Driver φ) (rank : Nat) (attachment : Attachment φ) : List String :=
  match attachment.kind with
  | .wireless wireless =>
      if !attachment.enabled then []
      -- A hidden network is taken to be in range, since it cannot be heard.
      else if wireless.hidden == some true then []
      else
        let could := d.radios.filter fun radio =>
          wireless.interface.all fun pin => pin == radio.station
        let heard := could.any fun radio =>
          d.heard[radio.station]?.any fun networks => networks.contains wireless.ssid
        if heard then []
        else
          (could.filter fun radio =>
            radio.scan && d.selector.decision.links[radio.station]?.all fun link =>
              rank < link.candidate).map (·.station)
  | _ => []

/-- The radios free to carry a wireless candidate above the default route that is
out of range. -/
def sweeping (d : Driver φ) : ExtTreeSet String :=
  if !d.configured then ∅
  else
    let above := d.selector.decision.defaultRoute.getD d.document.attachments.length
    .ofList ((d.document.attachments.take above).zipIdx.flatMap fun (attachment, rank) =>
      d.sweepingFor rank attachment)

/-- Wait out a sweep's backoff before its next scan. -/
def sweepLater (d : Driver φ) (radio : String) : Driver φ :=
  match d.sweeps[radio]? with
  | none => d
  | some sweep =>
      { d with sweeps := d.sweeps.insert radio { sweep with tries := sweep.tries + 1 } }.start
        (.sweeping radio sweep.token (backoffAfter sweep.tries))

/-- Start sweeping a radio, where it is not swept already. -/
def sweepOne (d : Driver φ) (radio : String) : Driver φ :=
  if d.sweeps.contains radio then d
  else
    { d with
      swept := d.swept + 1
      sweeps := d.sweeps.insert radio { token := d.swept + 1, tries := 0 } }.sweepLater radio

/-- Start sweeping each radio with something to look for, and stop sweeping the
rest. -/
def sweep (d : Driver φ) : Driver φ :=
  let wanted := d.sweeping
  wanted.toList.foldl sweepOne
    { d with sweeps := d.sweeps.filter fun radio _ => wanted.contains radio }

/-- Whether a sweep of a radio goes on. -/
def sweepsOn (d : Driver φ) (radio : String) (token : Nat) : Bool :=
  d.sweeps[radio]?.any fun sweep => sweep.token == token

/-- Scan for a sweep whose wait is over, where it has not stopped since. -/
def sweepNow (d : Driver φ) (radio : String) (token : Nat) : Driver φ :=
  if d.sweepsOn radio token then d.scan radio (.sweep token) else d

/-- Take in that a sweep's scan is in, and wait for the next where it goes on. -/
def sweptOn (d : Driver φ) (radio : String) (token : Nat) : Driver φ :=
  if d.sweepsOn radio token then d.sweepLater radio else d

/-! ## Scans a proposal waits on -/

/-- Scan on a radio for the pending proposal. -/
def scanOneForPending (d : Driver φ) (radio : RadioInfo) : Driver φ :=
  if !radio.scan then d
  else
    let scans := d.scanning[radio.station]?.getD 0
    { d with scanning := d.scanning.insert radio.station (scans + 1) }.scan radio.station
      .pending

/-- Scan on every radio able to for the pending proposal, where it carries a
wireless candidate turned on. -/
def scanForPending (d : Driver φ) : Driver φ :=
  let wireless := d.document.attachments.any fun attachment =>
    attachment.enabled && isWireless attachment
  if !wireless then d else d.radios.foldl scanOneForPending d

/-- The attempts on an interface whose check meets a condition. -/
def attemptsOn (d : Driver φ) (interface : String) (p : Check → Bool) : List Attempt :=
  (d.checks.values.filter fun check => check.interface == interface && p check).map
    (·.attempt)

variable [BEq φ]

/-- Take in that a pending proposal's scan of a radio is in, letting the joins
waiting on it go ahead once none is left. -/
def scannedForPending (d : Driver φ) (radio : String) : Driver φ :=
  match d.scanning[radio]? with
  | none => d
  | some left =>
      if 0 < left - 1 then { d with scanning := d.scanning.insert radio (left - 1) }
      else
        let d := { d with scanning := d.scanning.erase radio }
        let d :=
          if d.hotspotScanning == some radio then { d with wanted := d.wanted + 1 }.kick else d
        let waiting := d.attemptsOn radio (·.awaitingScan)
        let d := { d with
          checks := d.checks.map fun _ check =>
            if check.interface == radio && check.awaitingScan then
              { check with awaitingScan := false }
            else check }
        waiting.foldl associate d

/-! ## Observations -/

/-- What a radio hears now, as the selector's in-range and out-of-range events.
Only a finished scan takes a network out of range. -/
def hear (d : Driver φ) (interface : String) (networks : ExtTreeMap String Int)
    (scanned : Bool) : Driver φ :=
  let before := d.heard[interface]?.getD ∅
  let now := if scanned then networks else before.insertMany networks.toList
  let d := { d with heard := d.heard.insert interface now }
  let d :=
    if scanned then
      (before.keys.filter fun ssid => !networks.contains ssid).foldl
        (fun d ssid => d.feed (.outOfRange interface ssid)) d
    else d
  networks.toList.foldl
    (fun d (ssid, signal) =>
      if before[ssid]? != some signal then d.feed (.inRange interface ssid signal) else d) d

/-- The attempt on a radio that has associated. -/
def associatedOn (d : Driver φ) (interface : String) : Option Check :=
  d.checks.values.find? fun check =>
    check.interface == interface && check.armed && check.joining.isSome &&
      check.atStage.all fun stage => Stage.association.rank < stage.rank

/-- A radio's wireless client changed state. -/
def stationEvent (d : Driver φ) (interface : String) (station : Station) : Driver φ :=
  let d := { d with
    stations := d.stations.insert interface station
    joined :=
      match station with
      | .connected joined => d.joined.insert interface joined
      | .disconnected => d.joined.erase interface
      | .busy => d.joined }
  match d.associatedOn interface with
  | none => d
  | some check =>
      let ssid := (check.joining.map (·.target.ssid)).getD ""
      match station with
      | .connected joined =>
          if joined.ssid == ssid then d.stationChannel interface joined.frequency else d
      | .busy => d
      | .disconnected =>
          if d.bounce == some interface then { d with bounce := none }.rejoin check.attempt
          else
            d.fail check.attempt .association []
              (interface ++ " was disassociated from " ++ Text.debug ssid)

/-- Take in an announcement on every check of an interface, and move each on. -/
def announce (d : Driver φ) (interface : String) (observation : Observation) : Driver φ :=
  let attempts := d.attemptsOn interface fun _ => true
  let d := { d with
    checks := d.checks.map fun _ check =>
      if check.interface == interface then check.announced observation else check }
  attempts.foldl evaluate d

/-- Probe the radios again. -/
def reprobe (d : Driver φ) : Driver φ :=
  { d with reprobing := true }.start .reprobing

/-- Take in an observation. -/
def observe (d : Driver φ) (observation : Observation) : Driver φ :=
  match observation with
  | .carrier interface up => d.feed (.carrier interface up)
  | .heard interface networks scanned => d.hear interface networks scanned
  | .station interface station => d.stationEvent interface station
  | .regulatory => if d.reprobing then { d with reprobeAgain := true } else d.reprobe
  | .address .. | .route .. =>
      let (links, concerned) := d.links.observe observation
      let d := { d with links := links }
      match concerned with
      | none => d
      | some interface => d.announce interface observation

/-! ## Work ended -/

/-- Take in how an apply ended. -/
def appliedEnd (d : Driver φ) (result : Except ApplyError Changes) (taken : Nat)
    (attempts : List Attempt) : Driver φ :=
  let d := { d with idle := true, done := taken }
  let d :=
    match result with
    | .ok changes =>
        let d := if changes.regdom then d.reprobe else d
        -- A restarted wireless client aborted any scan the proposal started.
        match d.pending with
        | some (.apply _ _, _) => if changes.iwdConfig then d.scanForPending else d
        | _ => d
    | .error error =>
        d.failPending { atPath := d.atFault error, reason := error.text, reached := none }
  attempts.foldl arm d

/-- Take in the radios probed again. -/
def reprobed (d : Driver φ) (result : Except String (List RadioInfo)) : Driver φ :=
  let d :=
    match result with
    | .ok radios => { d with radios := radios }
    | .error _ => d
  if d.reprobeAgain then { d with reprobeAgain := false }.reprobe
  else { d with reprobing := false }

/-- Take in that a scan is in, as what asked for it has it. -/
def scannedFor (d : Driver φ) (interface : String) : Scanner → Driver φ
  | .pending => d.scannedForPending interface
  | .sweep token => d.sweptOn interface token
  | .refused attempt => d.rescanned attempt

/-- Take in a scan. -/
def scannedEnd (d : Driver φ) (interface : String)
    (result : Except String (ExtTreeMap String Int)) (scanner : Scanner) : Driver φ :=
  match result with
  | .ok networks => (d.hear interface networks true).scannedFor interface scanner
  | .error _ => d.scannedFor interface scanner

/-- Take in that a retry's wait is over. -/
def retryOver (d : Driver φ) (candidate generation : Nat) : Driver φ :=
  if generation == d.generation && d.worthRetrying candidate then
    d.feed (.retry candidate)
  else d

/-- Take in that a piece of work ended. -/
def internal (d : Driver φ) : Internal → Driver φ
  | .applied result taken attempts => d.appliedEnd result taken attempts
  | .reprobed result => d.reprobed result
  | .scanned interface result scanner => d.scannedEnd interface result scanner
  | .sweep radio token => d.sweepNow radio token
  | .associated attempt result => d.associated attempt result
  | .operating interface frequency =>
      match frequency with
      | some frequency => d.feed (.stationChannel interface (renderChannel frequency))
      | none => d
  | .rejoined attempt result => d.rejoined attempt result
  | .deadline attempt timer => d.deadlinePassed attempt timer
  | .probed attempt result => d.probed attempt result
  | .retry candidate generation => d.retryOver candidate generation

/-! ## Commands -/

/-- Take in a command. -/
def command (d : Driver φ) : Command φ → Driver φ
  | .apply document replacing reply =>
      match d.configure document with
      | .ok d =>
          { d with
            pending := some (.apply reply (changed replacing document), d.wanted) }.scanForPending
      | .error invalid => d.reply reply (.error (.ofInvalid invalid))
  | .restore document reply =>
      match d.configure document with
      | .ok d => { d with pending := some (.restore reply, d.wanted) }
      | .error invalid => d.reply reply (.error (.ofInvalid invalid))

/-! ## The task -/

/-- What one turn of the task takes in. -/
inductive Turn (φ : Type) where
  | command (command : Command φ)
  | observed (observation : Observation)
  | ended (work : Work) (internal : Internal)

/-- What the task does with what it took in. -/
def takeIn (d : Driver φ) : Turn φ → Driver φ
  | .command command => d.command command
  | .observed observation => d.observe observation
  | .ended work internal => { d with work := d.work.erase work }.internal internal

/-- One turn of the task. -/
def turn (d : Driver φ) (turn : Turn φ) : Driver φ :=
  (d.takeIn turn).kick.settle.sweep

/-- Whether a turn can be taken: work that ends was started. -/
def canTurn (d : Driver φ) : Turn φ → Bool
  | .ended work internal => d.work.contains work && work.ends internal
  | _ => true

/-- Take a turn, where it can be taken. -/
def takeTurn (d : Driver φ) (turn : Turn φ) : Option (Driver φ) :=
  if d.canTurn turn then some (d.turn turn) else none

end Driver

/-- The task driving the running system, from its start on a selector of a
document of nothing. -/
def driving [BEq φ] (shared : Shared φ) : Transition.System (Driver φ) (Driver.Turn φ) :=
  .ofTake (fun d => ∃ radios selector,
      Selector.new shared.hardware
        { attachments := [], hotspot := none, regulatoryDomain := none } = .ok selector ∧
      d = .new shared radios selector)
    Driver.takeTurn

end Bliti.Network.Stack
