import Bliti.Network.Stack.Driver.Attempt

/-!
# The network stack - applying, judging and answering

Rendering and applying the decision where it has changed, judging the proposal
that waits on it, and trying again what failed.
-/

namespace Bliti.Network.Stack

open Std (ExtTreeMap ExtTreeSet)
open Channel.Config Select Probe

variable {φ : Type}

/-! ## What a verified configuration comes to -/

/-- A candidate a configuration adds or changes, and the interfaces it is judged
on. -/
structure Judged where
  candidate : Nat
  interfaces : List String
deriving DecidableEq, Repr

/-- The candidates from a rank on that a configuration replaced does not carry,
those of it already matched being taken. -/
def changedFrom [BEq φ] (replaced : List (Attachment φ)) :
    List (Attachment φ) → Nat → List Bool → List Nat
  | [], _, _ => []
  | attachment :: rest, rank, taken =>
      match (List.range replaced.length).find? fun old =>
        !(taken[old]?.getD false) && replaced[old]?.any (· == attachment) with
      | some old => changedFrom replaced rest (rank + 1) (taken.set old true)
      | none => rank :: changedFrom replaced rest (rank + 1) taken

/-- The candidates of a proposal that the configuration replaced does not
carry. -/
def changed [BEq φ] (replaced proposal : Document φ) : List Nat :=
  changedFrom replaced.attachments proposal.attachments 0
    (List.replicate replaced.attachments.length false)

/-- What a candidate that does not hold failed with, where it was tried. -/
def faultOf (decision : Decision) (candidate : Nat) : Option Fault :=
  match decision.states[candidate]? with
  | some (.unavailable fault) => some fault
  | _ => none

/-- How far a candidate got, by the stage its failure reached: one with none got
least far. -/
def reachedRank (fault : Option Fault) : Nat :=
  match fault with
  | some fault => fault.reached.rank + 1
  | none => 0

/-- The candidate that got furthest, the first in the ordering among equals. -/
def furthest : List (Nat × Option Fault) → Option (Nat × Option Fault)
  | [] => none
  | first :: rest => some (rest.foldl (fun best next =>
      if reachedRank best.2 < reachedRank next.2 ∨
          (reachedRank best.2 = reachedRank next.2 ∧ next.1 ≤ best.1) then next
      else best) first)

/-- Applied where every candidate judged holds; else failed at the one of those
that do not which passed the most stages. -/
def verdict (decision : Decision) (judged : List Judged) : Except Failure Unit :=
  let short := judged.filter fun judged =>
    !judged.interfaces.any (carriesEstablished decision)
  match furthest (short.map fun judged =>
    (judged.candidate, faultOf decision judged.candidate)) with
  | none => .ok ()
  | some (candidate, fault) =>
      let placeOf (member : List Segment) :=
        path ([.name "attachments", .index candidate] ++ member)
      match fault with
      | some fault => .error (fault.reached.failed (placeOf fault.member) fault.reason)
      | none =>
          .error {
            atPath := placeOf []
            reason := "no interface it could go on was free to bring it up"
            reached := none }

/-- Why a hotspot sharing a radio's channel cannot run while its wireless
connection is on a channel no access point may start on. -/
def barred (radio : RadioInfo) (ssid : Option String) (channel : Render.Channel) :
    Option String :=
  let (band, name) : Band × String :=
    match channel.band with
    | .twoPointFour => (.twoPointFour, "2.4 GHz")
    | .five => (.five, "5 GHz")
  let flags := (radio.band band).bind fun info =>
    info.channels.find? fun c => c.number == channel.number
  let because (why : String) : String :=
    let connection :=
      match ssid with
      | some ssid => radio.station ++ " is connected to " ++ Text.debug ssid
      | none => radio.station ++ "'s wireless connection is up"
    "the hotspot cannot run while " ++ connection ++ ": this radio runs a hotspot only on " ++
      "its connection's channel, and " ++ name ++ " channel " ++ toString channel.number ++
      " " ++ why ++ ". Turn the connection off to run the hotspot"
  match flags with
  | some flags =>
      if flags.canStartAp then none
      else if flags.radar then some (because "needs radar detection this radio cannot do")
      else some (because "is one the regulatory domain lets no hotspot start on")
  | none => some (because "is one the regulatory domain lets no hotspot start on")

namespace Driver

/-- Those of some candidates that are judged, each with the interfaces it is
judged on. -/
def judged (d : Driver φ) (candidates : List Nat) : List Judged :=
  candidates.filterMap fun candidate =>
    d.document.attachments[candidate]?.bind fun attachment =>
      if !attachment.enabled || !attachment.verify then none
      else
        let interfaces : List String :=
          match attachment.kind with
          | .wiredDynamic interface => [interface]
          | .wiredStatic interface _ _ => [interface]
          | .wireless wireless =>
              match wireless.interface with
              | some interface => [interface]
              | none =>
                  let linked := (d.selector.decision.links.toList.find? fun entry =>
                    entry.2.candidate == candidate).map Prod.fst
                  match linked.or d.placed[candidate]? with
                  | some radio => [radio]
                  | none => d.shared.hardware.radios.map (·.station)
        some { candidate := candidate, interfaces := interfaces }

/-- Give an answer. -/
def reply (d : Driver φ) (reply : Nat) (answer : Except Failure Unit) : Driver φ :=
  { d with answered := d.answered ++ [(reply, answer)] }

/-- Fail the command waiting, where one is. -/
def failPending (d : Driver φ) (failure : Failure) : Driver φ :=
  match d.pending with
  | some (pending, _) => { d with pending := none }.reply pending.reply (.error failure)
  | none => d

/-- The part of the document an apply failure is in. -/
def atFault (d : Driver φ) (error : ApplyError) : String :=
  match error.backend with
  | some .hostapd =>
      if d.document.hotspot.isSome then path [.name "hotspot"] else path []
  | some .regdom =>
      if d.document.regulatoryDomain.isSome then path [.name "regulatory-domain"] else path []
  | _ => path []

/-! ## Rendering and applying -/

/-- Whether a radio runs its access point only on its client's channel. -/
def sharesChannel (d : Driver φ) (station : String) : Bool :=
  (d.shared.hardware.radio station).any fun radio => radio.accessPoint == some .sharedChannel

/-- The shared-channel radio the hotspot is placed on, where a pending proposal's
scan of it is still out and a wireless candidate turned on could go on it. -/
def hotspotAwaitsScan (d : Driver φ) : Option String :=
  match d.selector.decision.hotspot with
  | none => none
  | some placement =>
      let radio := placement.radio
      if !d.scanning.contains radio || !d.sharesChannel radio then none
      else if d.document.attachments.any fun attachment =>
          match attachment.kind with
          | .wireless wireless =>
              attachment.enabled && wireless.interface.all fun pin => pin == radio
          | _ => false
        then some radio
      else none

/-- Why the hotspot cannot run. -/
def hotspotBarred (d : Driver φ) (selection : Render.Selection) : Option String :=
  match selection.hotspot with
  | none => none
  | some station =>
      if !d.sharesChannel station then none
      else
        match selection.channels[station]?, d.radios.find? fun radio => radio.station == station with
        | some channel, some radio =>
            barred radio (d.joined[station]?.map (·.ssid)) channel
        | _, _ => none

/-- Render and apply the decision, where it has changed and no apply is
running. -/
def kick (d : Driver φ) : Driver φ :=
  if !d.configured || d.wanted ≤ d.taken || !d.idle then d
  else
    let d := { d with taken := d.wanted }
    let selection := d.selector.selection
    let d := { d with hotspotScanning := d.hotspotAwaitsScan }
    let selection :=
      if d.hotspotScanning.isSome then { selection with hotspot := none } else selection
    let barred := d.hotspotBarred selection
    let selection := if barred.isSome then { selection with hotspot := none } else selection
    match d.shared.render d.document selection with
    | .error (.invalid invalid) =>
        { d with done := d.taken }.failPending (.ofInvalid invalid)
    | .error (.selection reason) =>
        { d with done := d.taken }.failPending
          { atPath := path [], reason := reason, reached := none }
    | .ok conf =>
        let d :=
          match barred with
          | some reason =>
              d.failPending
                { atPath := path [.name "hotspot"], reason := reason, reached := none }
          | none => d
        let beside := selection.hotspot.filter fun radio =>
          selection.channels.contains radio && d.sharesChannel radio
        { d with
          idle := false
          bounce := beside.filter fun _ => conf.isSome && conf != d.hostapd
          hostapd := conf }.start
            (.applying d.taken (d.selector.decision.links.values.map Link.attempt))

/-! ## Answering -/

/-- Whether what a command waits on has come about. -/
def ready (d : Driver φ) (pending : Pending) (needs : Nat) : Bool :=
  needs ≤ d.done && !d.reprobing &&
    match pending with
    | .restore _ => true
    | .apply _ _ =>
        let verifying := d.selector.decision.states.any fun
          | .verifying _ => true
          | _ => false
        let applying := !d.idle || d.taken < d.wanted
        !verifying && !applying && d.scanning.isEmpty

/-- Answer the command waiting, where what it waits on has come about. -/
def answer (d : Driver φ) : Driver φ :=
  match d.pending with
  | none => d
  | some (pending, needs) =>
      if !d.ready pending needs then d
      else
        let answer :=
          match pending with
          | .apply _ changed => verdict d.selector.decision (d.judged changed)
          | .restore _ => .ok ()
        { d with pending := none }.reply pending.reply answer

/-- Schedule trying a failed candidate again, backing off each time it fails
again. -/
def retryLater (d : Driver φ) (candidate : Nat) : Driver φ :=
  let tries := d.backoff[candidate]?.getD 0
  { d with backoff := d.backoff.insert candidate (tries + 1) }.start
    (.retry candidate d.generation (backoffAfter tries))

/-- Answer the command waiting, and once none is, schedule trying again what
failed. -/
def settle (d : Driver φ) : Driver φ :=
  let d := d.answer
  if d.pending.isNone then
    d.failed.toList.foldl retryLater { d with failed := ∅ }
  else d

/-- Whether trying a candidate again could bring something up where nothing is:
a candidate whose every interface carries an established one would only take it
down to try. -/
def worthRetrying (d : Driver φ) (candidate : Nat) : Bool :=
  let free (interface : String) : Bool := !carriesEstablished d.selector.decision interface
  match d.document.attachments[candidate]?.map Attachment.kind with
  | some (.wiredDynamic interface) => free interface
  | some (.wiredStatic interface _ _) => free interface
  | some (.wireless wireless) =>
      (d.shared.hardware.radiosFor wireless.interface).any fun radio => free radio.station
  | none => false

end Driver

end Bliti.Network.Stack
