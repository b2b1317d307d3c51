import Bliti.Network.Stack.Driver.Follow

/-!
# The network stack - verifying one attempt

Verifying one attempt through its stages: joining a wireless candidate, then its
addressing and its gateway, each against a deadline.
-/

namespace Bliti.Network.Stack

open Std (ExtTreeMap ExtTreeSet)
open Channel.Config Select Probe

variable {φ : Type}

/-- Whether a join was answered with the bare failure of a network refusing the
handshake. -/
def refused (reason : String) : Bool :=
  reason.toList.tails.any fun tail => "net.connman.iwd.Failed".toList.isPrefixOf tail

/-- Where a key-based candidate carries its passphrase. -/
def PASSPHRASE : List Segment :=
  [.name "security", .name "passphrase"]

namespace Driver

/-- A check with something of it changed, where there is one. -/
def updateCheck (d : Driver φ) (check : Check) : Driver φ :=
  { d with checks := d.checks.insert check.attempt.id check }

/-- The check on an attempt. -/
def checkOf (d : Driver φ) (attempt : Attempt) : Option Check :=
  d.checks[attempt.id]?

/-- Scan on a radio. -/
def scan (d : Driver φ) (station : String) (scanner : Scanner) : Driver φ :=
  d.start (.scanning station scanner)

/-- Have the attempt's current stage fail unless it passes in time. -/
def deadline (d : Driver φ) (attempt : Attempt) (wait : Nat) : Driver φ :=
  match d.checkOf attempt with
  | none => d
  | some check =>
      (d.updateCheck { check with timer := check.timer + 1 }).start
        (.deadline attempt (check.timer + 1) wait)

/-- Have the attempt's addressing fail unless it passes in time. -/
def addressDeadline (d : Driver φ) (attempt : Attempt) : Driver φ :=
  match d.checkOf attempt with
  | none => d
  | some check =>
      d.deadline attempt
        (match check.addressing with
        | .dynamic => LEASE
        | .static _ _ => CONFIGURE)

/-- Join again the network an attempt past association was knocked off. -/
def rejoin (d : Driver φ) (attempt : Attempt) : Driver φ :=
  match d.checkOf attempt with
  | none => d
  | some check =>
      match check.joining with
      | none => d
      | some joining => d.start (.rejoining attempt check.interface joining.target)

variable [BEq φ]

/-- Fail an attempt at a stage. -/
def fail (d : Driver φ) (attempt : Attempt) (stage : Stage) (member : List Segment)
    (reason : String) : Driver φ :=
  d.feed (.failed attempt stage member reason)

/-- Take in the channel a radio joined on, asking for it where it was not said. -/
def stationChannel (d : Driver φ) (interface : String) (frequency : Option Nat) : Driver φ :=
  match frequency with
  | some frequency => d.feed (.stationChannel interface (renderChannel frequency))
  | none => d.start (.operating interface)

/-- Move an attempt at its gateway stage on. -/
def evaluateGateway (d : Driver φ) (attempt : Attempt) (check : Check) : Driver φ :=
  if check.probing then d
  else
    match check.gateway d.links with
    | none => d
    | some (source, gateway) =>
        (d.updateCheck { check with probing := true, timer := check.timer + 1 }).start
          (.probing attempt source gateway)

/-- Move an attempt on as far as what is observed of its link takes it. -/
def evaluate (d : Driver φ) (attempt : Attempt) : Driver φ :=
  match d.checkOf attempt with
  | none => d
  | some check =>
      if !check.armed then d
      else
        match check.atStage with
        | some .addressing =>
            if (check.held d.links).isEmpty then d
            else
              let d := d.updateCheck
                { check with atStage := some .gateway, timer := check.timer + 1 }
              let d := (d.feed (.passed attempt .addressing)).deadline attempt ROUTE
              -- The source evaluates again: the attempt is at its gateway now, where
              -- it is still held.
              match d.checkOf attempt with
              | none => d
              | some check =>
                  if check.armed && check.atStage == some .gateway then
                    d.evaluateGateway attempt check
                  else d
        | some .gateway => d.evaluateGateway attempt check
        | none =>
            if (check.held d.links).isEmpty then
              d.fail attempt .addressing [] (check.interface ++ " lost its address")
            else d
        | some .carrier | some .association => d

/-- Take in the scan after a refused join.  A network no longer heard has already
been taken out of range; one still heard refused the passphrase, or under 802.1X
the credentials. -/
def rescanned (d : Driver φ) (attempt : Attempt) : Driver φ :=
  match d.checkOf attempt with
  | none => d
  | some check =>
      if check.atStage != some .association then d
      else
        match check.joining with
        | none => d
        | some joining =>
            let ssid := Text.debug joining.target.ssid
            match joining.target.kind with
            | .psk =>
                d.fail attempt .association PASSPHRASE
                  (ssid ++ " refused the connection; the passphrase is most likely wrong")
            | .enterprise =>
                d.fail attempt .association []
                  (ssid ++ " refused the connection, or its server did not prove itself by " ++
                    "the certificate authority and domain given; check those and the " ++
                    "credentials")

/-- Take in how a join ended. -/
def associated (d : Driver φ) (attempt : Attempt) (result : Except String Joined) :
    Driver φ :=
  match d.checkOf attempt with
  | none => d
  | some check =>
      if check.atStage != some .association then d
      else
        match check.joining with
        | none => d
        | some joining =>
            match result with
            | .ok joined =>
                if joining.sae && !joined.bySae then
                  d.fail attempt .association []
                    (Text.debug joining.target.ssid ++ " was joined by " ++
                      joined.security.getD "a method iwd did not name" ++ ", not by SAE")
                else
                  let d := d.updateCheck { check with atStage := some .addressing }
                  let d := { d with joined := d.joined.insert check.interface joined }
                  let d := d.feed (.passed attempt .association)
                  let d := d.stationChannel check.interface joined.frequency
                  (d.addressDeadline attempt).evaluate attempt
            | .error reason =>
                if refused reason then
                  if d.radios.any fun radio =>
                      radio.station == check.interface && radio.scan then
                    d.scan check.interface (.refused attempt)
                  else d.rescanned attempt
                else d.fail attempt .association [] reason

/-- Join the network of an attempt, where its radio has not joined it already. -/
def associate (d : Driver φ) (attempt : Attempt) : Driver φ :=
  match d.checkOf attempt with
  | none => d
  | some check =>
      match check.joining with
      | none => d
      | some joining =>
          let join := d.start (.associating attempt check.interface joining.target)
          match d.stations[check.interface]? with
          | some (.connected joined) =>
              if joined.ssid == joining.target.ssid then d.associated attempt (.ok joined)
              else join
          | _ => join

/-- Take in how joining again ended. -/
def rejoined (d : Driver φ) (attempt : Attempt) (result : Except String Joined) : Driver φ :=
  match d.checkOf attempt with
  | none => d
  | some check =>
      match result with
      | .ok joined => d.stationChannel check.interface joined.frequency
      | .error reason =>
          d.fail attempt .association []
            (check.interface ++ " could not join again after the hotspot started beside it: " ++
              reason)

/-- Have an attempt asked for, now that what brings it up is in place. -/
def arm (d : Driver φ) (attempt : Attempt) : Driver φ :=
  match d.checkOf attempt with
  | none => d
  | some check =>
      if check.armed then d
      else
        let check := { check with armed := true }
        match check.atStage with
        | some .association =>
            -- Joined from a scan older than the proposal, a network just gone
            -- would be tried.
            if d.scanning.contains check.interface then
              d.updateCheck { check with awaitingScan := true }
            else (d.updateCheck check).associate attempt
        | some .addressing =>
            ((d.updateCheck check).addressDeadline attempt).evaluate attempt
        | _ => (d.updateCheck check).evaluate attempt

/-- Take in whether the gateway answered. -/
def probed (d : Driver φ) (attempt : Attempt) (result : Except String Unit) : Driver φ :=
  match d.checkOf attempt with
  | none => d
  | some check =>
      let check := { check with probing := false }
      if check.atStage != some .gateway then d.updateCheck check
      else
        match result with
        | .ok () =>
            (d.updateCheck { check with atStage := none }).feed (.passed attempt .gateway)
        | .error reason => (d.updateCheck check).fail attempt .gateway [] reason

/-- Take in that a deadline passed. -/
def deadlinePassed (d : Driver φ) (attempt : Attempt) (timer : Nat) : Driver φ :=
  match d.checkOf attempt with
  | none => d
  | some check =>
      if check.timer != timer || check.probing then d
      else
        match check.atStage with
        | some .addressing =>
            d.fail attempt .addressing []
              (match check.addressing with
              | .dynamic =>
                  check.interface ++ " was leased no address within " ++ toString LEASE ++
                    " seconds"
              | .static _ _ =>
                  check.interface ++ " did not take its address within " ++
                    toString CONFIGURE ++ " seconds")
        | some .gateway =>
            d.fail attempt .gateway []
              ("the network on " ++ check.interface ++ " offered no gateway")
        | _ => d

end Driver

end Bliti.Network.Stack
