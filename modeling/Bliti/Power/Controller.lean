import Bliti.Channel.Config
import Bliti.Library.Roster
import Bliti.Library.Transition

/-!
# Power control - the controller and those it serves

Restarting, rebooting and powering off at a client's request or for a low
battery, and telling every client first.  One controller serves every session
and the supply watcher; accepting an act runs the whole of going away.
-/

namespace Bliti.Power

open Channel.Config

/-! ## Acts -/

/-- Something a client can ask a device to do. -/
inductive Act where
  | restart
  | reboot
  | powerOff
deriving DecidableEq, Repr

/-- The act's wire name. -/
def Act.name : Act → String
  | .restart => "restart"
  | .reboot => "reboot"
  | .powerOff => "power-off"

/-- The act a wire name names, where it names one this build knows. -/
def Act.fromName (name : String) : Option Act :=
  [Act.restart, .reboot, .powerOff].find? fun act => act.name == name

/-- What a device carrying the act out is doing, for a refusal to say. -/
def Act.doing : Act → String
  | .restart => "restarting"
  | .reboot => "rebooting"
  | .powerOff => "powering off"

/-- Why a device is going away. -/
inductive Cause where
  | manualControl
  | lowBattery
deriving DecidableEq, Repr

/-- An act accepted, and why. -/
structure Going where
  act : Act
  cause : Cause
deriving DecidableEq, Repr

/-- What the device is doing, for a refusal to say. -/
def Going.doing (going : Going) : String :=
  match going.cause with
  | .manualControl => going.act.doing
  | .lowBattery => going.act.doing ++ " for a low battery"

/-- An act a client asked for. -/
def Act.asked (act : Act) : Going :=
  { act := act, cause := .manualControl }

/-- A shutdown for a low battery. -/
def Going.lowBattery : Going :=
  { act := .powerOff, cause := .lowBattery }

/-- Why a low-battery shutdown was not begun. -/
inductive NotBegun where
  | cannotPowerOff
  | alreadyGoing (going : Going)
deriving DecidableEq, Repr

/-- Why an act asked for is not taken: the part of the `act` at fault, and why. -/
structure CannotAct where
  atPath : String
  reason : String
deriving DecidableEq, Repr

/-! ## The controller -/

/-- The one controller every session shares: the acts it offers, the act accepted
and not yet failed, the act every open feed is to announce, how many have not yet
handed it to their link, whether every session is to end and how many are open. -/
structure Controller where
  acts : List Act
  accepted : Option Going
  going : Option Going
  untold : Nat
  ending : Bool
  sessions : Nat
deriving DecidableEq, Repr

namespace Controller

/-- A controller offering some acts. -/
def new (acts : List Act) : Controller where
  acts := acts
  accepted := none
  going := none
  untold := 0
  ending := false
  sessions := 0

/-- Take the one accepted slot, or return what holds it. -/
def take (c : Controller) (going : Going) : Except Going Controller :=
  match c.accepted with
  | some already => .error already
  | none => .ok { c with accepted := some going }

/-- Settle what to answer an act asked for. -/
def decide (c : Controller) (name : String) : Except CannotAct (Act × Controller) :=
  match (Act.fromName name).filter fun act => c.acts.contains act with
  | none =>
      .error {
        atPath := path [.name "act"]
        reason := "this device cannot " ++ name }
  | some act =>
      match c.take act.asked with
      | .error already =>
          .error {
            atPath := path []
            reason := "the device is already " ++ already.doing }
      | .ok c => .ok (act, c)

/-- Take the slot for a low-battery shutdown. -/
def lowBattery (c : Controller) : Except NotBegun Controller :=
  if !c.acts.contains .powerOff then .error .cannotPowerOff
  else
    match c.take .lowBattery with
    | .error already => .error (.alreadyGoing already)
    | .ok c => .ok c

end Controller

/-! ## Those it serves -/

/-- An open default feed, counted until it has announced the act accepted or has
closed.  `heard` is the announcement it took from the controller to announce. -/
structure Feed where
  counted : Bool
  heard : Option Nat
  closed : Bool
deriving DecidableEq, Repr

/-- A feed as it opens. -/
def Feed.opened : Feed where
  counted := true
  heard := none
  closed := false

/-- What a power stream's serve is doing: sending its acts, waiting for a message,
sending that an act is accepted or a refusal, or nothing, having ended. -/
inductive Serving where
  | listing
  | reading
  | accepting (act : Act)
  | refusing (refusal : CannotAct)
  | ended
deriving DecidableEq, Repr

/-- What a power stream's serve reads. -/
inductive Received where
  | act (name : String)
  | other
  | closed
  | fault
deriving DecidableEq, Repr

/-- A low-battery shutdown asked for: what comes before it is running, it has begun,
it was not begun, or what came before it panicked. -/
inductive Shutdown where
  | recording
  | begun
  | notBegun (reason : NotBegun)
  | panicked
deriving DecidableEq, Repr

/-- How far going away has gone: the act is to be announced; every feed is being
told; every session is to be ended, or is ending; the connections are being
dropped; the system is carrying the act out, or has; or it failed to, and the
announcement, the ending flag and the slot are being cleared in turn. -/
inductive Phase where
  | spawned
  | telling
  | told
  | closing
  | dropping
  | carrying
  | carried
  | failed
  | unannounced
  | resumed
  | released
deriving DecidableEq, Repr

/-- A task going away: its act, how far it has gone, the number of its announcement,
the feeds open when it announced, and whether they had not all announced in time. -/
structure GoingAway where
  going : Going
  phase : Phase
  number : Nat
  present : List Nat
  timedOut : Bool
deriving DecidableEq, Repr

/-- A task as it begins. -/
def GoingAway.begin (going : Going) : GoingAway where
  going := going
  phase := .spawned
  number := 0
  present := []
  timedOut := false

/-- The controller with the feeds, the power streams, the low-battery shutdowns and
the tasks going away, each known by when it came, and the number of announcements
made. -/
structure Controlled where
  controller : Controller
  feeds : List Feed
  serving : List Serving
  shutdowns : List Shutdown
  goings : List GoingAway
  announced : Nat
deriving DecidableEq, Repr

namespace Controlled

/-- A controller with nothing yet to serve. -/
def new (acts : List Act) : Controlled where
  controller := .new acts
  feeds := []
  serving := []
  shutdowns := []
  goings := []
  announced := 0

/-! ## Sessions and feeds -/

/-- A session closes. -/
def sessionClosed (w : Controlled) : Option Controlled :=
  if w.controller.sessions = 0 then none
  else some { w with
    controller := { w.controller with sessions := w.controller.sessions - 1 } }

/-- A feed opens. -/
def feedOpened (w : Controlled) : Controlled :=
  { w with
    controller := { w.controller with untold := w.controller.untold + 1 }
    feeds := w.feeds ++ [.opened] }

/-- A feed takes the act to announce. -/
def feedHears (w : Controlled) (i : Nat) : Option Controlled :=
  match w.feeds[i]?, w.controller.going with
  | some feed, some _ =>
      if feed.closed || feed.heard.isSome then none
      else some { w with feeds := w.feeds.set i { feed with heard := some w.announced } }
  | _, _ => none

/-- Record that a feed has handed the act to its link, or closes. -/
def uncount (w : Controlled) (i : Nat) (feed : Feed) (closed : Bool) : Controlled :=
  { w with
    controller := { w.controller with
      untold := if feed.counted then w.controller.untold - 1 else w.controller.untold }
    feeds := w.feeds.set i { feed with counted := false, closed := closed } }

/-- A feed has handed the act to its link. -/
def feedTold (w : Controlled) (i : Nat) : Option Controlled :=
  match w.feeds[i]? with
  | some feed =>
      if feed.closed || feed.heard.isNone then none else some (w.uncount i feed false)
  | none => none

/-- A feed closes, its client having declined it, or its link having failed. -/
def feedClosed (w : Controlled) (i : Nat) : Option Controlled :=
  match w.feeds[i]? with
  | some feed => if feed.closed then none else some (w.uncount i feed true)
  | none => none

/-! ## Power streams and shutdowns -/

/-- Go away and carry out an act which has been accepted and answered. -/
def go (w : Controlled) (going : Going) : Controlled :=
  { w with goings := w.goings ++ [.begin going] }

/-- A power stream's send ends. -/
def sent (w : Controlled) (i : Nat) (delivered : Bool) : Option Controlled :=
  match w.serving[i]? with
  | some .listing | some (.refusing _) =>
      some { w with serving := w.serving.set i (if delivered then .reading else .ended) }
  | some (.accepting act) =>
      if delivered then some ({ w with serving := w.serving.set i .reading }.go act.asked)
      -- The serve returns at once.
      else some { w with serving := w.serving.set i .ended }
  | _ => none

/-- A power stream reads a message, or its end. -/
def received (w : Controlled) (i : Nat) (message : Received) : Option Controlled :=
  match w.serving[i]? with
  | some .reading =>
      match message with
      | .act name =>
          match w.controller.decide name with
          | .ok (act, controller) =>
              some { w with
                controller := controller
                serving := w.serving.set i (.accepting act) }
          | .error refusal => some { w with serving := w.serving.set i (.refusing refusal) }
      | .other => some w
      | .closed | .fault => some { w with serving := w.serving.set i .ended }
  | _ => none

/-- A power stream's serve is dropped, as its session ends. -/
def dropped (w : Controlled) (i : Nat) : Option Controlled :=
  match w.serving[i]? with
  | some .ended | none => none
  | some _ => some { w with serving := w.serving.set i .ended }

/-- A shutdown for a low battery is asked for. -/
def lowBattery (w : Controlled) : Controlled :=
  match w.controller.lowBattery with
  | .ok controller =>
      { w with controller := controller, shutdowns := w.shutdowns ++ [.recording] }
  | .error reason => { w with shutdowns := w.shutdowns ++ [.notBegun reason] }

/-- What comes before a shutdown ends, and the shutdown begins, or it panics. -/
def recorded (w : Controlled) (i : Nat) (returned : Bool) : Option Controlled :=
  match w.shutdowns[i]? with
  | some .recording =>
      if returned then some ({ w with shutdowns := w.shutdowns.set i .begun }.go .lowBattery)
      else some { w with shutdowns := w.shutdowns.set i .panicked }
  | _ => none

/-! ## Going away -/

/-- The feeds open. -/
def openFeeds (w : Controlled) : List Nat :=
  (List.range w.feeds.length).filter fun i => w.feeds[i]?.any fun feed => !feed.closed

/-- A task going away moves to a phase. -/
def goTo (w : Controlled) (t : Nat) (g : GoingAway) (phase : Phase) : Controlled :=
  { w with goings := w.goings.set t { g with phase := phase } }

/-- A task announces its act to every feed. -/
def announce (w : Controlled) (t : Nat) (g : GoingAway) : Controlled :=
  { w with
    controller := { w.controller with going := some g.going }
    goings := w.goings.set t { g with
      phase := .telling
      number := w.announced + 1
      present := w.openFeeds }
    announced := w.announced + 1 }

/-- A task going away goes on.  `lapsed` is whether the time of what it waits for,
where it waits, is up. -/
def advance (w : Controlled) (t : Nat) (lapsed : Bool) : Option Controlled :=
  match w.goings[t]? with
  | none => none
  | some g =>
      match g.phase with
      | .spawned => some (w.announce t g)
      | .telling =>
          if w.controller.untold = 0 then some (w.goTo t g .told)
          else if lapsed then some (w.goTo t { g with timedOut := true } .told)
          else none
      | .told =>
          some ({ w with controller := { w.controller with ending := true } }.goTo t g .closing)
      | .closing =>
          if w.controller.sessions = 0 || lapsed then some (w.goTo t g .dropping) else none
      | .dropping => some (w.goTo t g .carrying)
      | .failed =>
          some ({ w with controller := { w.controller with going := none } }.goTo t g .unannounced)
      | .unannounced =>
          some ({ w with controller := { w.controller with ending := false } }.goTo t g .resumed)
      | .resumed =>
          some ({ w with controller := { w.controller with accepted := none } }.goTo t g .released)
      | .carrying | .carried | .released => none

/-- The system has carried a task's act out, or has failed to. -/
def carriedOut (w : Controlled) (t : Nat) (result : Except String Unit) : Option Controlled :=
  match w.goings[t]? with
  | none => none
  | some g =>
      if g.phase = .carrying then
        some (w.goTo t g (match result with | .ok () => .carried | .error _ => .failed))
      else none

/-! ## Any order -/

/-- A step of one of those the controller serves. -/
inductive Step where
  | sessionOpened
  | sessionClosed
  | feedOpened
  | feedHears (feed : Nat)
  | feedTold (feed : Nat)
  | feedClosed (feed : Nat)
  | opened
  | sent (call : Nat) (delivered : Bool)
  | received (call : Nat) (message : Received)
  | dropped (call : Nat)
  | lowBattery
  | recorded (call : Nat) (returned : Bool)
  | advance (task : Nat) (lapsed : Bool)
  | carriedOut (task : Nat) (result : Except String Unit)

/-- Take a step, where it can be taken. -/
def take (w : Controlled) : Step → Option Controlled
  | .sessionOpened =>
      some { w with controller := { w.controller with sessions := w.controller.sessions + 1 } }
  | .sessionClosed => w.sessionClosed
  | .feedOpened => some w.feedOpened
  | .feedHears i => w.feedHears i
  | .feedTold i => w.feedTold i
  | .feedClosed i => w.feedClosed i
  | .opened => some { w with serving := w.serving ++ [.listing] }
  | .sent i delivered => w.sent i delivered
  | .received i message => w.received i message
  | .dropped i => w.dropped i
  | .lowBattery => some w.lowBattery
  | .recorded i returned => w.recorded i returned
  | .advance t lapsed => w.advance t lapsed
  | .carriedOut t result => w.carriedOut t result

end Controlled

/-- A controller offering some acts and those it comes to serve, in any order. -/
def controlling (acts : List Act) : Transition.System Controlled Controlled.Step :=
  .ofTake (fun w => w = .new acts) Controlled.take

end Bliti.Power
