import Bliti.Channel.Envelope
import Bliti.Channel.Report

/-!
# The message set

The messages both ends send and read, each with the members it carries.  A message is
written as an object with its `type`, read by that type, and names the members it
writes as critical.
-/

namespace Bliti.Channel.Messages

open Config (Failure Outcome)
open Envelope (Criticality MessageSet)
open Readings (Entry)
open Report

variable {φ Date : Type}

/-! ## Messages -/

/-- Something a message carries that must not reach a log. -/
structure Secret where
  exposed : String
deriving DecidableEq

/-- The answer to a prompt, as the JSON it arrived as. -/
structure Answer (φ : Type) where
  value : Json φ

/-- A time, and how far either way it may be off, both in seconds. -/
structure Span (φ : Type) where
  duration : Double φ
  margin : Double φ

/-- What of the code outside the repository the messages rest on: the double nearest a whole
number, dates as they are written and read, and what a derived reader says of a value it does
not take. -/
structure Formats (φ Date : Type) where
  ofInt : Int → φ
  showDate : Date → String
  readDate : String → Option Date
  wrong : String → Json φ → String

/-- One application message. -/
inductive Message (φ Date : Type) where
  | hello (name version : String)
  | subscribe (topic : String)
  | fact (entry : Entry φ)
  | reading (entry : Entry φ)
  | endOfBatch
  | configure
  | configuration (document : Json.Map φ) (capabilities : Option (Json.Map φ))
  | state (busy : Bool) (outcome : Outcome) (failure : Option Failure)
      (attachments : List (Json φ)) (capabilities : Option (Json.Map φ))
  | cannotAct (act atPath reason : String)
  | cannotConfigure (atPath reason : String)
  | scan (interface : Option String)
  | survey (interface : Option String)
  | networks (accessPoints : List (Json φ))
  | spectrum (spectrum : Json.Map φ)
  | power
  | acts (acts : List String)
  | act (act : String)
  | accepted
  | goingAway (act cause : String)
  | curve
  | curves (document : Option (Json φ)) (lasts recharge : Option (Span φ))
  | load (document : Json φ)
  | reset
  | tailscale
  | tailscaleActs (acts : List String)
  | tailscaleAct (act : String) (method : Option String) (key : Option Secret)
      (name peer : Option String)
  | tailscaleAccepted
  | tailscaleLoginLink (url : Secret)
  | tailscaleResult (result : Json.Map φ)
  | tailscaleFailed (reason : String)
  | tamanu
  | tamanuActs (acts : List String)
  | tamanuAct (act : String)
  | tamanuAccepted
  | tamanuFailed (reason : String)
  | provision
  | provisionState (revision : UInt32) (built : Date) (run : RunState) (checked provisioned : Bool)
      (steps : List (StepReport φ)) (prompts : List PromptReport)
  | provisionAct (act : String) (steps : Option (List String)) (prompt : Option String)
      (value : Option (Answer φ))
  | provisionAccepted

/-! ## Writing -/

/-- A time as JSON. -/
def Span.toJson (span : Span φ) : Json φ :=
  .object (Json.insert (Json.insert [] "duration" (number span.duration)) "margin"
    (number span.margin))

/-- A list of texts as JSON. -/
def textArray (items : List String) : Json φ :=
  .array (items.map Json.string)

/-- The object of a message of a type, before its members. -/
def typed (typeName : String) : Json.Map φ :=
  Json.insert [] "type" (.string typeName)

namespace Message

/-- The name of a message's type. -/
def typeName : Message φ Date → String
  | hello _ _ => "hello"
  | subscribe _ => "subscribe"
  | fact _ => "fact"
  | reading _ => "reading"
  | endOfBatch => "end-of-batch"
  | configure => "configure"
  | configuration _ _ => "configuration"
  | state _ _ _ _ _ => "state"
  | cannotAct _ _ _ => "cannot-act"
  | cannotConfigure _ _ => "cannot-configure"
  | scan _ => "scan"
  | survey _ => "survey"
  | networks _ => "networks"
  | spectrum _ => "spectrum"
  | power => "power"
  | acts _ => "acts"
  | act _ => "act"
  | accepted => "accepted"
  | goingAway _ _ => "going-away"
  | curve => "curve"
  | curves _ _ _ => "curves"
  | load _ => "load"
  | reset => "reset"
  | tailscale => "tailscale"
  | tailscaleActs _ => "tailscale-acts"
  | tailscaleAct _ _ _ _ _ => "tailscale-act"
  | tailscaleAccepted => "tailscale-accepted"
  | tailscaleLoginLink _ => "tailscale-login-link"
  | tailscaleResult _ => "tailscale-result"
  | tailscaleFailed _ => "tailscale-failed"
  | tamanu => "tamanu"
  | tamanuActs _ => "tamanu-acts"
  | tamanuAct _ => "tamanu-act"
  | tamanuAccepted => "tamanu-accepted"
  | tamanuFailed _ => "tamanu-failed"
  | provision => "provision"
  | provisionState _ _ _ _ _ _ _ => "provision-state"
  | provisionAct _ _ _ _ => "provision-act"
  | provisionAccepted => "provision-accepted"

/-- The members of a message beside its `type`, each where the message carries it. -/
def members (formats : Formats φ Date) : Message φ Date → List (String × Option (Json φ))
  | hello name version =>
      [("name", some (.string name)), ("version", some (.string version))]
  | subscribe topic => [("topic", some (.string topic))]
  | fact entry => entry.members "fact"
  | endOfBatch => []
  | reading entry => entry.members "measurement"
  | configure => []
  | configuration document capabilities =>
      [("document", some (.object document)), ("capabilities", capabilities.map Json.object)]
  | state busy outcome failure attachments capabilities =>
      [("busy", some (.bool busy)),
        ("outcome", some (.string outcome.asStr)),
        ("failure", failure.map fun failure => .object failure.toMap),
        ("attachments", some (.array attachments)),
        ("capabilities", capabilities.map Json.object)]
  | cannotAct asked atPath reason =>
      [("act", some (.string asked)), ("at", some (.string atPath)),
        ("reason", some (.string reason))]
  | cannotConfigure atPath reason =>
      [("at", some (.string atPath)), ("reason", some (.string reason))]
  | scan interface => [("interface", interface.map Json.string)]
  | survey interface => [("interface", interface.map Json.string)]
  | networks accessPoints => [("access-points", some (.array accessPoints))]
  | spectrum found => [("spectrum", some (.object found))]
  | power => []
  | acts offered => [("acts", some (textArray offered))]
  | act asked => [("act", some (.string asked))]
  | accepted => []
  | goingAway asked cause => [("act", some (.string asked)), ("cause", some (.string cause))]
  | curve => []
  | curves document lasts recharge =>
      [("document", document), ("lasts", lasts.map Span.toJson),
        ("recharge", recharge.map Span.toJson)]
  | load document => [("document", some document)]
  | reset => []
  | tailscale => []
  | tailscaleActs offered => [("acts", some (textArray offered))]
  | tailscaleAct asked method key name peer =>
      [("act", some (.string asked)),
        ("method", method.map Json.string),
        ("key", key.map fun key => .string key.exposed),
        ("name", name.map Json.string),
        ("peer", peer.map Json.string)]
  | tailscaleAccepted => []
  | tailscaleLoginLink url => [("url", some (.string url.exposed))]
  | tailscaleResult result => [("result", some (.object result))]
  | tailscaleFailed reason => [("reason", some (.string reason))]
  | tamanu => []
  | tamanuActs offered => [("acts", some (textArray offered))]
  | tamanuAct asked => [("act", some (.string asked))]
  | tamanuAccepted => []
  | tamanuFailed reason => [("reason", some (.string reason))]
  | provision => []
  | provisionState revision built run checked provisioned steps prompts =>
      [("revision", some (.number (.int revision.toNat))),
        ("built", some (.string (formats.showDate built))),
        ("run", some (.string run.asStr)),
        ("checked", some (.bool checked)),
        ("provisioned", some (.bool provisioned)),
        ("steps", some (.array (steps.map fun step => .object step.toMap))),
        ("prompts", some (.array (prompts.map fun prompt => .object prompt.toMap)))]
  | provisionAct asked steps prompt value =>
      [("act", some (.string asked)),
        ("steps", steps.map textArray),
        ("prompt", prompt.map Json.string),
        ("value", value.map Answer.value)]
  | provisionAccepted => []

/-- A message as an object, with its `type`. -/
def toMap (formats : Formats φ Date) (message : Message φ Date) : Json.Map φ :=
  Json.setAll (typed message.typeName) (message.members formats)

end Message

/-! ## Members read -/

/-- A required member, or what to say where it is not what it is to be. -/
def member {α : Type} (map : Json.Map φ) (name what : String) (read : Json φ → Option α) :
    Except String α :=
  match (Json.get map name).bind read with
  | some value => .ok value
  | none => .error ("this message carries " ++ what ++ " `" ++ name ++ "`")

/-- A member that may be left out or null. -/
def optional {α : Type} (map : Json.Map φ) (name what : String) (read : Json φ → Option α) :
    Except String (Option α) :=
  Config.optionalMember map name ("`" ++ name ++ "` is " ++ what) read

/-- A required text. -/
def string (map : Json.Map φ) (name : String) : Except String String :=
  member map name "a string" Json.asStr

/-- A text that may be left out. -/
def optionalString (map : Json.Map φ) (name : String) : Except String (Option String) :=
  optional map name "a string" Json.asStr

/-- A required truth value. -/
def boolean (map : Json.Map φ) (name : String) : Except String Bool :=
  member map name "a boolean" readBool

/-- A required object. -/
def object (map : Json.Map φ) (name : String) : Except String (Json.Map φ) :=
  member map name "an object" Json.asObject

/-- An object that may be left out. -/
def optionalObject (map : Json.Map φ) (name : String) : Except String (Option (Json.Map φ)) :=
  optional map name "an object" Json.asObject

/-- The items of an array. -/
def asArray : Json φ → Option (List (Json φ))
  | .array items => some items
  | _ => none

/-- A required array. -/
def array (map : Json.Map φ) (name : String) : Except String (List (Json φ)) :=
  member map name "an array" asArray

/-- A required array of texts. -/
def strings (map : Json.Map φ) (name : String) : Except String (List String) := do
  let items ← array map name
  match items.mapM Json.asStr with
  | some texts => pure texts
  | none => .error ("`" ++ name ++ "` holds strings")

/-- Texts that may be left out. -/
def optionalStrings (map : Json.Map φ) (name : String) : Except String (Option (List String)) :=
  match Json.get map name with
  | none | some .null => .ok none
  | some _ => (strings map name).map some

/-- A failure that may be left out. -/
def optionalFailure (map : Json.Map φ) (name : String) : Except String (Option Failure) := do
  match ← optionalObject map name with
  | none => pure none
  | some failure => (Failure.read failure).map some

/-- The number a member of a time carries. -/
def seconds (formats : Formats φ Date) (name : String) (span : Json.Map φ) (part : String) :
    Except String (Double φ) :=
  match (Json.get span part).bind (asF64 formats.ofInt) with
  | some value => .ok value
  | none => .error ("`" ++ name ++ "` carries a number `" ++ part ++ "`")

/-- A time that may be left out. -/
def optionalSpan (formats : Formats φ Date) (map : Json.Map φ) (name : String) :
    Except String (Option (Span φ)) := do
  match ← optionalObject map name with
  | none => pure none
  | some span => do
      let duration ← seconds formats name span "duration"
      let margin ← seconds formats name span "margin"
      pure (some { duration := duration, margin := margin })

/-- A member read as the type that owns its shape. -/
def fromMember {α : Type} (formats : Formats φ Date) (map : Json.Map φ) (name : String)
    (read : Json φ → Option α) : Except String α :=
  match Json.get map name with
  | none => .error ("this message carries `" ++ name ++ "`")
  | some value =>
      match read value with
      | some a => .ok a
      | none => .error ("`" ++ name ++ "`: " ++ formats.wrong name value)

/-- A value that may be left out or null, whatever it is. -/
def optionalValue (map : Json.Map φ) (name : String) : Option (Json φ) :=
  (Json.get map name).filter fun value => !value.isNull

/-- A whole number below `2 ^ 32`. -/
def readU32 : Json φ → Option UInt32
  | .number (.int i) => if 0 ≤ i ∧ i < 4294967296 then some (UInt32.ofNat i.toNat) else none
  | _ => none

/-! ## Reading -/

/-- What reads the members of a message of each type. -/
def readers (formats : Formats φ Date) :
    List (String × (Json.Map φ → Except String (Message φ Date))) := [
  ("hello", fun map => do
    pure (.hello (← string map "name") (← string map "version"))),
  ("subscribe", fun map => do pure (.subscribe (← string map "topic"))),
  ("fact", fun map => do pure (.fact (← Entry.readFrom "fact" map))),
  ("reading", fun map => do pure (.reading (← Entry.readFrom "measurement" map))),
  ("end-of-batch", fun _ => .ok .endOfBatch),
  ("configure", fun _ => .ok .configure),
  ("configuration", fun map => do
    pure (.configuration (← object map "document") (← optionalObject map "capabilities"))),
  ("state", fun map => do
    pure (.state (← boolean map "busy") (← Outcome.read (← string map "outcome"))
      (← optionalFailure map "failure") (← array map "attachments")
      (← optionalObject map "capabilities"))),
  ("cannot-act", fun map => do
    pure (.cannotAct (← string map "act") (← string map "at") (← string map "reason"))),
  ("cannot-configure", fun map => do
    pure (.cannotConfigure (← string map "at") (← string map "reason"))),
  ("scan", fun map => do pure (.scan (← optionalString map "interface"))),
  ("survey", fun map => do pure (.survey (← optionalString map "interface"))),
  ("networks", fun map => do pure (.networks (← array map "access-points"))),
  ("spectrum", fun map => do pure (.spectrum (← object map "spectrum"))),
  ("power", fun _ => .ok .power),
  ("acts", fun map => do pure (.acts (← strings map "acts"))),
  ("act", fun map => do pure (.act (← string map "act"))),
  ("accepted", fun _ => .ok .accepted),
  ("going-away", fun map => do
    pure (.goingAway (← string map "act") (← string map "cause"))),
  ("curve", fun _ => .ok .curve),
  ("curves", fun map => do
    pure (.curves (optionalValue map "document") (← optionalSpan formats map "lasts")
      (← optionalSpan formats map "recharge"))),
  ("load", fun map => do pure (.load (← member map "document" "a" some))),
  ("reset", fun _ => .ok .reset),
  ("tailscale", fun _ => .ok .tailscale),
  ("tailscale-acts", fun map => do pure (.tailscaleActs (← strings map "acts"))),
  ("tailscale-act", fun map => do
    pure (.tailscaleAct (← string map "act") (← optionalString map "method")
      ((← optionalString map "key").map Secret.mk) (← optionalString map "name")
      (← optionalString map "peer"))),
  ("tailscale-accepted", fun _ => .ok .tailscaleAccepted),
  ("tailscale-login-link", fun map => do
    pure (.tailscaleLoginLink ⟨← string map "url"⟩)),
  ("tailscale-result", fun map => do pure (.tailscaleResult (← object map "result"))),
  ("tailscale-failed", fun map => do pure (.tailscaleFailed (← string map "reason"))),
  ("tamanu", fun _ => .ok .tamanu),
  ("tamanu-acts", fun map => do pure (.tamanuActs (← strings map "acts"))),
  ("tamanu-act", fun map => do pure (.tamanuAct (← string map "act"))),
  ("tamanu-accepted", fun _ => .ok .tamanuAccepted),
  ("tamanu-failed", fun map => do pure (.tamanuFailed (← string map "reason"))),
  ("provision", fun _ => .ok .provision),
  ("provision-state", fun map => do
    pure (.provisionState (← fromMember formats map "revision" readU32)
      (← fromMember formats map "built" fun value => value.asStr.bind formats.readDate)
      (← fromMember formats map "run" fun value => value.asStr.bind RunState.read)
      (← boolean map "checked") (← boolean map "provisioned")
      (← fromMember formats map "steps" fun value =>
        (asArray value).bind fun items => items.mapM (StepReport.read formats.ofInt))
      (← fromMember formats map "prompts" fun value =>
        (asArray value).bind fun items => items.mapM PromptReport.read))),
  ("provision-act", fun map => do
    pure (.provisionAct (← string map "act") (← optionalStrings map "steps")
      (← optionalString map "prompt") ((optionalValue map "value").map Answer.mk))),
  ("provision-accepted", fun _ => .ok .provisionAccepted)]

/-- An object as a message, read by its `type`. -/
def Message.fromMap (formats : Formats φ Date) (map : Json.Map φ) :
    Except String (Message φ Date) :=
  match (Json.get map "type").bind Json.asStr with
  | none => .error "a message carries a string `type`"
  | some typeName =>
      match (readers formats).lookup typeName with
      | some read => read map
      | none => .error ("unknown message type " ++ Text.debug typeName)

/-- A value as a message. -/
def Message.fromValue (formats : Formats φ Date) (value : Json φ) :
    Except String (Message φ Date) :=
  match value with
  | .object map => fromMap formats map
  | value => .error (formats.wrong "a bliti application message" value)

/-! ## The set -/

/-- The message types both ends know. -/
def knownTypes : List String := [
  "hello", "subscribe", "fact", "reading", "end-of-batch", "configure", "configuration", "state",
  "cannot-act", "cannot-configure", "scan", "survey", "networks", "spectrum", "power", "acts",
  "act", "accepted", "going-away", "curve", "curves", "load", "reset", "tailscale",
  "tailscale-acts", "tailscale-act", "tailscale-accepted", "tailscale-login-link",
  "tailscale-result", "tailscale-failed", "tamanu", "tamanu-acts", "tamanu-act",
  "tamanu-accepted", "tamanu-failed", "provision", "provision-state", "provision-act",
  "provision-accepted"]

/-- What is required of criticality: `hello` carries nothing critical and `subscribe` its
selector. -/
def criticality (typeName : String) : Criticality :=
  if typeName = "hello" then .exactly []
  else if typeName = "subscribe" then .exactly ["topic"]
  else .unconstrained

/-- The members written as critical on each type. -/
def criticalMembers (typeName : String) : List String :=
  if typeName = "subscribe" then ["topic"]
  else if typeName = "configuration" then ["document"]
  else if typeName = "act" then ["act"]
  else if typeName = "tailscale-act" then ["act", "method", "key", "name", "peer"]
  else if typeName = "tamanu-act" then ["act"]
  else if typeName = "provision-act" then ["act", "steps", "prompt", "value"]
  else []

/-- The set of messages both ends speak. -/
def messages (formats : Formats φ Date) : MessageSet φ (Message φ Date) where
  knownTypes := knownTypes
  criticality := criticality
  criticalMembers := criticalMembers
  toValue := fun message => .object (message.toMap formats)
  fromValue := Message.fromValue formats

end Bliti.Channel.Messages
