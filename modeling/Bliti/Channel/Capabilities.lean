import Bliti.Channel.Config

/-!
# Capabilities - the checker of the mirror

The checker of a document against the capabilities that mirror it: an object's
selectors are resolved first, one resolution where every selector is set and one
per key where a selector is left unset, and the object is within capabilities
where its members are under some resolution.
-/

namespace Bliti.Channel.Capabilities

open Config

variable {φ : Type} [BEq φ] [ToString φ]

/-! ## What a document requires of itself -/

/-- The members whose value decides what their siblings may carry. -/
def selectors : List String := ["kind", "interface", "band"]

/-- Where in the document an object sits. -/
inductive Context where
  | document
  | attachment
  | security
  | hotspot
  | other
deriving DecidableEq, Repr

/-- The context of the object a member of this one holds. -/
def Context.child (context : Context) (member : String) : Context :=
  match context with
  | .document =>
      if member = "attachments" then .attachment
      else if member = "hotspot" then .hotspot
      else .other
  | .attachment => if member = "security" then .security else .other
  | _ => .other

/-- The members a document requires of an object. -/
def required (context : Context) (kind : Option String) (member : String) : Bool :=
  match context with
  | .document => member == "attachments"
  | .attachment =>
      if kind = some "wireless" then
        ["label", "enabled", "verify", "ssid", "security"].contains member
      else if kind = some "wired-dynamic" then
        ["label", "enabled", "verify", "interface"].contains member
      else if kind = some "wired-static" then
        ["label", "enabled", "verify", "interface", "addresses", "gateway"].contains member
      else false
  | .security =>
      if kind = some "psk" ∨ kind = some "sae" ∨ kind = some "psk-sae" then
        member == "passphrase"
      else if kind = some "enterprise" then member != "eap"
      else false
  | .hotspot => ["enabled", "ssid", "passphrase"].contains member
  | .other => false

/-- The kind an object says it is. -/
def kindOf (document : Json.Map φ) : Option String :=
  (Json.get document "kind").bind Json.asStr

/-! ## Faults -/

/-- A document asking for more than the device offers, and how far the walk got
before finding it. -/
structure Fault where
  invalid : Invalid
  progress : Nat
deriving DecidableEq, Repr

/-- The answer naming the node the walk has reached. -/
def invalid (walked : List Segment) (reason : String) : Invalid where
  atPath := path walked
  reason := reason

/-- A selector whose value capabilities do not key, found at a member of the
node the walk has reached. -/
def outsideAt (walked : List Segment) (selector reason : String) : Fault where
  invalid := invalid (walked ++ [.name selector]) reason
  progress := (walked.length + 1) * 2

/-- A member or value capabilities do not cover, at the node the walk has
reached. -/
def outside (walked : List Segment) (reason : String) : Fault where
  invalid := invalid walked reason
  progress := walked.length * 2 + 1

/-! ## Selectors -/

/-- The constraints an object is held to once one way of resolving its selectors
is taken, and which selectors that consumed. -/
structure Resolution (φ : Type) where
  constraints : Json.Map φ
  consumed : List String

/-- The constraints of an object with a selected key's constraints laid over
them. -/
def merged (base under : Json.Map φ) : Json.Map φ :=
  under.foldl (fun out member => Json.insert out member.1 member.2) base

/-- A document value as the key capabilities index it by. -/
def keyOf : Json φ → String
  | .string text => text
  | other => other.text

/-- The first selector not yet consumed that the constraints carry keyed by its
values. -/
def nextSelector (r : Resolution φ) : Option (String × Json.Map φ) :=
  selectors.findSome? fun name =>
    if name ∈ r.consumed then none
    else ((Json.get r.constraints name).bind Json.asObject).map fun keyed => (name, keyed)

/-- A resolution with a key of a selector taken: the key's constraints laid over
those of the object without the selector. -/
def Resolution.under (r : Resolution φ) (selector : String) (under : Json.Map φ) :
    Resolution φ where
  constraints := merged (Json.remove r.constraints selector) under
  consumed := r.consumed ++ [selector]

/-- Every resolution below the keys of a selector, or the first fault below
one. -/
def resolveKeys (below : Json.Map φ → Except Fault (List (Resolution φ))) :
    Json.Map φ → Except Fault (List (Resolution φ))
  | [] => .ok []
  | (_, .object under) :: rest => do
      let first ← below under
      let others ← resolveKeys below rest
      pure (first ++ others)
  | _ :: rest => resolveKeys below rest

/-- Resolve an object's selectors against its own values.  Each turn consumes a
selector, so as many turns as there are selectors are enough. -/
def resolve (document : Json.Map φ) (walked : List Segment) :
    Nat → Resolution φ → Except Fault (List (Resolution φ))
  | 0, r => .ok [r]
  | turns + 1, r =>
      match nextSelector r with
      | none => .ok [r]
      | some (selector, keyed) =>
          let below (under : Json.Map φ) := resolve document walked turns (r.under selector under)
          match (Json.get document selector).filter fun value => !value.isNull with
          | none => do
              let all ← resolveKeys below keyed
              if all.isEmpty then
                .error (outsideAt walked selector ("no `" ++ selector ++ "` is supported"))
              else pure all
          | some value =>
              match Json.get keyed (keyOf value) with
              | some (.object under) => below under
              | _ => .error (outsideAt walked selector
                  (value.text ++ " is not a supported `" ++ selector ++ "`"))

/-! ## The walk -/

/-- Whether a value is an object, or an array holding one. -/
def holdsObjects : Json φ → Bool
  | .object _ => true
  | .array items => items.any Json.isObject
  | _ => false

/-- The first resolution an object's members are within, or the fault the walk
got furthest before meeting. -/
def anyResolution (members : Resolution φ → Except Fault Unit) :
    Option Fault → List (Resolution φ) → Except (Option Fault) Unit
  | deepest, [] => .error deepest
  | deepest, r :: rest =>
      match members r with
      | .ok () => .ok ()
      | .error fault =>
          if deepest.all fun best => fault.progress > best.progress then
            anyResolution members (some fault) rest
          else anyResolution members deepest rest

/-- Check one object against the constraints on it, resolving its selectors
first, given how its members are checked under a resolution.  Resolving yields a
resolution or fails, so the source's `expect` is never reached; see
`resolve_ne_nil`. -/
def object (document constraints : Json.Map φ) (walked : List Segment)
    (members : Resolution φ → Except Fault Unit) : Except Fault Unit := do
  let resolutions ← resolve document walked selectors.length ⟨constraints, []⟩
  match anyResolution members none resolutions with
  | .ok () => pure ()
  | .error deepest => .error (deepest.getD (outside walked ""))

mutual

/-- Check each member an object carries against what one resolution of its
constraints says of it. -/
def members (r : Resolution φ) (context : Context) (kind : Option String)
    (walked : List Segment) : Json.Map φ → Except Fault Unit
  | [] => .ok ()
  | member :: rest => do
      checkMember r context kind walked member
      members r context kind walked rest
termination_by structural document => document

/-- Check one member. -/
def checkMember (r : Resolution φ) (context : Context) (kind : Option String)
    (walked : List Segment) : String × Json φ → Except Fault Unit
  | (name, value) =>
      if value.isNull || r.consumed.contains name then .ok ()
      else
        match Json.get r.constraints name with
        | none =>
            if required context kind name then
              -- A required member holding objects still has those checked.
              if holdsObjects value then
                valueAgainst (.object []) (context.child name) (walked ++ [.name name]) value
              else .ok ()
            else .error (outside (walked ++ [.name name]) ("`" ++ name ++ "` is not supported"))
        | some constraint =>
            valueAgainst constraint (context.child name) (walked ++ [.name name]) value
termination_by structural member => member

/-- Check one value against the constraint capabilities carry for it. -/
def valueAgainst (constraint : Json φ) (context : Context) (walked : List Segment) :
    Json φ → Except Fault Unit
  | .array items =>
      match constraint with
      | .bool true => .ok ()
      | constraint => itemsAgainst constraint context walked 0 items
  | .object inner =>
      match constraint with
      | .bool true => .ok ()
      | .object constraints =>
          object inner constraints walked fun r => members r context (kindOf inner) walked inner
      | .array allowed =>
          if allowed.contains (.object inner) then .ok ()
          else .error (outside walked ((Json.object inner).text ++ " is not supported"))
      | _ => .error (outside walked ((Json.object inner).text ++ " is not supported"))
  | value =>
      match constraint with
      | .bool true => .ok ()
      | .array allowed =>
          if allowed.contains value then .ok ()
          else .error (outside walked (value.text ++ " is not supported"))
      | _ => .error (outside walked (value.text ++ " is not supported"))
termination_by structural value => value

/-- Check the items of an array from a position on. -/
def itemsAgainst (constraint : Json φ) (context : Context) (walked : List Segment)
    (position : Nat) : List (Json φ) → Except Fault Unit
  | [] => .ok ()
  | item :: rest => do
      valueAgainst constraint context (walked ++ [.index position]) item
      itemsAgainst constraint context walked (position + 1) rest
termination_by structural items => items

end

/-- Check a document against a device's `capabilities.document`. -/
def check (document capabilities : Json.Map φ) : Except Invalid Unit :=
  match object document capabilities [] fun r =>
      members r .document (kindOf document) [] document with
  | .ok () => .ok ()
  | .error fault => .error fault.invalid

end Bliti.Channel.Capabilities
