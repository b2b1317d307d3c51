import Bliti.Channel.Capabilities.Radios
import Bliti.Channel.Config.Parse

/-!
# The configuration session - the configuration held

The configuration a device holds, how it is faring, and what every session is
told of both.
-/

namespace Bliti.Network.Session

open Channel Channel.Config

variable {φ : Type}

/-- A document as a client sent it, and as the device acts on it. -/
structure Proposal (φ : Type) where
  raw : Json.Map φ
  document : Document φ

/-- Read a proposal. -/
def Proposal.parse (raw : Json.Map φ) : Except Invalid (Proposal φ) := do
  let document ← Document.parse raw
  pure { raw := raw, document := document }

/-- What every session is told of the configuration held. -/
structure Held (φ : Type) where
  revision : Nat
  document : Json.Map φ
  outcome : Outcome
  failure : Option Failure
deriving BEq

/-- What the configurator publishes for every session to read. -/
structure Snapshot (φ : Type) where
  held : Held φ
  capabilities : Json.Map φ
  attachments : Option (List (Json φ))
deriving BEq

/-- Equal snapshots are of one revision. -/
theorem Snapshot.revision_of_beq [BEq φ] {one other : Snapshot φ}
    (hequal : (one == other) = true) : one.held.revision = other.held.revision := by
  obtain ⟨⟨_, _, _, _⟩, _, _⟩ := one
  obtain ⟨⟨_, _, _, _⟩, _, _⟩ := other
  simp only [BEq.beq, instBEqSnapshot.beq, instBEqHeld.beq, Bool.and_eq_true] at hequal
  simpa using hequal.1.1

/-- What is recorded of the configuration held. -/
structure Stored (φ : Type) where
  document : Json.Map φ
  outcome : Outcome
  failure : Option Failure
  replaced : Option (Json.Map φ)

/-- What the configurator owns of the configuration held. -/
structure State (φ : Type) where
  held : Proposal φ
  outcome : Outcome
  failure : Option Failure
  replaced : Option (Proposal φ)
  revision : Nat

/-- What a backend offers and refuses, as the configurator asks it. -/
structure Backend (φ : Type) where
  capabilities : Json.Map φ
  check : Document φ → Except Invalid Unit

/-- A document of nothing. -/
def empty : Document φ where
  attachments := []
  hotspot := none
  regulatoryDomain := none

namespace State

/-- The state what was recorded stands for. -/
def stored (stored : Stored φ) : Except Invalid (State φ) := do
  let held ← Proposal.parse stored.document
  let replaced ←
    match stored.replaced with
    | none => pure none
    | some raw => do pure (some (← Proposal.parse raw))
  pure {
    held := held
    outcome := stored.outcome
    failure := stored.failure
    replaced := replaced
    revision := 0 }

/-- What a device that has recorded nothing holds. -/
def ofFallback (fallback : Json.Map φ) : Except Invalid (State φ) := do
  let held ← Proposal.parse fallback
  pure { held := held, outcome := .applied, failure := none, replaced := none, revision := 0 }

/-- What was recorded, or a fallback where nothing was or what was cannot be
read. -/
def load (recorded : Except String (Option (Stored φ))) (fallback : Json.Map φ) :
    Except Invalid (State φ) :=
  match recorded with
  | .ok (some s) =>
      match stored s with
      | .ok state => .ok state
      | .error _ => ofFallback fallback
  | _ => ofFallback fallback

/-- The document held. -/
def document (s : State φ) : Document φ :=
  s.held.document

/-- The document the one being verified replaced. -/
def replacedDocument (s : State φ) : Document φ :=
  match s.replaced with
  | some replaced => replaced.document
  | none => empty

/-- A restore that could not be carried out. -/
def cannotRun (s : State φ) (failure : Failure) : State φ :=
  { s with outcome := .failed, failure := some failure }

/-- What every session is told of the configuration held. -/
def heldNow (s : State φ) : Held φ where
  revision := s.revision
  document := s.held.raw
  outcome := s.outcome
  failure := s.failure

/-- What is recorded of the state. -/
def storedNow (s : State φ) : Stored φ where
  document := s.held.raw
  outcome := s.outcome
  failure := s.failure
  replaced := s.replaced.map (·.raw)

/-- The configuration a saved proposal is judged against: what the one being
verified was, where a verification is still under way. -/
def judgedAgainst (s : State φ) : Proposal φ :=
  match s.outcome, s.replaced with
  | .verifying, some replaced => replaced
  | _, _ => s.held

/-- What is recorded of a proposal saved. -/
def storedNext (s : State φ) (proposal : Proposal φ) : Stored φ where
  document := proposal.raw
  outcome := .verifying
  failure := none
  replaced := some s.judgedAgainst.raw

/-- The state holding a proposal saved. -/
def holding (s : State φ) (proposal : Proposal φ) : State φ where
  held := proposal
  outcome := .verifying
  failure := none
  replaced := some s.judgedAgainst
  revision := s.revision + 1

/-- Refuse a proposal the device cannot take. -/
def consider [BEq φ] [ToString φ] (backend : Backend φ) (raw : Json.Map φ) :
    Except Invalid (Proposal φ) := do
  let proposal ← Proposal.parse raw
  match Capabilities.admits proposal.raw backend.capabilities with
  | .ok () => pure ()
  | .error refused => .error refused.invalid
  backend.check proposal.document
  pure proposal

/-- Refuse a proposal the device cannot take, or save it.  Whether recording it
succeeds is the store's to say.  Returns what to verify and what against. -/
def save [BEq φ] [ToString φ] (s : State φ) (backend : Backend φ) (raw : Json.Map φ)
    (recorded : Except String Unit) :
    Except Invalid (State φ × Document φ × Document φ) := do
  let proposal ← consider backend raw
  match recorded with
  | .ok () => pure ()
  | .error err =>
      refuse [] ("could not record the configuration: " ++ err)
  pure (s.holding proposal, proposal.document, s.judgedAgainst.document)

/-- Take in how the verification of the configuration held ended. -/
def settle (s : State φ) (verdict : Except Failure Unit) : State φ :=
  match verdict with
  | .ok () => { s with outcome := .applied, failure := none, replaced := none }
  | .error failure => { s with outcome := .failed, failure := some failure, replaced := none }

/-- A proposal read keeps what the client sent. -/
theorem parse_raw {raw : Json.Map φ} {proposal : Proposal φ}
    (hparse : Proposal.parse raw = .ok proposal) : proposal.raw = raw := by
  unfold Proposal.parse at hparse
  rcases hdocument : Document.parse raw with invalid | document
  · simp [hdocument, bind, Except.bind] at hparse
  · simp only [hdocument, bind, Except.bind, pure, Except.pure, Except.ok.injEq] at hparse
    rw [← hparse]

/-- A saved proposal is held at the next revision, and the documents returned
are those to verify and to judge it against. -/
theorem save_ok [BEq φ] [ToString φ] {s s' : State φ} {backend : Backend φ}
    {raw : Json.Map φ} {recorded : Except String Unit} {document replacing : Document φ}
    (hsave : s.save backend raw recorded = .ok (s', document, replacing)) :
    ∃ proposal, consider backend raw = .ok proposal ∧ recorded = .ok () ∧
      s' = s.holding proposal ∧ document = proposal.document ∧
      replacing = s.judgedAgainst.document := by
  unfold save at hsave
  rcases hconsider : consider backend raw with invalid | proposal
  · simp [hconsider, bind, Except.bind] at hsave
  · rcases recorded with err | ⟨⟩
    · simp [hconsider, bind, Except.bind, refuse] at hsave
    · simp only [hconsider, bind, Except.bind, pure, Except.pure, Except.ok.injEq,
        Prod.mk.injEq] at hsave
      obtain ⟨hstate, hdocument, hreplacing⟩ := hsave
      exact ⟨proposal, rfl, rfl, hstate.symm, hdocument.symm, hreplacing.symm⟩

/-- A state that settles holds the same configuration. -/
theorem settle_held (s : State φ) (verdict : Except Failure Unit) :
    (s.settle verdict).revision = s.revision ∧ (s.settle verdict).held = s.held := by
  rcases verdict with failure | ⟨⟩ <;> exact ⟨rfl, rfl⟩

end State

end Bliti.Network.Session
