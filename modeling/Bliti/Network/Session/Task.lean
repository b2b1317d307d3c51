import Bliti.Network.Session.Held

/-!
# The configuration session - what the task publishes

The task that owns the backend and the configuration held publishes a snapshot
of it, joined with the candidates' states as the backend last published them.
-/

namespace Bliti.Network.Session

variable {φ : Type}

/-- The entries of the candidates' states, where they are known: those of a
backend's last publication, provided there is one for each candidate held. -/
def attachmentsOf (state : State φ) (states : Option (List (Json φ))) :
    Option (List (Json φ)) :=
  match states with
  | none => some []
  | some entries =>
      if entries.length = state.document.attachments.length then some entries else none

/-- What the snapshot is, given what the backend can do and observes. -/
def snapshot (backend : Backend φ) (state : State φ) (states : Option (List (Json φ))) :
    Snapshot φ where
  held := state.heldNow
  capabilities := backend.capabilities
  attachments := attachmentsOf state states

/-- What is published once a snapshot is offered: the one before where they are
equal. -/
def publish [BEq φ] (published next : Snapshot φ) : Snapshot φ :=
  if published == next then published else next

end Bliti.Network.Session
