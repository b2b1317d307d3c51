import Std.Data.ExtTreeMap

/-!
# Rendering - the selection rendered

What the renderer is told of a decision: the candidate each interface brings
up, the radio the hotspot runs on and the channel of each radio's client.
-/

namespace Bliti.Network.Render

open Std

/-- A band the hotspot operates on. -/
inductive Band where
  | twoPointFour
  | five
deriving DecidableEq, Repr

/-- A 20 MHz channel on a band. -/
structure Channel where
  band : Band
  number : Nat
deriving DecidableEq, Repr

/-- The candidates and the hotspot rendered. -/
structure Selection where
  links : ExtTreeMap String Nat
  hotspot : Option String
  channels : ExtTreeMap String Channel
deriving DecidableEq

/-- A selection with nothing up: `Selection::default`. -/
def Selection.empty : Selection where
  links := ∅
  hotspot := none
  channels := ∅

end Bliti.Network.Render
