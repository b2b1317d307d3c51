import Bliti.Network.Select.Types

/-!
# Probing - what a radio can do

What one wireless radio can do, as the kernel answers it.
-/

namespace Bliti.Network.Probe

open Select (Alongside)

/-- A band. -/
inductive Band where
  | twoPointFour
  | five
  | six
deriving DecidableEq, Repr

/-- The band as a document names it. -/
def Band.asStr : Band → String
  | .twoPointFour => "2ghz"
  | .five => "5ghz"
  | .six => "6ghz"

/-- One 20 MHz channel the regulatory domain leaves enabled. -/
structure Channel where
  number : Nat
  frequency : Nat
  maxWidth : Nat
  noIr : Bool
  radar : Bool
deriving DecidableEq, Repr

/-- Whether an access point can start on a channel without first listening. -/
def Channel.canStartAp (channel : Channel) : Bool :=
  !channel.noIr && !channel.radar

/-- What a radio can do on one band. -/
structure BandInfo where
  channels : List Channel
  widths : List Nat
deriving DecidableEq, Repr

/-- What one wireless radio can do, its bands in order. -/
structure RadioInfo where
  station : String
  model : String
  bands : List (Band × BandInfo)
  alongside : Option Alongside
  sae : Bool
  scan : Bool
  survey : Bool
deriving DecidableEq, Repr

/-- What a radio can do on a band. -/
def RadioInfo.band (radio : RadioInfo) (band : Band) : Option BandInfo :=
  (radio.bands.find? fun entry => entry.1 == band).map Prod.snd

/-- The channel number of a centre frequency on a band. -/
def number (band : Band) (mhz : Nat) : Option Nat :=
  match band with
  | .twoPointFour =>
      if mhz = 2484 then some 14
      else if 2412 ≤ mhz ∧ mhz ≤ 2472 then some ((mhz - 2407) / 5)
      else none
  | .five =>
      -- 4.9 GHz public-safety channels are numbered from 4000 MHz.
      if 4910 ≤ mhz ∧ mhz < 5000 then some ((mhz - 4000) / 5)
      else if 5000 ≤ mhz ∧ mhz < 5950 then some ((mhz - 5000) / 5)
      else none
  | .six =>
      if mhz = 5935 then some 2
      else if 5955 ≤ mhz ∧ mhz ≤ 7115 then some ((mhz - 5950) / 5)
      else none

/-- The band and channel number of a frequency in MHz. -/
def channelOf (frequency : Nat) : Option (Band × Nat) :=
  let band : Option Band :=
    if 2400 ≤ frequency ∧ frequency < 2500 then some .twoPointFour
    else if 4900 ≤ frequency ∧ frequency < 5925 then some .five
    else if 5925 ≤ frequency ∧ frequency ≤ 7125 then some .six
    else none
  band.bind fun band => (number band frequency).map fun number => (band, number)

/-- The channel a hotspot can be rendered as following, where a frequency is on
a band the renderer carries. -/
def renderChannel (frequency : Nat) : Option Render.Channel :=
  match channelOf frequency with
  | some (.twoPointFour, number) => some { band := .twoPointFour, number := number }
  | some (.five, number) => some { band := .five, number := number }
  | _ => none

end Bliti.Network.Probe
