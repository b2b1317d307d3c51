import Bliti.Network.Render.Hostapd
import Bliti.Network.Render.Iwd
import Bliti.Network.Render.Networkd
import Mathlib.Data.List.Sort
import Std.Data.ExtTreeSet

/-!
# Rendering - a state as the files of its backends

A document, the hardware it runs on and the candidates selected on it, rendered
as the complete set of files of ours for that state.
-/

namespace Bliti.Network.Render

open Std (ExtTreeMap ExtTreeSet)
open Channel.Config

variable {φ : Type}

/-! ## Naming radios -/

/-- A wireless candidate names a radio there is, where it names one. -/
def candidateRadio (hardware : Hardware) : Attachment φ × Nat → Except Invalid Unit
  | (attachment, rank) =>
      match attachment.kind with
      | .wireless wireless =>
          match wireless.interface with
          | none => .ok ()
          | some interface =>
              if (hardware.radio interface).isNone then
                .error (invalidIn rank [.name "interface"]
                  (Text.debug interface ++ " is not a wireless interface on this device"))
              else .ok ()
      | _ => .ok ()

/-- The hotspot names a radio that can run it, where it names one. -/
def hotspotRadio (hardware : Hardware) (hotspot : Option Hotspot) : Except Invalid Unit :=
  match hotspot.bind Hotspot.interface with
  | none => .ok ()
  | some interface =>
      match hardware.radio interface with
      | none =>
          .error (invalid [.name "hotspot", .name "interface"]
            (Text.debug interface ++ " is not a wireless interface on this device"))
      | some radio =>
          if radio.accessPoint.isNone then
            .error (invalid [.name "hotspot", .name "interface"]
              (interface ++ " cannot run a hotspot"))
          else .ok ()

/-- Refuse a document naming a radio this hardware does not have, or one that cannot run
what names it. -/
def radios (document : Document φ) (hardware : Hardware) : Except Invalid Unit := do
  document.attachments.zipIdx.forM (candidateRadio hardware)
  hotspotRadio hardware document.hotspot

/-! ## The hotspot -/

/-- The access point a hotspot is checked on, whatever it is selected on. -/
def checkedAccessPoint (hardware : Hardware) (hotspot : Hotspot) : Option AccessPoint :=
  (hardware.radios.filter fun radio =>
    hotspot.interface.all fun pin => pin == radio.station).findSome? Radio.accessPoint

/-- Check a hotspot with no client's channel to follow. -/
def checkHotspot (subnets : Subnets) (hardware : Hardware) (domain : Option String)
    (hotspot : Hotspot) : Except Invalid Unit :=
  match checkedAccessPoint hardware hotspot with
  | none => .error (invalid [.name "hotspot"] "this device cannot run a hotspot")
  | some checked => do
      let _ ← Networkd.hotspot subnets hotspot checked.interface hardware.paths
      let _ ← Hostapd.conf hotspot checked none hardware.paths domain
      pure ()

/-- The hotspot's files on the radio a selection runs it on, where it runs on one. -/
def runHotspot (subnets : Subnets) (hardware : Hardware) (selection : Selection)
    (domain : Option String) (hotspot : Hotspot) : Except Error (List File) :=
  match selection.hotspot with
  | none => .ok []
  | some station =>
      if !hotspot.enabled then
        .error (.selection ("the hotspot is turned off and is selected on " ++
          Text.debug station))
      else
        match (hardware.radio station).bind Radio.accessPoint with
        | none =>
            .error (.selection ("the hotspot is selected on " ++ Text.debug station ++
              ", which cannot run one"))
        | some accessPoint =>
            match hotspot.interface.filter fun pin => pin != station with
            | some pin =>
                .error (.selection ("the hotspot names " ++ Text.debug pin ++
                  " and is selected on " ++ Text.debug station))
            | none => do
                let network ← faulting
                  (Networkd.hotspot subnets hotspot accessPoint.interface hardware.paths)
                let conf ← faulting
                  (Hostapd.conf hotspot accessPoint selection.channels[station]? hardware.paths
                    domain)
                pure [network, conf]

/-- The hotspot's files: it is checked, and then rendered where it runs. -/
def hotspot (subnets : Subnets) (hardware : Hardware) (selection : Selection)
    (domain : Option String) : Option Hotspot → Except Error (List File)
  | none => .ok []
  | some hotspot => do
      faulting (checkHotspot subnets hardware domain hotspot)
      runHotspot subnets hardware selection domain hotspot

/-! ## The candidates -/

/-- The station a wireless candidate's link is checked on, whatever it is selected on. -/
def checkedOn (hardware : Hardware) (attachment : Attachment φ) : Option String :=
  match attachment.kind with
  | .wireless wireless =>
      wireless.interface.or (hardware.radios.head?.map Radio.station)
  | _ => none

/-- A candidate's files, where it is checked. -/
def checkedCandidate (subnets : Subnets) (hardware : Hardware) :
    Attachment φ × Nat → Except Invalid (List File)
  | (attachment, rank) =>
      Networkd.candidate subnets attachment rank (checkedOn hardware attachment) hardware

/-- Every candidate's files, where it is checked. -/
def candidates (subnets : Subnets) (document : Document φ) (hardware : Hardware) :
    Except Invalid (List (List File)) :=
  document.attachments.zipIdx.mapM (checkedCandidate subnets hardware)

/-- The files of a wired candidate, which its own interface has from the checks. -/
def wiredOn (networks : List (List File)) (interface : String) (rank : Nat) (own : String) :
    Except Error (List File) :=
  if own ≠ interface then
    .error (.selection ("candidate " ++ toString rank ++ " is on " ++ Text.debug own ++
      " and is selected on " ++ Text.debug interface))
  else .ok (networks[rank]?.getD [])

/-- The files of a wireless candidate on the radio it is selected on. -/
def wirelessOn (subnets : Subnets) (hardware : Hardware) (interface : String) (rank : Nat)
    (attachment : Attachment φ) (wireless : Wireless φ) : Except Error (List File) :=
  if (hardware.radio interface).isNone then
    .error (.selection ("candidate " ++ toString rank ++ " is selected on " ++
      Text.debug interface ++ ", which is not a radio"))
  else
    match wireless.interface.filter fun pin => pin != interface with
    | some pin =>
        .error (.selection ("candidate " ++ toString rank ++ " names " ++ Text.debug pin ++
          " and is selected on " ++ Text.debug interface))
    | none => faulting (Networkd.candidate subnets attachment rank (some interface) hardware)

/-- The files of a candidate on an interface it is selected on. -/
def candidateOn (subnets : Subnets) (hardware : Hardware) (networks : List (List File))
    (interface : String) (rank : Nat) (attachment : Attachment φ) : Except Error (List File) :=
  match attachment.kind with
  | .wireless wireless => wirelessOn subnets hardware interface rank attachment wireless
  | .wiredDynamic own => wiredOn networks interface rank own
  | .wiredStatic own _ _ => wiredOn networks interface rank own

/-- The files of the candidates selected, in the order of their interfaces. -/
def linkFiles (subnets : Subnets) (document : Document φ) (hardware : Hardware)
    (networks : List (List File)) (placed : ExtTreeSet Nat) :
    List (String × Nat) → Except Error (List File)
  | [] => .ok []
  | (interface, rank) :: rest =>
      match document.attachments[rank]? with
      | none =>
          .error (.selection ("candidate " ++ toString rank ++ " is not in a document of " ++
            toString document.attachments.length))
      | some attachment =>
          if placed.contains rank then
            .error (.selection ("candidate " ++ toString rank ++
              " is selected on more than one interface"))
          else if !attachment.enabled then
            .error (.selection ("candidate " ++ toString rank ++
              " is turned off and is selected on " ++ Text.debug interface))
          else do
            let files ← candidateOn subnets hardware networks interface rank attachment
            let others ← linkFiles subnets document hardware networks (placed.insert rank) rest
            pure (files ++ others)

/-- The wired interface of a candidate. -/
def wiredInterface (attachment : Attachment φ) : Option String :=
  match attachment.kind with
  | .wiredDynamic interface => some interface
  | .wiredStatic interface _ _ => some interface
  | .wireless _ => none

/-- The wired interfaces of candidates with none of them up, in order. -/
def idleInterfaces (document : Document φ) (selection : Selection) : List String :=
  ((document.attachments.filterMap wiredInterface).filter fun interface =>
    !selection.links.contains interface).dedup.insertionSort (· ≤ ·)

/-! ## Rendering -/

/-- The files of the radios, whatever is selected. -/
def radioFiles (hardware : Hardware) (domain : Option String) : List File :=
  if hardware.radios.isEmpty then []
  else [Iwd.mainConf hardware.paths domain, Regdom.modprobe hardware.paths domain]

/-- Some files, in the order of their paths. -/
def sorted (files : List File) : List File :=
  files.insertionSort fun one other => one.path ≤ other.path

/-- A document rendered on some hardware with a selection up: every file of ours, in the
order of their paths. -/
def render [BEq φ] (subnets : Subnets) (document : Document φ) (hardware : Hardware)
    (selection : Selection) : Except Error (List File) := do
  let domain ← faulting (Regdom.domain document)
  faulting (radios document hardware)
  let joined ← faulting (Iwd.networks document hardware)
  let networks ← faulting (candidates subnets document hardware)
  let hosted ← hotspot subnets hardware selection domain document.hotspot
  let linked ← linkFiles subnets document hardware networks ∅ selection.links.toList
  let idle := (idleInterfaces document selection).map fun interface =>
    Networkd.idle interface hardware.paths
  pure (sorted (joined ++ hosted ++ linked ++ idle ++ radioFiles hardware domain))

end Bliti.Network.Render
