import Bliti.Network.Apply.System

/-!
# Applying - putting a render in place

Every file a render holds is written and every file of ours it no longer holds
is deleted, backend by backend, each picking up what changed of its own.
-/

namespace Bliti.Network.Apply

open Interruptible Render

/-- One file put in place or taken away. -/
inductive Change where
  | written (path : Path)
  | removed (path : Path)
deriving DecidableEq, Repr

/-- The files an apply changed, by the backend reading them. -/
structure Changes where
  regdom : List Change
  hostapd : List Change
  iwd : List Change
  networkd : List Change
  resolved : List Change
deriving DecidableEq, Repr

namespace Changes

/-- No changes. -/
def empty : Changes where
  regdom := []
  hostapd := []
  iwd := []
  networkd := []
  resolved := []

/-- Changes of one backend's files more. -/
def extend (changes : Changes) (backend : Backend) (more : List Change) : Changes :=
  match backend with
  | .regdom => { changes with regdom := changes.regdom ++ more }
  | .hostapd => { changes with hostapd := changes.hostapd ++ more }
  | .iwd => { changes with iwd := changes.iwd ++ more }
  | .networkd => { changes with networkd := changes.networkd ++ more }
  | .resolved => { changes with resolved := changes.resolved ++ more }

end Changes

/-- One backend's share of an apply, with what was in place before it. -/
structure Step (δ : Type) where
  backend : Backend
  hardware : Hardware
  record : Record δ
  written : List File
  removed : List Path

namespace Step

variable {δ : Type} (step : Step δ)

/-- The operations of a step. -/
abbrev Effects : Interruptible.Effects :=
  effects δ step.hardware.paths

/-- A file could not be put in place or taken away. -/
def file (path : Path) (source : String) : String :=
  step.backend.display ++ ": " ++ Text.debug path.display ++ ": " ++ source

/-- A backend could not be had to pick its changes up. -/
def failed (source : String) : String :=
  step.backend.display ++ ": " ++ source

/-- Make a call of the system. -/
def system (call : Call) : Program step.Effects Unit :=
  (Program.attempt (E := step.Effects) (.call call)).mapFail step.failed

/-- Put a file in place. -/
def write (file : File) : Program step.Effects Unit :=
  (Program.attempt (E := step.Effects) (.write file)).mapFail (step.file file.path)

/-- Take a file away. -/
def remove (path : Path) : Program step.Effects Unit :=
  (Program.attempt (E := step.Effects) (.remove path)).mapFail (step.file path)

/-- Write and remove the backend's files. -/
def put : Program step.Effects Unit := do
  step.written.forM step.write
  step.removed.forM step.remove

/-- Whether the file at a path changes. -/
def touches (path : Path) : Bool :=
  step.written.any (fun file => file.path == path) || step.removed.contains path

/-- Take down the hotspot a configuration taken away was of, with its interface. -/
def takeDown (path : Path) : Program step.Effects Unit :=
  match step.hardware.paths.hostapdInterface path with
  | none => pure ()
  | some interface => do
      step.system (.hostapd .stop interface)
      step.system (.closeFirewall interface)
      if (step.hardware.accessPointRadio interface).isSome then
        step.system (.deleteAccessPoint interface)
      else pure ()

/-- Create an access point interface, where it is created on a radio. -/
def create (interface : String) : Program step.Effects Unit :=
  match step.hardware.accessPointRadio interface with
  | some radio => step.system (.createAccessPoint radio interface)
  | none => pure ()

/-- Bring up the hotspot a configuration is of, again where it was in place. -/
def bringUp (file : File) : Program step.Effects Unit :=
  match step.hardware.paths.hostapdInterface file.path with
  | none => pure ()
  | some interface =>
      -- Opened on a restart too, for a hotspot running before anything opened it.
      if step.record.contains file.path then do
        step.system (.openFirewall interface)
        step.system (.hostapd .restart interface)
      else do
        step.create interface
        step.system (.openFirewall interface)
        step.system (.hostapd .start interface)

/-- hostapd's share: what is taken away goes down before what is put in place comes
up. -/
def hostapd : Program step.Effects Unit := do
  step.removed.forM step.takeDown
  step.put
  step.written.forM step.bringUp

/-- The regulatory domain's share. -/
def regdom : Program step.Effects Unit := do
  step.put
  match step.written.head? with
  | none => pure ()
  | some file =>
      match regulatoryDomain file.contents with
      | some domain => step.system (.setRegulatoryDomain domain)
      | none => .fail (step.failed (Text.debug file.path.display ++ " names no regulatory domain"))

/-- iwd's share: only its main configuration wants a restart. -/
def iwd : Program step.Effects Unit := do
  step.put
  if step.touches step.hardware.paths.iwdConfig then step.system .restartIwd else pure ()

/-- Put a backend's files in place and have it pick them up. -/
def run : Program step.Effects Unit :=
  match step.backend with
  | .regdom => step.regdom
  | .hostapd => step.hostapd
  | .iwd => step.iwd
  | .networkd => do
      step.put
      step.system .reloadNetworkd
  | .resolved => do
      step.put
      step.system .reloadResolved

end Step

section Apply

variable {δ : Type} [DecidableEq δ] (digest : String → δ) (hardware : Hardware)

/-- Each rendered file with the backend reading it, where all of them are ours. -/
def wanted : List File → Except String (List (Backend × File))
  | [] => .ok []
  | file :: rest =>
      match Backend.of hardware.paths file.path with
      | none => .error (Text.debug file.path.display ++ " is not a file bliti owns")
      | some backend => do pure ((backend, file) :: (← wanted rest))

/-- Whether a file is recorded as it is rendered, and not missing. -/
def inPlace (record : Record δ) (file : File) : Program (effects δ hardware.paths) Bool :=
  if record.holds digest file then
    Program.attempt (E := effects δ hardware.paths) (.existsAt file.path)
  else pure false

/-- The files of a backend to be written: those not in place. -/
def lacking (record : Record δ) (backend : Backend) :
    List (Backend × File) → Program (effects δ hardware.paths) (List File)
  | [] => pure []
  | (of, file) :: rest =>
      if of = backend then do
        let kept ← inPlace digest hardware record file
        let files ← lacking record backend rest
        pure (if kept then files else file :: files)
      else lacking record backend rest

/-- The files of ours a render no longer holds, sorted, each once. -/
def stale (rendered : Rendered) (found : List Path) (record : Record δ) : List Path :=
  let paths := (found ++ record.paths).filter fun path => !rendered.holds path
  (Std.ExtTreeSet.ofList paths).toList

/-- A record of a backend's files put in place and taken away. -/
def recorded (record : Record δ) (written : List File) (removed : List Path) : Record δ :=
  removed.foldl .remove (written.foldl (.insert digest) record)

/-- Where the record is kept in a state directory. -/
def recordPath (state : Path) : Path :=
  state.join "applied.json"

/-- The record could not be written. -/
def recordError (state : Path) (source : String) : String :=
  "the record at " ++ Text.debug (recordPath state).display ++ ": " ++ source

/-- The backends in order, each with what changes of its files, the record saved
after each. -/
def applyBackends (state : Path) (files : List (Backend × File)) (gone : List Path) :
    List Backend → Record δ → Changes → Program (effects δ hardware.paths) Changes
  | [], _, changes => pure changes
  | backend :: rest, record, changes => do
      let written ← lacking digest hardware record backend files
      let removed := gone.filter fun path => Backend.of hardware.paths path = some backend
      if written = [] ∧ removed = [] then applyBackends state files gone rest record changes
      else do
        Step.run {
          backend := backend
          hardware := hardware
          record := record
          written := written
          removed := removed }
        let after := recorded digest record written removed
        (Program.attempt (E := effects δ hardware.paths) (.save after)).mapFail
          (recordError state)
        applyBackends state files gone rest after
          (changes.extend backend
            (written.map (fun file => .written file.path) ++ removed.map .removed))

/-- Put a render in place and have the stack pick it up, answering the files that
changed. -/
def apply (state : Path) (rendered : Rendered) : Program (effects δ hardware.paths) Changes :=
  match wanted hardware rendered.files with
  | .error err => .fail err
  | .ok files => do
      let loaded ← Program.attempt (E := effects δ hardware.paths) .load
      let record := loaded.retain hardware.paths.owns
      let found ← Program.attempt (E := effects δ hardware.paths) .owned
      applyBackends digest hardware state files (stale rendered found record) Backend.ORDER
        record .empty

end Apply

end Bliti.Network.Apply
