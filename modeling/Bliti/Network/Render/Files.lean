import Mathlib.Data.List.Nodup
import Bliti.Network.Select.Types
import Bliti.Text

/-!
# Rendering - the files rendered

Where each backend reads the files rendered for it, which of the files on disk
are ours, and the complete set rendered for one state.
-/

namespace Bliti.Network

/-- An absolute path, as the names of its components. -/
abbrev Path := List String

namespace Path

/-- The path a path is an entry of, where it is not the root. -/
def parent (path : Path) : Option Path :=
  if path = [] then none else some path.dropLast

/-- The name of a path in the directory it is an entry of. -/
def fileName (path : Path) : Option String :=
  path.getLast?

/-- An entry of a directory. -/
def join (dir : Path) (name : String) : Path :=
  dir ++ [name]

/-- A path as it is written. -/
def display (path : Path) : String :=
  if path = [] then "/" else String.join (path.map fun name => "/" ++ name)

/-- A path is the entry of its parent by its name. -/
theorem eq_join {path dir : Path} {name : String} (hparent : path.parent = some dir)
    (hname : path.fileName = some name) : path = dir.join name := by
  unfold parent at hparent
  split at hparent
  · cases hparent
  · rename_i hne
    have hlast : path.getLast hne = name := by
      have hsome := List.getLast?_eq_some_getLast hne
      rw [fileName, hsome] at hname
      exact Option.some.inj hname
    rw [join, ← Option.some.inj hparent, ← hlast, List.dropLast_append_getLast hne]

/-- The parent of an entry is the directory. -/
@[simp]
theorem parent_join (dir : Path) (name : String) : (dir.join name).parent = some dir := by
  simp [parent, join]

/-- An entry's name is the one it was given. -/
@[simp]
theorem fileName_join (dir : Path) (name : String) : (dir.join name).fileName = some name := by
  simp [fileName, join]

end Path

namespace Render

open Select (Alongside)

/-- The access point interface created on a radio. -/
structure AccessPoint where
  interface : String
  alongside : Alongside
deriving DecidableEq, Repr

/-- One wireless radio, named by its station interface. -/
structure Radio where
  station : String
  accessPoint : Option AccessPoint
deriving DecidableEq, Repr

/-- Where each backend reads the files rendered for it. -/
structure Paths where
  networkd : Path
  iwdState : Path
  iwdConfig : Path
  hostapd : Path
  modprobe : Path
  resolved : Path
deriving DecidableEq, Repr

/-- What a document is rendered onto. -/
structure Hardware where
  wired : List String
  radios : List Radio
  paths : Paths
deriving DecidableEq, Repr

/-- The radio of a station interface. -/
def Hardware.radio (hardware : Hardware) (station : String) : Option Radio :=
  hardware.radios.find? fun radio => radio.station == station

/-- The station interface of the radio an access point interface is created on,
where one is created by that name. -/
def Hardware.accessPointRadio (hardware : Hardware) (interface : String) : Option String :=
  (hardware.radios.find? fun radio =>
    radio.station != interface &&
      radio.accessPoint.any fun ap => ap.interface == interface).map Radio.station

namespace Networkd

/-- The name every file of ours in a directory we share starts with. -/
def PREFIX : String := "50-bliti-"

/-- Whether a file in networkd's directory is ours. -/
def owns (name : String) : Bool :=
  Text.startsWith name PREFIX && Text.endsWith name ".network"

/-- Whether a file in resolved's delegate directory is ours. -/
def ownsDelegate (name : String) : Bool :=
  Text.startsWith name PREFIX && Text.endsWith name ".dns-delegate"

end Networkd

namespace Iwd

/-- The names iwd's network files end with. -/
def SUFFIXES : List String := [".psk", ".8021x", ".open"]

/-- Whether a file in iwd's state directory is one of its network files. -/
def owns (name : String) : Bool :=
  !Text.startsWith name "." && SUFFIXES.any fun suffix => Text.endsWith name suffix

end Iwd

namespace Paths

/-- Where a device reads each file, none of it kept over a reboot. -/
def system : Paths where
  networkd := ["run", "systemd", "network"]
  iwdState := ["run", "bliti", "iwd"]
  iwdConfig := ["run", "bliti", "iwd-config", "main.conf"]
  hostapd := ["run", "bliti", "hostapd"]
  modprobe := ["run", "modprobe.d", "bliti-regdom.conf"]
  resolved := ["run", "systemd", "dns-delegate.d"]

/-- The configuration of the hostapd of an access point interface. -/
def hostapdConf (paths : Paths) (interface : String) : Path :=
  paths.hostapd.join (interface ++ ".conf")

/-- The access point interface a hostapd configuration is of, where it is one. -/
def hostapdInterface (paths : Paths) (path : Path) : Option String :=
  if path.parent ≠ some paths.hostapd then none
  else
    (path.fileName.bind fun name => Text.beforeTail name ".conf").filter fun interface =>
      !interface.isEmpty && !Text.startsWith interface "."

/-- Whether a file is ours, deleted when a render no longer holds it. -/
def owns (paths : Paths) (path : Path) : Bool :=
  if path = paths.iwdConfig ∨ path = paths.modprobe then true
  else
    match path.parent, path.fileName with
    | some dir, some name =>
        (dir == paths.networkd && Networkd.owns name) ||
          (dir == paths.iwdState && Iwd.owns name) ||
          (dir == paths.resolved && Networkd.ownsDelegate name) ||
          (paths.hostapdInterface path).isSome
    | _, _ => false

/-- A hostapd configuration is named for its interface. -/
theorem hostapdConf_of_interface {paths : Paths} {path : Path} {interface : String}
    (hinterface : paths.hostapdInterface path = some interface) :
    path = paths.hostapdConf interface := by
  unfold hostapdInterface at hinterface
  split at hinterface
  · cases hinterface
  · rename_i hparent
    obtain ⟨hbind, -⟩ := Option.filter_eq_some_iff.mp hinterface
    obtain ⟨name, hname, htail⟩ := Option.bind_eq_some_iff.mp hbind
    have hpath := Path.eq_join (not_not.mp hparent) hname
    rw [hpath, Text.append_of_beforeTail htail, hostapdConf]

end Paths

/-- One file to write, with its permission bits. -/
structure File where
  path : Path
  contents : String
  mode : Nat
deriving DecidableEq, Repr

/-- The mode of a file anyone on the device may read. -/
def PUBLIC : Nat := 0o644

/-- The mode of a file carrying a secret. -/
def SECRET : Nat := 0o600

/-- The complete set of files of ours for one state, one at each path. -/
structure Rendered where
  files : List File
  distinct : (files.map File.path).Nodup
deriving DecidableEq, Repr

namespace Rendered

/-- The file rendered at a path, where there is one. -/
def file (rendered : Rendered) (path : Path) : Option File :=
  rendered.files.find? fun file => file.path == path

/-- Whether a file is rendered at a path. -/
def holds (rendered : Rendered) (path : Path) : Bool :=
  rendered.files.any fun file => file.path == path

/-- The one file rendered at a path is the one found there. -/
theorem file_eq_some {rendered : Rendered} {path : Path} {file : File} :
    rendered.file path = some file ↔ file ∈ rendered.files ∧ file.path = path := by
  constructor
  · intro hfind
    exact ⟨List.mem_of_find?_eq_some hfind, by simpa using List.find?_some hfind⟩
  · rintro ⟨hmem, hpath⟩
    rcases hfind : rendered.file path with _ | other
    · have hnone := List.find?_eq_none.mp hfind file hmem
      simp [hpath] at hnone
    · have hother : other ∈ rendered.files := List.mem_of_find?_eq_some hfind
      have hsame : other.path = path := by simpa using List.find?_some hfind
      rw [List.inj_on_of_nodup_map rendered.distinct hother hmem (hsame.trans hpath.symm)]

/-- Where no file is rendered at a path, none is found there. -/
theorem file_eq_none {rendered : Rendered} {path : Path} :
    rendered.file path = none ↔ rendered.holds path = false := by
  simp [file, holds]

end Rendered

end Render

end Bliti.Network
