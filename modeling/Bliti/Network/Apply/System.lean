import Bliti.Library.Interruptible
import Bliti.Network.Apply.Record

/-!
# Applying - files, daemons and the record as the world

What an apply reads, writes and calls, each of which may fail.  A write, a removal
or a save that fails may have landed; the files are nobody else's to edit.  Each
world also keeps what was done in it, and which readers of the files have yet to
pick up a change.
-/

namespace Bliti.Network.Apply

open Std (ExtTreeMap)
open Render

/-! ## The system -/

/-- What to do with hostapd. -/
inductive Hostapd where
  | start
  | restart
  | stop
deriving DecidableEq, Repr

/-- A call that has the stack pick changes up. -/
inductive Call where
  | setRegulatoryDomain (domain : String)
  | createAccessPoint (radio interface : String)
  | deleteAccessPoint (interface : String)
  | hostapd (action : Hostapd) (interface : String)
  | openFirewall (interface : String)
  | closeFirewall (interface : String)
  | restartIwd
  | reloadNetworkd
  | reloadResolved
deriving DecidableEq, Repr

/-- The domain a rendered modprobe file puts cfg80211 under. -/
def regulatoryDomain (modprobe : String) : Option String :=
  (((Text.lines modprobe).findSome? fun line =>
      Text.afterHead line "options cfg80211 ieee80211_regdom=").map Text.trim).filter
    fun domain => !domain.isEmpty

/-- A daemon whose files are rendered. -/
inductive Backend where
  | regdom
  | hostapd
  | iwd
  | networkd
  | resolved
deriving DecidableEq, Repr

namespace Backend

/-- Every backend, in the order they pick changes up. -/
def ORDER : List Backend := [.regdom, .hostapd, .iwd, .networkd, .resolved]

/-- The backend reading a path, where it is a file of ours. -/
def of (paths : Paths) (path : Path) : Option Backend :=
  if !paths.owns path then none
  else if path = paths.modprobe then some .regdom
  else if (paths.hostapdInterface path).isSome then some .hostapd
  else if path = paths.iwdConfig ∨ path.parent = some paths.iwdState then some .iwd
  else if path.parent = some paths.resolved then some .resolved
  else some .networkd

/-- A backend as an error names it. -/
def display : Backend → String
  | .regdom => "the regulatory domain"
  | .hostapd => "hostapd"
  | .iwd => "iwd"
  | .networkd => "systemd-networkd"
  | .resolved => "systemd-resolved"

end Backend

/-- What reads files of ours when it is told to.  iwd is told of its main
configuration only: it watches its known networks, and each hostapd reads the
configuration of its own interface. -/
inductive Reader where
  | regdom
  | hostapd (interface : String)
  | iwd
  | networkd
  | resolved
deriving DecidableEq, Repr

namespace Reader

/-- The backend a reader belongs to. -/
def backend : Reader → Backend
  | .regdom => .regdom
  | .hostapd _ => .hostapd
  | .iwd => .iwd
  | .networkd => .networkd
  | .resolved => .resolved

/-- The reader of a path, where it is a file of ours read when told to. -/
def of (paths : Paths) (path : Path) : Option Reader :=
  match Backend.of paths path with
  | none => none
  | some .regdom => some .regdom
  | some .hostapd => (paths.hostapdInterface path).map .hostapd
  | some .iwd => if path = paths.iwdConfig then some .iwd else none
  | some .networkd => some .networkd
  | some .resolved => some .resolved

/-- A path's reader belongs to the path's backend. -/
theorem backend_of {paths : Paths} {path : Path} {reader : Reader}
    (hreader : of paths path = some reader) : Backend.of paths path = some reader.backend := by
  unfold of at hreader
  split at hreader
  · cases hreader
  · rename_i hbackend
    rw [hbackend, ← Option.some.inj hreader, backend]
  · rename_i hbackend
    obtain ⟨interface, -, hinterface⟩ := Option.map_eq_some_iff.mp hreader
    rw [hbackend, ← hinterface, backend]
  · rename_i hbackend
    split at hreader
    · rw [hbackend, ← Option.some.inj hreader, backend]
    · cases hreader
  · rename_i hbackend
    rw [hbackend, ← Option.some.inj hreader, backend]
  · rename_i hbackend
    rw [hbackend, ← Option.some.inj hreader, backend]

end Reader

/-! ## The disk -/

/-- What a file on disk holds. -/
structure Stored where
  contents : String
  mode : Nat
deriving DecidableEq, Repr

/-- A file as it is on disk once put in place. -/
def stored (file : File) : Stored where
  contents := file.contents
  mode := file.mode

/-- The files on disk. -/
abbrev Disk := ExtTreeMap Path Stored

/-- The directories looked through for files of ours. -/
def scannedDirs (paths : Paths) : List Path :=
  [paths.networkd, paths.iwdState, paths.hostapd]

/-- Every file of ours found on disk. -/
def scan (paths : Paths) (disk : Disk) : List Path :=
  ([paths.iwdConfig, paths.modprobe].filter fun path => disk.contains path) ++
    (scannedDirs paths).flatMap fun dir =>
      disk.keys.filter fun path => path.parent = some dir && paths.owns path

/-- Whether a file of ours at a path is found. -/
def Scanned (paths : Paths) (path : Path) : Prop :=
  path = paths.iwdConfig ∨ path = paths.modprobe ∨
    (paths.owns path = true ∧ ∃ dir ∈ scannedDirs paths, path.parent = some dir)

/-- What is found is what is on disk where it is looked for. -/
theorem mem_scan {paths : Paths} {disk : Disk} {path : Path} :
    path ∈ scan paths disk ↔ path ∈ disk ∧ Scanned paths path := by
  simp only [scan, Scanned, List.mem_append, List.mem_filter, List.mem_flatMap,
    List.mem_cons, List.not_mem_nil, or_false, ExtTreeMap.mem_keys, Bool.and_eq_true,
    decide_eq_true_eq, ExtTreeMap.contains_iff_mem]
  constructor
  · rintro (⟨rfl | rfl, hmem⟩ | ⟨dir, hdir, hmem, hparent, howns⟩)
    · exact ⟨hmem, .inl rfl⟩
    · exact ⟨hmem, .inr (.inl rfl)⟩
    · exact ⟨hmem, .inr (.inr ⟨howns, dir, hdir, hparent⟩)⟩
  · rintro ⟨hmem, rfl | rfl | ⟨howns, dir, hdir, hparent⟩⟩
    · exact .inl ⟨.inl rfl, hmem⟩
    · exact .inl ⟨.inr rfl, hmem⟩
    · exact .inr ⟨dir, hdir, hmem, hparent, howns⟩

/-- What is found is ours. -/
theorem owns_of_scanned {paths : Paths} {path : Path} (hscanned : Scanned paths path) :
    paths.owns path = true := by
  rcases hscanned with rfl | rfl | ⟨howns, -⟩
  · simp [Paths.owns]
  · simp [Paths.owns]
  · exact howns

/-! ## The world -/

/-- An operation of an apply. -/
inductive Op (δ : Type) where
  | load
  | owned
  | existsAt (path : Path)
  | write (file : File)
  | remove (path : Path)
  | save (record : Record δ)
  | call (call : Call)

/-- What an operation answers. -/
abbrev Op.Answer {δ : Type} : Op δ → Type
  | .load => Record δ
  | .owned => List Path
  | .existsAt _ => Bool
  | .write _ | .remove _ | .save _ | .call _ => Unit

/-- An operation done, and whether it succeeded. -/
structure Event (δ : Type) where
  op : Op δ
  ok : Bool

/-- The state of a device: the files on disk, the record, the readers yet to pick up
a change, and what was done, the latest first. -/
structure World (δ : Type) where
  disk : Disk
  record : Option (Record δ)
  unread : List Reader
  events : List (Event δ)

section History

variable {δ : Type}

/-- Whether hostapd may be running on an interface: it was started there, even in
vain, and not stopped since. -/
def running (interface : String) : List (Event δ) → Bool
  | [] => false
  | ⟨.call (.hostapd .stop on), true⟩ :: earlier => on != interface && running interface earlier
  | ⟨.call (.hostapd .stop _), false⟩ :: earlier => running interface earlier
  | ⟨.call (.hostapd _ on), _⟩ :: earlier => on == interface || running interface earlier
  | _ :: earlier => running interface earlier

/-- Whether hostapd was stopped on an interface, and not started there since. -/
def stopped (interface : String) : List (Event δ) → Bool
  | [] => false
  | ⟨.call (.hostapd .stop on), true⟩ :: earlier => on == interface || stopped interface earlier
  | ⟨.call (.hostapd .stop _), false⟩ :: earlier => stopped interface earlier
  | ⟨.call (.hostapd _ on), _⟩ :: earlier => on != interface && stopped interface earlier
  | _ :: earlier => stopped interface earlier

/-- Whether an access point interface was created, and not deleted since, even in
vain. -/
def created (interface : String) : List (Event δ) → Bool
  | [] => false
  | ⟨.call (.createAccessPoint _ on), true⟩ :: earlier => on == interface || created interface earlier
  | ⟨.call (.deleteAccessPoint on), _⟩ :: earlier => on != interface && created interface earlier
  | _ :: earlier => created interface earlier

/-- Whether the firewall was opened for an interface, and neither closed nor its
interface deleted since, even in vain. -/
def opened (interface : String) : List (Event δ) → Bool
  | [] => false
  | ⟨.call (.openFirewall on), true⟩ :: earlier => on == interface || opened interface earlier
  | ⟨.call (.closeFirewall on), _⟩ :: earlier => on != interface && opened interface earlier
  | ⟨.call (.deleteAccessPoint on), _⟩ :: earlier => on != interface && opened interface earlier
  | _ :: earlier => opened interface earlier

end History

namespace World

variable {δ : Type} (paths : Paths)

/-- A change to the file at a path, for its reader to pick up. -/
def changed (w : World δ) (path : Path) : World δ :=
  match Reader.of paths path with
  | some reader => { w with unread := reader :: w.unread }
  | none => w

/-- A reader has picked up what changed. -/
def pickedUp (w : World δ) (reader : Reader) : World δ :=
  { w with unread := w.unread.filter (· ≠ reader) }

/-- A file is put in place. -/
def write (w : World δ) (file : File) : World δ :=
  { w with disk := w.disk.insert file.path (stored file) }.changed paths file.path

/-- A file is taken away, where there is one.  A hostapd that is not running has no
use for its configuration. -/
def remove (w : World δ) (path : Path) : World δ :=
  if path ∈ w.disk then
    let taken := { w with disk := w.disk.erase path }
    match Reader.of paths path with
    | some (.hostapd interface) =>
        if running interface w.events then taken.changed paths path else taken
    | _ => taken.changed paths path
  else w

/-- The record is saved. -/
def save (w : World δ) (record : Record δ) : World δ :=
  { w with record := some record }

/-- The domain the modprobe file on disk names. -/
def domain (w : World δ) : Option String :=
  w.disk[paths.modprobe]?.bind fun found => regulatoryDomain found.contents

/-- A call did what it does: the reader it tells picks its changes up. -/
def took (w : World δ) : Call → World δ
  | .setRegulatoryDomain domain =>
      if w.domain paths = some domain then w.pickedUp .regdom else w
  | .hostapd _ interface => w.pickedUp (.hostapd interface)
  | .restartIwd => w.pickedUp .iwd
  | .reloadNetworkd => w.pickedUp .networkd
  | .reloadResolved => w.pickedUp .resolved
  | .createAccessPoint _ _ | .deleteAccessPoint _ | .openFirewall _ | .closeFirewall _ => w

/-- An operation is noted as done. -/
def note (w : World δ) (op : Op δ) (ok : Bool) : World δ :=
  { w with events := ⟨op, ok⟩ :: w.events }

end World

/-! ## The operations -/

section Effects

variable {δ : Type} (paths : Paths)

/-- What may come of an operation.  Reading does not fail: a record that cannot be
read is taken as empty. -/
def outcome : (o : Op δ) → World δ → Except String o.Answer → World δ → Prop
  | .load, w, result, w' => result = .ok (w.record.getD .empty) ∧ w' = w
  | .owned, w, result, w' => result = .ok (scan paths w.disk) ∧ w' = w
  | .existsAt path, w, result, w' => result = .ok (w.disk.contains path) ∧ w' = w
  | .write file, w, result, w' => ∃ landed, (result.isOk = true → landed = true) ∧
      w' = ((if landed then w.write paths file else w).note (.write file) result.isOk)
  | .remove path, w, result, w' => ∃ landed, (result.isOk = true → landed = true) ∧
      w' = ((if landed then w.remove paths path else w).note (.remove path) result.isOk)
  | .save record, w, result, w' => ∃ landed, (result.isOk = true → landed = true) ∧
      w' = ((if landed then w.save record else w).note (.save record) result.isOk)
  | .call call, w, result, w' =>
      w' = ((if result.isOk then w.took paths call else w).note (.call call) result.isOk)

/-- The operations of an apply. -/
abbrev effects (δ : Type) (paths : Paths) : Interruptible.Effects where
  World := World δ
  Op := Op δ
  Answer := Op.Answer
  outcome := outcome paths

/-- A device on which chosen operations fail without landing, and no others. -/
def World.handle (fails : Op δ → Bool) (w : World δ) :
    (o : Op δ) → Except String o.Answer × World δ
  | .load => (.ok (w.record.getD .empty), w)
  | .owned => (.ok (scan paths w.disk), w)
  | .existsAt path => (.ok (w.disk.contains path), w)
  | .write file =>
      if fails (.write file) then (.error "failed", w.note (.write file) false)
      else (.ok (), (w.write paths file).note (.write file) true)
  | .remove path =>
      if fails (.remove path) then (.error "failed", w.note (.remove path) false)
      else (.ok (), (w.remove paths path).note (.remove path) true)
  | .save record =>
      if fails (.save record) then (.error "failed", w.note (.save record) false)
      else (.ok (), (w.save record).note (.save record) true)
  | .call call =>
      if fails (.call call) then (.error "failed", w.note (.call call) false)
      else (.ok (), (w.took paths call).note (.call call) true)

/-- What such a device does is among what may come of each operation. -/
theorem World.handle_possible (fails : Op δ → Bool) (w : World δ) (o : Op δ) :
    outcome paths o w (w.handle paths fails o).1 (w.handle paths fails o).2 := by
  cases o with
  | load => exact ⟨rfl, rfl⟩
  | owned => exact ⟨rfl, rfl⟩
  | existsAt path => exact ⟨rfl, rfl⟩
  | write file =>
      by_cases hfails : fails (.write file) = true
      · exact ⟨false, by simp [handle, hfails, Except.isOk, Except.toBool]⟩
      · exact ⟨true, by simp [handle, hfails, Except.isOk, Except.toBool]⟩
  | remove path =>
      by_cases hfails : fails (.remove path) = true
      · exact ⟨false, by simp [handle, hfails, Except.isOk, Except.toBool]⟩
      · exact ⟨true, by simp [handle, hfails, Except.isOk, Except.toBool]⟩
  | save record =>
      by_cases hfails : fails (.save record) = true
      · exact ⟨false, by simp [handle, hfails, Except.isOk, Except.toBool]⟩
      · exact ⟨true, by simp [handle, hfails, Except.isOk, Except.toBool]⟩
  | call call =>
      by_cases hfails : fails (.call call) = true
      · simp [outcome, handle, hfails, Except.isOk, Except.toBool]
      · simp [outcome, handle, hfails, Except.isOk, Except.toBool]

end Effects

end Bliti.Network.Apply
