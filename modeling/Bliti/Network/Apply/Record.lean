import Std.Data.ExtTreeMap
import Bliti.Network.Render.Files

/-!
# Applying - the record

The record of what was last put in place: a digest of each file's rendered
contents and its mode.  The digest is a parameter of the development.
-/

namespace Bliti.Network.Apply

open Std (ExtTreeMap)
open Render

/-- What is recorded of a file. -/
structure Entry (δ : Type) where
  digest : δ
  mode : Nat
deriving DecidableEq, Repr

/-- What was last put in place, by path. -/
structure Record (δ : Type) where
  files : ExtTreeMap Path (Entry δ)

namespace Record

variable {δ : Type}

/-- A record of nothing. -/
def empty : Record δ where
  files := ∅

/-- Whether a path is recorded. -/
def contains (record : Record δ) (path : Path) : Bool :=
  record.files.contains path

/-- The paths recorded. -/
def paths (record : Record δ) : List Path :=
  record.files.keys

/-- A record of only the paths to keep. -/
def retain (record : Record δ) (keep : Path → Bool) : Record δ where
  files := record.files.filter fun path _ => keep path

/-- A record without a path. -/
def remove (record : Record δ) (path : Path) : Record δ where
  files := record.files.erase path

section Digest

variable (digest : String → δ)

/-- What is recorded of a file put in place. -/
def entry (file : File) : Entry δ where
  digest := digest file.contents
  mode := file.mode

/-- A record with a file put in place. -/
def insert (record : Record δ) (file : File) : Record δ where
  files := record.files.insert file.path (entry digest file)

/-- Whether a file is what was last put at its path. -/
def holds [DecidableEq δ] (record : Record δ) (file : File) : Bool :=
  record.files[file.path]?.any fun found =>
    found.digest = digest file.contents && found.mode = file.mode

/-- A file is held where its entry is recorded. -/
theorem holds_iff [DecidableEq δ] {record : Record δ} {file : File} :
    record.holds digest file = true ↔ record.files[file.path]? = some (entry digest file) := by
  unfold holds entry
  rcases record.files[file.path]? with _ | ⟨found, mode⟩ <;> simp

theorem getElem?_insert (record : Record δ) (file : File) (path : Path) :
    (record.insert digest file).files[path]? =
      if file.path = path then some (entry digest file) else record.files[path]? := by
  simp [insert, ExtTreeMap.getElem?_insert]

end Digest

/-- A path is recorded where it has an entry. -/
theorem contains_iff {record : Record δ} {path : Path} :
    record.contains path = true ↔ record.files[path]?.isSome = true := by
  simp [contains]

theorem mem_paths {record : Record δ} {path : Path} :
    path ∈ record.paths ↔ record.contains path = true := by
  simp [paths, contains]

theorem getElem?_retain (record : Record δ) (keep : Path → Bool) (path : Path) :
    (record.retain keep).files[path]? = if keep path then record.files[path]? else none := by
  simp only [retain, ExtTreeMap.getElem?_filter']
  cases record.files[path]? <;> simp [Option.filter]

theorem getElem?_remove (record : Record δ) (removed path : Path) :
    (record.remove removed).files[path]? =
      if removed = path then none else record.files[path]? := by
  simp [remove, ExtTreeMap.getElem?_erase]

/-- Records of the same entries are one. -/
theorem ext {one other : Record δ} (hsame : ∀ path : Path, one.files[path]? = other.files[path]?) :
    one = other := by
  obtain ⟨files⟩ := one
  obtain ⟨others⟩ := other
  congr 1
  apply ExtTreeMap.ext_getElem?
  intro path
  exact hsame path

end Record

end Bliti.Network.Apply
