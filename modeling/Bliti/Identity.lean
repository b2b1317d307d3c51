import Bliti.BoardId
import Bliti.Library.Transition
import Bliti.Text.Hex

/-!
# Establishing a device's own keys

Which source wins, whether the cached root still holds, the derivation where it does not, and the
keys descending from the root.  One cache file is carried from start to start, as a medium is moved
between boards.  The derivation, and the keys of a root, are left open.
-/

namespace Bliti.Establishing

open Board
open Transition (System)

/-- Bytes of root. -/
def rootLen : ℕ := 32

/-- A root, from which both credentials descend. -/
structure Root where
  bytes : List UInt8
  length_eq : bytes.length = rootLen
deriving DecidableEq

/-- A failure deriving a root. -/
inductive KeyError where
  | insufficientMemory (required available : ℕ)
  | parameters (message : String)
  | derivation (message : String)
deriving DecidableEq, Repr

/-- Bytes of memory the derivation needs at once. -/
def rootMemoryBytes : ℕ := 2 * 1024 * 1024 * 1024

/-- Whether a device has room to run the root derivation. -/
def checkMemory (availableBytes : ℕ) : Except KeyError Unit :=
  if availableBytes < rootMemoryBytes then
    .error (.insufficientMemory rootMemoryBytes availableBytes)
  else .ok ()

/-- The version of the key schedule. -/
def payloadVersion : ℕ := 1

/-- A failure establishing the device's identity. -/
inductive IdentityError where
  | boardId (err : BoardIdError)
  | key (err : KeyError)
  | qrDead (cached found : Option SourceKind)
  | unreadableSource (kind detail : String)
  | cache (message : String)
deriving DecidableEq, Repr

/-- The device's own identity, once established: its keys, which kind of source they were derived
from, and whether the derivation had to run. -/
structure Identity (κ : Type) where
  keys : κ
  kind : SourceKind
  derived : Bool
deriving DecidableEq

/-- The cache file's contents. -/
structure CacheFile where
  version : ℕ
  kind : String
  boardId : String
  platformSerial : Option String
  root : String
deriving DecidableEq

/-! ## Reading the board -/

/-- How a backend answers a probe and a read. -/
structure Answer where
  probe : Except BoardIdError Presence
  read : Except BoardIdError (List UInt8)

/-- The backend of a kind, as it answers. -/
def sourceOf (answers : SourceKind → Answer) (kind : SourceKind) : BoardIdSource where
  kind := kind
  probe := (answers kind).probe
  read := (answers kind).read

/-- The backends a build can see, with TPM support or not. -/
def sources (tpm : Bool) (answers : SourceKind → Answer) : List BoardIdSource :=
  let sources := [sourceOf answers .oneTimeProgrammable, sourceOf answers .raspberryPiSerial]
  if tpm then sources ++ [sourceOf answers .tpmEndorsementKey] else sources

/-- Refuse to derive on a board carrying a source this build cannot read. -/
def guardUnreadableSources (tpm : Bool) (nodes : List String) : Except IdentityError Unit :=
  if tpm then .ok ()
  else
    match ["/dev/tpmrm0", "/dev/tpm0"].find? fun node => nodes.contains node with
    | some node =>
        .error (.unreadableSource "TPM"
          (node ++ " is present, but this build was made without TPM support, so it would " ++
            "derive from a weaker source and not match this board's QR code"))
    | none => .ok ()

/-- The board's platform serial, and the kinds whose values were read for it. -/
def platformSerial : List BoardIdSource → Except IdentityError PlatformSerial × List SourceKind
  | [] => (.ok none, [])
  | source :: rest =>
      if source.kind.isPlatformSerial then
        match source.probe with
        | .error err => (.error (.boardId err), [])
        | .ok .present =>
            match source.read with
            | .error err => (.error (.boardId err), [source.kind])
            | .ok bytes => (.ok (some bytes), [source.kind])
        | .ok .placeholder => platformSerial rest
        | .ok .absent => platformSerial rest
      else platformSerial rest

/-! ## The cache -/

/-- What is at a path: nothing, what cannot be read, what has not the shape of a cache file, or a
cache file and the board it was written on. -/
inductive Contents (ι : Type) where
  | absent
  | unreadable (message : String)
  | misshapen
  | file (file : CacheFile) (board : ι)

/-- The path of the cache, and of the temporary file beside it. -/
structure Disk (ι : Type) where
  cache : Contents ι
  temporary : Contents ι

/-- The name of a kind in the cache. -/
def kindName : SourceKind → String
  | .tpmEndorsementKey => "tpm-endorsement-key"
  | .oneTimeProgrammable => "one-time-programmable"
  | .raspberryPiSerial => "raspberry-pi-serial"

/-- The kind a name in the cache is of. -/
def kindFromName (name : String) : Option SourceKind :=
  SourceKind.all.find? fun kind => kindName kind == name

/-- The root some bytes are. -/
def rootOf (bytes : List UInt8) : Option Root :=
  if hlength : bytes.length = rootLen then some { bytes := bytes, length_eq := hlength } else none

/-- What a cache file holds, where it applies. -/
def CacheFile.read (file : CacheFile) : Option (CacheState × Root) :=
  if file.version ≠ payloadVersion then none
  else
    match kindFromName file.kind, Text.hexDecode file.root with
    | some kind, some root =>
        match rootOf root with
        | none => none
        | some root =>
            match Text.hexDecode file.boardId with
            | none => none
            | some _ =>
                match file.platformSerial.map Text.hexDecode with
                | some (some serial) =>
                    some ({ boardIdKind := kind, platformSerial := some serial }, root)
                | some none => none
                | none => some ({ boardIdKind := kind, platformSerial := none }, root)
    | _, _ => none

/-- Read the cache, or `none` where it is absent or does not apply. -/
def readCache {ι : Type} : Contents ι → Except IdentityError (Option (CacheState × Root))
  | .absent => .ok none
  | .unreadable message => .error (.cache message)
  | .misshapen => .ok none
  | .file file _ => .ok file.read

/-- The cache file of a derivation. -/
def CacheFile.of (boardId : BoardId) (platformSerial : PlatformSerial) (root : Root) : CacheFile where
  version := payloadVersion
  kind := kindName boardId.kind
  boardId := Text.hexEncode boardId.bytes
  platformSerial := platformSerial.map Text.hexEncode
  root := Text.hexEncode root.bytes

/-- How a step of writing turns out: it is done, it fails, or the start ends before it is. -/
inductive Turn where
  | done
  | fails (message : String)
  | cut
deriving DecidableEq, Repr

/-- How the steps of writing the cache turn out, and what a write that is not done leaves of the
temporary file. -/
structure Writing (ι : Type) where
  createDir : Turn
  write : Turn
  left : Contents ι
  restrict : Turn
  rename : Turn

/-- What comes of a step that is not done, or of those after it. -/
def Turn.andThen {ι : Type} (turn : Turn) (left : Disk ι)
    (next : Option (Except IdentityError Unit) × Disk ι) :
    Option (Except IdentityError Unit) × Disk ι :=
  match turn with
  | .done => next
  | .fails message => (some (.error (.cache message)), left)
  | .cut => (none, left)

/-- Write the cache through a temporary file in the same directory. -/
def writeCache {ι : Type} (disk : Disk ι) (writing : Writing ι) (board : ι) (file : CacheFile) :
    Option (Except IdentityError Unit) × Disk ι :=
  let written : Disk ι := { disk with temporary := .file file board }
  writing.createDir.andThen disk
    (writing.write.andThen { disk with temporary := writing.left }
      (writing.restrict.andThen written
        (writing.rename.andThen written
          (some (.ok ()), { cache := written.temporary, temporary := .absent }))))

/-! ## A start -/

/-- How a start turns out: the TPM nodes there are, what the backends answer as the serial is read,
as they are probed and as one is selected, whether the cache can be read, the memory there is, how
the cache is written, and whether the start ends before it returns. -/
structure Start (ι : Type) where
  nodes : List String
  serial : SourceKind → Answer
  strongest : SourceKind → Answer
  selected : SourceKind → Answer
  unreadable : Option String
  availableMemory : ℕ
  writing : Writing ι
  ends : Bool

/-- What came of a start: what it returned, if it did, what it left on disk, and the kinds of source
whose values it read. -/
structure Started (ι κ : Type) where
  returned : Option (Except IdentityError (Identity κ))
  disk : Disk ι
  reads : List SourceKind

/-- What a start finds at the path of the cache. -/
def Start.found {ι : Type} (start : Start ι) (disk : Disk ι) : Contents ι :=
  match start.unreadable with
  | some message => .unreadable message
  | none => disk.cache

section Establish

variable {ι κ : Type} (tpm : Bool) (derive : BoardId → Except KeyError Root)
  (deviceKeys : Root → κ)

/-- The precedence is evaluated, the winning source read, and the root derived. -/
def rederive (board : ι) (start : Start ι) (disk : Disk ι) (serial : PlatformSerial)
    (reads : List SourceKind) : Started ι κ :=
  let (selected, read) := select (sources tpm start.selected)
  let reads := reads ++ read
  match selected with
  | .error err => { returned := some (.error (.boardId err)), disk := disk, reads := reads }
  | .ok boardId =>
      match checkMemory start.availableMemory with
      | .error err => { returned := some (.error (.key err)), disk := disk, reads := reads }
      | .ok () =>
          match derive boardId with
          | .error err => { returned := some (.error (.key err)), disk := disk, reads := reads }
          | .ok root =>
              let (written, disk) :=
                writeCache disk start.writing board (.of boardId serial root)
              let identity := {
                keys := deviceKeys root
                kind := boardId.kind
                derived := true }
              { returned := written.map fun written => written.map fun _ => identity
                disk := disk
                reads := reads }

/-- Establish the device's keys, deriving the root only where the cache does not hold. -/
def establish (board : ι) (start : Start ι) (disk : Disk ι) : Started ι κ :=
  match guardUnreadableSources tpm start.nodes with
  | .error err => { returned := some (.error err), disk := disk, reads := [] }
  | .ok () =>
      let (serial, reads) := platformSerial (sources tpm start.serial)
      match serial with
      | .error err => { returned := some (.error err), disk := disk, reads := reads }
      | .ok serial =>
          match strongestPresent (sources tpm start.strongest) with
          | .error err => { returned := some (.error (.boardId err)), disk := disk, reads := reads }
          | .ok strongest =>
              match readCache (start.found disk) with
              | .error err => { returned := some (.error err), disk := disk, reads := reads }
              | .ok cached =>
                  match evaluateCache (cached.map Prod.fst) serial strongest, cached with
                  | .fresh, some (state, root) =>
                      let identity := {
                        keys := deviceKeys root
                        kind := state.boardIdKind
                        derived := false }
                      { returned := some (.ok identity), disk := disk, reads := reads }
                  -- A fresh cache was read.
                  | .fresh, none => { returned := none, disk := disk, reads := reads }
                  | .qrDead, _ =>
                      let dead := IdentityError.qrDead
                        (cached.map fun cached => cached.1.boardIdKind) strongest
                      { returned := some (.error dead), disk := disk, reads := reads }
                  | .rederive, _ => rederive tpm derive deviceKeys board start disk serial reads

/-- A start on a board: it establishes the device's keys, unless it ends before it returns. -/
def Start.run (board : ι) (start : Start ι) (disk : Disk ι) : Started ι κ :=
  let started := establish tpm derive deviceKeys board start disk
  if start.ends then { started with returned := none } else started

/-! ## What a start is to establish -/

/-- Reading a source gives its value on the board. -/
def ReadsOf (values : SourceKind → Option (List UInt8)) (answers : SourceKind → Answer) : Prop :=
  ∀ kind bytes, (answers kind).read = .ok bytes → values kind = some bytes

/-- A start is on a board of some source values. -/
structure Start.On (start : Start ι) (values : SourceKind → Option (List UInt8)) : Prop where
  serial : ReadsOf values start.serial
  selected : ReadsOf values start.selected

/-- What a start compares, where its probes and reads succeed, the cache applies and a source is
present: the serial it read, the strongest kind present, what the cache holds, and the board it was
written on. -/
def Start.compares (start : Start ι) (disk : Disk ι) :
    Option (PlatformSerial × SourceKind × CacheState × Root × ι) :=
  match guardUnreadableSources tpm start.nodes, (platformSerial (sources tpm start.serial)).1,
      strongestPresent (sources tpm start.strongest), start.found disk with
  | .ok (), .ok serial, .ok (some kind), .file file board =>
      file.read.map fun (state, root) => (serial, kind, state, root, board)
  | _, _, _, _ => none

/-- What is to be so of a start on a board. -/
structure Own (values : ι → SourceKind → Option (List UInt8)) (board : ι) (start : Start ι)
    (disk : Disk ι) : Prop where
  /-- The keys it returns are of a root derived from a source value of the board, then or, as the
  cache was last written, earlier. -/
  keys : ∀ identity, (start.run tpm derive deviceKeys board disk).returned = some (.ok identity) →
    (∃ boardId root, values board boardId.kind = some boardId.bytes ∧ derive boardId = .ok root ∧
      identity.keys = deviceKeys root) ∧
    (identity.derived = false → ∃ file, disk.cache = .file file board)
  /-- On the board the cache was last written on, its serial read, a different strongest source is
  reported, and the disk left as it was. -/
  reported : ∀ serial kind state root, start.ends = false →
    start.compares tpm disk = some (some serial, kind, state, root, board) →
      kind ≠ state.boardIdKind →
        (start.run tpm derive deviceKeys board disk).returned =
            some (.error (.qrDead (some state.boardIdKind) (some kind))) ∧
          (start.run tpm derive deviceKeys board disk).disk = disk
  /-- A cache of another serial is rederived, with no fault. -/
  moved : ∀ serial kind state root on other,
    start.compares tpm disk = some (some serial, kind, state, root, on) →
      state.platformSerial = some other → other ≠ serial →
        (∀ cached found, (start.run tpm derive deviceKeys board disk).returned ≠
          some (.error (.qrDead cached found))) ∧
        ∀ identity, (start.run tpm derive deviceKeys board disk).returned = some (.ok identity) →
          identity.derived = true
  /-- Keys that were not derived took no source value but the serial. -/
  cheap : ∀ identity, (start.run tpm derive deviceKeys board disk).returned = some (.ok identity) →
    identity.derived = false →
      ∀ kind ∈ (start.run tpm derive deviceKeys board disk).reads, kind.isPlatformSerial = true

/-- Starts in turn, each on some board, from a cache that holds no root. -/
def carrying (values : ι → SourceKind → Option (List UInt8)) : System (Disk ι) (ι × Start ι) where
  init disk := ∀ cached, readCache disk.cache ≠ .ok (some cached)
  step disk started next := started.2.On (values started.1) ∧
    next = (started.2.run tpm derive deviceKeys started.1 disk).disk

/-- A start that compares a cache with its board can tell whose it is: another board's by the serial
or by the kind of the strongest source, and its own by the serial recorded or by that kind. -/
def Telling (board : ι) (start : Start ι) (disk : Disk ι) : Prop :=
  ∀ serial kind state root on, start.ends = false →
    start.compares tpm disk = some (serial, kind, state, root, on) →
      (on ≠ board → serial = none → kind ≠ state.boardIdKind) ∧
      (on = board → serial ≠ none → state.platformSerial = none → kind = state.boardIdKind)

end Establish

/-! ## What is read and written -/

/-- A kind is found by its name. -/
@[simp]
theorem kindFromName_kindName (kind : SourceKind) : kindFromName (kindName kind) = some kind := by
  cases kind <;> decide

@[simp]
theorem rootOf_bytes (root : Root) : rootOf root.bytes = some root :=
  dif_pos root.length_eq

/-- The cache of a derivation is read as it was written. -/
@[simp]
theorem CacheFile.read_of (boardId : BoardId) (serial : PlatformSerial) (root : Root) :
    (CacheFile.of boardId serial root).read =
      some ({ boardIdKind := boardId.kind, platformSerial := serial }, root) := by
  cases serial <;> simp [CacheFile.read, CacheFile.of]

/-- What a write may come to: it leaves the old cache or the new one, and fails only as a write
does. -/
structure Written {ι : Type} (disk : Disk ι) (board : ι) (file : CacheFile)
    (came : Option (Except IdentityError Unit) × Disk ι) : Prop where
  cache : came.2.cache = disk.cache ∨ came.2.cache = .file file board
  failed : ∀ err, came.1 = some (.error err) → ∃ message, err = .cache message

/-- A step that leaves the old cache comes to no more than those after it. -/
theorem Written.andThen {ι : Type} {disk left : Disk ι} {board : ι} {file : CacheFile}
    {next : Option (Except IdentityError Unit) × Disk ι} (hleft : left.cache = disk.cache)
    (hnext : Written disk board file next) (turn : Turn) :
    Written disk board file (turn.andThen left next) := by
  cases turn with
  | done => exact hnext
  | fails message =>
      refine ⟨.inl hleft, fun err herr => ⟨message, ?_⟩⟩
      exact (Except.error.inj (Option.some.inj herr)).symm
  | cut => exact ⟨.inl hleft, fun err herr => nomatch herr⟩

/-- A write of the cache, however its steps turn out. -/
theorem writeCache_written {ι : Type} (disk : Disk ι) (writing : Writing ι) (board : ι)
    (file : CacheFile) : Written disk board file (writeCache disk writing board file) := by
  have hrenamed : Written disk board file
      (some (.ok ()), { cache := .file file board, temporary := .absent }) :=
    ⟨.inr rfl, fun err herr => nomatch herr⟩
  unfold writeCache
  dsimp only
  apply Written.andThen rfl
  apply Written.andThen (by rfl)
  apply Written.andThen (by rfl)
  exact hrenamed.andThen (by rfl) writing.rename

/-- A serial that is read is of a source that is one. -/
theorem platformSerial_read {sources : List BoardIdSource} {bytes : List UInt8}
    (hread : (platformSerial sources).1 = .ok (some bytes)) :
    ∃ source ∈ sources, source.kind.isPlatformSerial = true ∧ source.read = .ok bytes := by
  induction sources with
  | nil => simp [platformSerial] at hread
  | cons source rest ih =>
      have hrest : (platformSerial rest).1 = .ok (some bytes) →
          ∃ found ∈ source :: rest, found.kind.isPlatformSerial = true ∧ found.read = .ok bytes := by
        intro hread
        obtain ⟨found, hmem, hfound⟩ := ih hread
        exact ⟨found, List.mem_cons_of_mem _ hmem, hfound⟩
      unfold platformSerial at hread
      split_ifs at hread with hserial
      · split at hread
        · cases hread
        · split at hread
          · cases hread
          · rename_i value hvalue
            obtain rfl := Option.some.inj (Except.ok.inj hread)
            exact ⟨source, List.mem_cons_self, hserial, hvalue⟩
        · exact hrest hread
        · exact hrest hread
      · exact hrest hread

/-- Only a serial is read for one. -/
theorem platformSerial_reads (sources : List BoardIdSource) :
    ∀ kind ∈ (platformSerial sources).2, kind.isPlatformSerial = true := by
  induction sources with
  | nil => exact fun _ hmem => nomatch hmem
  | cons source rest ih =>
      unfold platformSerial
      split_ifs with hserial
      · split
        · exact fun _ hmem => nomatch hmem
        · split
          · exact List.forall_mem_singleton.mpr hserial
          · exact List.forall_mem_singleton.mpr hserial
        · exact ih
        · exact ih
      · exact ih

/-- A backend of a build answers as that of its kind. -/
theorem eq_sourceOf {tpm : Bool} {answers : SourceKind → Answer} {source : BoardIdSource}
    (hmem : source ∈ sources tpm answers) : source = sourceOf answers source.kind := by
  unfold sources at hmem
  cases tpm with
  | true =>
      simp only [if_true, List.cons_append, List.nil_append, List.mem_cons, List.not_mem_nil,
        or_false] at hmem
      rcases hmem with rfl | rfl | rfl <;> rfl
  | false =>
      simp only [Bool.false_eq_true, if_false, List.mem_cons, List.not_mem_nil, or_false] at hmem
      rcases hmem with rfl | rfl <;> rfl

section Values

variable {tpm : Bool} {values : SourceKind → Option (List UInt8)} {answers : SourceKind → Answer}

/-- The serial that is read is the board's. -/
theorem serial_of_reads (hreads : ReadsOf values answers) {bytes : List UInt8}
    (hserial : (platformSerial (sources tpm answers)).1 = .ok (some bytes)) :
    values .raspberryPiSerial = some bytes := by
  obtain ⟨source, hmem, hkind, hread⟩ := platformSerial_read hserial
  have hanswers := eq_sourceOf hmem
  rw [hanswers] at hread
  have hvalue := hreads source.kind bytes hread
  cases hsource : source.kind with
  | raspberryPiSerial => rwa [hsource] at hvalue
  | tpmEndorsementKey => rw [hsource] at hkind; cases hkind
  | oneTimeProgrammable => rw [hsource] at hkind; cases hkind

/-- What is selected is a source value of the board. -/
theorem selected_of_reads (hreads : ReadsOf values answers) {boardId : BoardId}
    {reads : List SourceKind} (hselect : select (sources tpm answers) = (.ok boardId, reads)) :
    values boardId.kind = some boardId.bytes := by
  obtain ⟨source, hmem, hkind, hread⟩ := select_read hselect
  rw [eq_sourceOf hmem] at hread
  rw [← hkind]
  exact hreads source.kind boardId.bytes hread

end Values

end Bliti.Establishing
