import Bliti.Library.Interruptible
import Bliti.Provision.Steps.Records

/-!
# The step encryption

The step gives the root volume of the system on the disk a key of its own,
unlocks it from the board's TPM, and replaces its empty passphrase with a
recovery passphrase.  It is a program over the operations of the volume, of the
machine's storage, of the system on the disk and of the records file.

An operation that fails may have left things as they were or have taken place
all the same; a re-encryption, a write or a flush may also have taken place in
part.
-/

namespace Bliti.Provision.Encryption

open Interruptible

/-! ## The world -/

/-- What the step reaches: the NVMe drives, the disk's root volume, the payload's, and
the records file, as far as it is on the medium and what was written after that.  A
character of the file is a byte of it: every field of a record is ASCII. -/
structure World where
  disks : List String
  volume : Option Volume
  payload : Option Header
  flushed : List Char
  unflushed : List Char
deriving DecidableEq

namespace World

/-- What the records file reads as. -/
def records (w : World) : List Char :=
  w.flushed ++ w.unflushed

/-- The world after power was lost: what was not flushed may leave anything after what
was. -/
def crashed (w : World) (left : List Char) : World :=
  { w with
    flushed := w.flushed ++ (if w.unflushed = [] then [] else left)
    unflushed := [] }

end World

/-! ## The operations -/

/-- A partition that may hold a root volume. -/
inductive Node where
  | disk
  | payload
deriving DecidableEq

/-- A filesystem the step mounts. -/
inductive Filesystem where
  | firmware
  | root
deriving DecidableEq

/-- An operation of the step. -/
inductive Operation where
  | nvme
  | readManifest
  | openPayload
  | header (node : Node)
  | unlocks (key : Key) (slot : Option Nat)
  | reencrypt
  | setUuid (uuid : Field)
  | addPassphrase (passphrase : String)
  | enrolTpm (passphrase : String)
  | remove (slot : Nat) (key : Key)
  | openVolume (key : Key)
  | mount (filesystem : Filesystem) (writable : Bool)
  | check
  | rewire
  | openRecords
  | seekEnd
  | readByte (position : Nat)
  | writeAll (text : List Char)
  | syncAll
deriving DecidableEq

namespace Operation

/-- What an operation answers. -/
def Answer : Operation → Type
  | nvme => List String
  | header _ => Option Header
  | unlocks _ _ => Bool
  | seekEnd => Nat
  | readByte _ => Char
  | _ => Unit

/-- What an operation that succeeds does, and answers. -/
def succeeds : (o : Operation) → World → o.Answer → World → Prop
  | nvme, w, disks, w' => disks = w.disks ∧ w' = w
  | header .disk, w, answer, w' => answer = w.volume.map Volume.header ∧ w' = w
  | header .payload, w, answer, w' => answer = w.payload ∧ w' = w
  | unlocks key slot, w, answer, w' =>
      (∃ v, w.volume = some v ∧ answer = v.unlockedBy key slot) ∧ w' = w
  | reencrypt, w, _, w' => ∃ v digest, w.volume = some v ∧
      v.unlockedBy .empty none = true ∧ w' = { w with volume := some (v.reencrypted digest) }
  | setUuid uuid, w, _, w' => ∃ v, w.volume = some v ∧
      w' = { w with volume := some (v.renamed uuid) }
  | addPassphrase passphrase, w, _, w' => ∃ v id, ∃ hfresh : id ∉ v.slots.map Prod.fst,
      w.volume = some v ∧ v.unlockedBy .empty none = true ∧
        w' = { w with volume := some (v.add id (.passphrase passphrase) hfresh) }
  | enrolTpm passphrase, w, _, w' => ∃ v id, ∃ hfresh : id ∉ v.slots.map Prod.fst,
      w.volume = some v ∧ v.unlockedBy (.passphrase passphrase) none = true ∧
        w' = { w with volume := some (v.add id (.tpm true []) hfresh) }
  | remove slot key, w, _, w' => ∃ v, w.volume = some v ∧ v.unlockedBy key none = true ∧
      w' = { w with volume := some (v.remove slot) }
  | seekEnd, w, length, w' => length = w.records.length ∧ w' = w
  | readByte position, w, byte, w' => w.records[position]? = some byte ∧ w' = w
  | writeAll text, w, _, w' => w' = { w with unflushed := w.unflushed ++ text }
  | syncAll, w, _, w' => w' = { w with flushed := w.records, unflushed := [] }
  | readManifest, w, _, w' | openPayload, w, _, w' | openVolume _, w, _, w'
  | mount _ _, w, _, w' | check, w, _, w' | rewire, w, _, w' | openRecords, w, _, w' =>
      w' = w

/-- What an operation that fails may have done of what it does. -/
def partly : Operation → World → World → Prop
  | reencrypt, w, w' => ∃ v, w.volume = some v ∧
      w' = { w with volume := some { v with reencrypting := true } }
  | writeAll text, w, w' => ∃ written, written <+: text ∧
      w' = { w with unflushed := w.unflushed ++ written }
  | syncAll, w, w' => ∃ synced rest, w.unflushed = synced ++ rest ∧
      w' = { w with flushed := w.flushed ++ synced, unflushed := rest }
  | _, _, _ => False

/-- How an operation may turn out. -/
def outcome (o : Operation) (w : World) (result : Except String o.Answer) (w' : World) :
    Prop :=
  match result with
  | .ok answer => o.succeeds w answer w'
  | .error _ => w' = w ∨ (∃ answer, o.succeeds w answer w') ∨ o.partly w w'

end Operation

/-- The operations of the step, and how each may turn out. -/
@[reducible]
def effects : Effects where
  World := World
  Op := Operation
  Answer := Operation.Answer
  outcome := Operation.outcome

/-- A program of the step. -/
abbrev Tool :=
  Program effects

/-- Perform an operation, failing where it does. -/
abbrev attempt (o : Operation) : Tool o.Answer :=
  Program.attempt (E := effects) o

/-- Perform an operation, taking its failure for an answer. -/
abbrev attemptOr (o : Operation) (default : o.Answer) : Tool o.Answer :=
  Program.attemptOr (E := effects) o default

/-! ## The record -/

namespace Record

/-- The last byte of a file of a length, where it has one. -/
def last (length : Nat) : Tool (Option Char) :=
  if 0 < length then do
    let last ← attempt (.readByte (length - 1))
    pure (some last)
  else
    pure none

/-- Append the record to the records file and flush it to the medium. -/
def save (record : Record) : Tool Unit := do
  attempt .openRecords
  let length ← attempt .seekEnd
  let last ← last length
  attempt (.writeAll (record.appended last))
  attempt .syncAll

end Record

/-! ## The tools -/

/-- The one NVMe drive the board has. -/
def singleDisk : Tool String := do
  let disks ← attempt .nvme
  match disks with
  | [] => .fail "the board has no NVMe drive"
  | [disk] => pure disk
  | _ => .fail "the board has more than one NVMe drive"

namespace Tools

/-- Whether a key unlocks the volume, through one keyslot where one is given. -/
def unlocks (key : Key) (slot : Option Nat) : Tool Bool :=
  attempt (.unlocks key slot)

/-- Whether the board's TPM unlocks the volume, as far as can be told. -/
def tpmUnlocks : Tool Bool :=
  attemptOr (.unlocks .tpm none) false

/-- The header of the root volume of the payload. -/
def payloadVolume : Tool Header := do
  attempt .readManifest
  attempt .openPayload
  let header ← attempt (.header .payload)
  match header with
  | none => .fail "the payload holds no encrypted root volume"
  | some header => pure header

/-- What the disk's root volume lacks of what the step leaves, a phrase for each. -/
def lacks : Tool (List String) := do
  let _ ← singleDisk
  let header ← attempt (.header .disk)
  match header with
  | none => pure ["the disk holds no encrypted root volume"]
  | some header => do
      let empty ← unlocks .empty none
      if empty then
        pure ["the empty passphrase still unlocks the volume"]
      else do
        let tpm ← tpmUnlocks
        if !tpm then
          pure ["the board's TPM does not unlock the volume"]
        else if header.reencrypting then
          pure ["the volume still holds the key of the image"]
        else do
          let image ← payloadVolume
          if header.digest = image.digest then
            pure ["the volume still holds the key of the image"]
          else
            pure []

/-- The header of the disk's root volume. -/
def header : Tool Header := do
  let header ← attempt (.header .disk)
  match header with
  | none => .fail "the root volume has gone"
  | some header => pure header

/-- The key the root volume of the disk opens with: the empty passphrase or, where that
does not unlock it, the board's TPM. -/
def rootKey : Tool Key := do
  let empty ← unlocks .empty none
  if empty then
    pure .empty
  else do
    let tpm ← tpmUnlocks
    if tpm then pure .tpm else .fail "the root volume could not be opened"

/-- Open the root volume of the disk and mount the root filesystem inside it. -/
def openRoot (writable : Bool) : Tool Unit := do
  let key ← rootKey
  attempt (.openVolume key)
  (attempt (.mount .root writable)).mapFail
    ("the root filesystem could not be mounted: " ++ ·)

/-- Mount the disk's firmware partition and its root filesystem. -/
def mounted (writable : Bool) : Tool Unit := do
  (attempt (.mount .firmware writable)).mapFail
    ("the disk's firmware partition could not be mounted: " ++ ·)
  openRoot writable

/-- Check, before anything is changed, that the system on the disk can be made to unlock
from the TPM. -/
def preflight : Tool Unit := do
  mounted false
  attempt .check

/-- Make the system on the disk unlock from the TPM. -/
def makeSystemUnlockFromTpm : Tool Unit := do
  mounted true
  attempt .rewire

/-- Give the volume a key of its own, where it still has the image's. -/
def rotateKey (header image : Header) : Tool Header :=
  if header.reencrypting = true ∨ header.digest = image.digest then do
    attempt .reencrypt
    let header ← Tools.header
    if header.reencrypting = true ∨ header.digest = image.digest then
      .fail "the volume was not re-encrypted under a new key"
    else
      pure header
  else
    pure header

/-- Give the volume a UUID of its own, where it still has the image's. -/
def rotateUuid (randomUuid : Field) (header image : Header) : Tool Header :=
  if header.uuid = image.uuid then do
    attempt (.setUuid randomUuid)
    Tools.header
  else
    pure header

/-- Give the volume a key of its own and a UUID of its own. -/
def rotate (randomUuid : Field) (header image : Header) : Tool Header := do
  let header ← rotateKey header image
  rotateUuid randomUuid header image

/-- Check that the recovery passphrase and the TPM each unlock the volume, and that the
TPM's keyslot is bound to no PCR. -/
def checkKeys (passphrase : String) : Tool Unit := do
  let opens ← unlocks (.passphrase passphrase) none
  if !opens then
    .fail "the recovery passphrase does not unlock the volume"
  else do
    let tpm ← unlocks .tpm none
    if !tpm then
      .fail "the board's TPM does not unlock the volume"
    else do
      let header ← header
      if header.slots.any fun slot => slot.tpm.any fun pcrs => !pcrs.isEmpty then
        .fail "the TPM keyslot is bound to PCRs"
      else
        pure ()

/-- Remove a keyslot where the empty passphrase does not unlock it. -/
def removeOther (slot : Slot) : Tool Unit := do
  let empty ← unlocks .empty (some slot.id)
  if !empty then attempt (.remove slot.id .empty) else pure ()

/-- Remove a keyslot where the empty passphrase unlocks it. -/
def removeEmpty (passphrase : String) (slot : Slot) : Tool Unit := do
  let empty ← unlocks .empty (some slot.id)
  if empty then attempt (.remove slot.id (.passphrase passphrase)) else pure ()

/-- What the step is given, and what it draws and reads off the clock: the passphrase is
the one of the words drawn. -/
structure Given where
  suffix : Field
  version : Option Field
  words : List String
  passphrase : String
  generated : generate words = some passphrase
  randomUuid : Field
  now : Field

/-- The record of a volume by its UUID. -/
def Given.record (given : Given) (uuid : Field) : Record where
  suffix := given.suffix
  version := given.version
  disk := uuid
  passphrase := { text := given.passphrase, plain := generate_plain given.generated }
  savedAt := given.now

/-- Give the volume its keyslots: the recovery passphrase's and the TPM's, with that of
the empty passphrase still in place. -/
def addKeys (given : Given) (header : Header) : Tool Unit := do
  header.slots.forM removeOther
  attempt (.addPassphrase given.passphrase)
  attempt (.enrolTpm given.passphrase)

/-- Take the empty passphrase off the volume. -/
def removeEmpties (given : Given) : Tool Unit := do
  let header ← header
  header.slots.forM (removeEmpty given.passphrase)
  let empty ← unlocks .empty none
  if empty then
    .fail "the empty passphrase could not be replaced by the TPM"
  else do
    let tpm ← unlocks .tpm none
    if !tpm then
      .fail "the empty passphrase could not be replaced by the TPM"
    else
      pure ()

/-- Set up the volume the empty passphrase unlocks, and give the record saved. -/
def setUp (given : Given) (header : Header) : Tool Record := do
  preflight
  let image ← payloadVolume
  let header ← rotate given.randomUuid header image
  addKeys given header
  makeSystemUnlockFromTpm
  checkKeys given.passphrase
  let header ← Tools.header
  let record := given.record header.uuid
  record.save.mapFail ("cannot save the record to the provisioning medium: " ++ ·)
  removeEmpties given
  pure record

/-- Carry out the step, and give the record it saved. -/
def carryOut (given : Given) : Tool (Option Record) := do
  let _ ← singleDisk
  let header ← attempt (.header .disk)
  match header with
  | none => .fail "the disk holds no encrypted root volume: write the system to it first"
  | some header => do
      let empty ← unlocks .empty none
      if !empty then do
        let lacking ← lacks
        if lacking.isEmpty then pure none
        else .fail "the root volume could not be opened"
      else do
        let record ← setUp given header
        pure (some record)

end Tools

/-! ## Operations none of which fails -/

/-- An operation where none fails, but one the volume does not let be done: a new volume
key takes a digest longer than the last. -/
def reliably (w : World) : (o : Operation) → Except String o.Answer × World
  | .nvme => (.ok w.disks, w)
  | .header .disk => (.ok (w.volume.map Volume.header), w)
  | .header .payload => (.ok w.payload, w)
  | .unlocks key slot =>
      match w.volume with
      | none => (.error "no volume", w)
      | some v => (.ok (v.unlockedBy key slot), w)
  | .reencrypt => changing fun v =>
      if v.unlockedBy .empty none then some (v.reencrypted (v.digest ++ "*")) else none
  | .setUuid uuid => changing fun v => some (v.renamed uuid)
  | .addPassphrase passphrase => changing fun v =>
      if v.unlockedBy .empty none then
        some (v.add v.unused (.passphrase passphrase) v.unused_not_mem)
      else none
  | .enrolTpm passphrase => changing fun v =>
      if v.unlockedBy (.passphrase passphrase) none then
        some (v.add v.unused (.tpm true []) v.unused_not_mem)
      else none
  | .remove slot key => changing fun v =>
      if v.unlockedBy key none then some (v.remove slot) else none
  | .seekEnd => (.ok w.records.length, w)
  | .readByte position =>
      match w.records[position]? with
      | none => (.error "no byte", w)
      | some byte => (.ok byte, w)
  | .writeAll text => (.ok (), { w with unflushed := w.unflushed ++ text })
  | .syncAll => (.ok (), { w with flushed := w.records, unflushed := [] })
  | .readManifest | .openPayload | .openVolume _ | .mount _ _ | .check | .rewire
  | .openRecords => (.ok (), w)
where
  /-- Change the volume, where there is one that lets it be done. -/
  changing (change : Volume → Option Volume) : Except String Unit × World :=
    match w.volume.bind change with
    | none => (.error "not done", w)
    | some v => (.ok (), { w with volume := some v })

/-- Where none fails, an operation attempted turns out as it does. -/
@[simp]
theorem run_attempt (o : Operation) (w : World) :
    (attempt o).run reliably w = reliably w o :=
  Program.run_attempt (E := effects) reliably o w

/-- A change is not done, or is done to the volume there is. -/
theorem changing_cases (w : World) (change : Volume → Option Volume) :
    reliably.changing w change = (.error "not done", w) ∨
      ∃ v v', w.volume = some v ∧ change v = some v' ∧
        reliably.changing w change = (.ok (), { w with volume := some v' }) := by
  unfold reliably.changing
  rcases hvolume : w.volume with _ | v
  · exact .inl rfl
  · rcases hchange : change v with _ | v'
    · exact .inl (by simp [hchange])
    · exact .inr ⟨v, v', rfl, hchange, by simp [hchange]⟩

/-- What holds of a change not done, and of one done to a volume that opens, holds of the change. -/
theorem changing_opened (w : World) (opens : Volume → Bool) (change : Volume → Volume)
    {P : Except String Unit → World → Prop} (hnone : P (.error "not done") w)
    (hdone : ∀ v, w.volume = some v → opens v = true →
      P (.ok ()) { w with volume := some (change v) }) :
    P (reliably.changing w fun v => if opens v then some (change v) else none).1
      (reliably.changing w fun v => if opens v then some (change v) else none).2 := by
  rcases changing_cases w fun v => if opens v then some (change v) else none with
    hcase | ⟨v, v', hvolume, hchange, hcase⟩
  · rw [hcase]
    exact hnone
  · rw [hcase]
    obtain ⟨hopens, hnew⟩ := Option.ite_none_right_eq_some.mp hchange
    cases hnew
    exact hdone v hvolume hopens

/-- An operation that succeeds turns out so. -/
theorem Operation.outcome_ok {o : Operation} {w w' : World} {answer : o.Answer}
    (hsucceeds : o.succeeds w answer w') : o.outcome w (.ok answer) w' :=
  hsucceeds

/-- An operation that fails may have left everything as it was. -/
theorem Operation.outcome_error (o : Operation) (w : World) (reason : String) :
    o.outcome w (.error reason) w :=
  .inl rfl

/-- How an operation turns out where none fails is a way it may turn out. -/
theorem outcome_reliably (w : World) (o : Operation) :
    o.outcome w (reliably w o).1 (reliably w o).2 := by
  cases o with
  | nvme => exact Operation.outcome_ok ⟨rfl, rfl⟩
  | seekEnd => exact Operation.outcome_ok ⟨rfl, rfl⟩
  | header node =>
      cases node with
      | disk => exact Operation.outcome_ok ⟨rfl, rfl⟩
      | payload => exact Operation.outcome_ok ⟨rfl, rfl⟩
  | unlocks key slot =>
      simp only [reliably]
      split
      · exact Operation.outcome_error _ w _
      · exact Operation.outcome_ok ⟨⟨_, by assumption, rfl⟩, rfl⟩
  | readByte position =>
      simp only [reliably]
      split
      · exact Operation.outcome_error _ w _
      · exact Operation.outcome_ok ⟨by assumption, rfl⟩
  | writeAll text => exact Operation.outcome_ok rfl
  | syncAll => exact Operation.outcome_ok rfl
  | readManifest => exact Operation.outcome_ok rfl
  | openPayload => exact Operation.outcome_ok rfl
  | openVolume key => exact Operation.outcome_ok rfl
  | mount filesystem writable => exact Operation.outcome_ok rfl
  | check => exact Operation.outcome_ok rfl
  | rewire => exact Operation.outcome_ok rfl
  | openRecords => exact Operation.outcome_ok rfl
  | setUuid uuid =>
      simp only [reliably]
      rcases changing_cases w fun v => some (v.renamed uuid) with
        hcase | ⟨v, v', hvolume, hchange, hcase⟩
      · rw [hcase]
        exact Operation.outcome_error _ w _
      · rw [hcase]
        cases hchange
        exact Operation.outcome_ok ⟨v, hvolume, rfl⟩
  | reencrypt =>
      exact changing_opened w _ _ (Operation.outcome_error .reencrypt w _)
        fun v hvolume hopens => Operation.outcome_ok ⟨v, _, hvolume, hopens, rfl⟩
  | addPassphrase passphrase =>
      exact changing_opened w _ _ (Operation.outcome_error (.addPassphrase passphrase) w _)
        fun v hvolume hopens =>
          Operation.outcome_ok ⟨v, _, v.unused_not_mem, hvolume, hopens, rfl⟩
  | enrolTpm passphrase =>
      exact changing_opened w _ _ (Operation.outcome_error (.enrolTpm passphrase) w _)
        fun v hvolume hopens =>
          Operation.outcome_ok ⟨v, _, v.unused_not_mem, hvolume, hopens, rfl⟩
  | remove slot key =>
      exact changing_opened w _ _ (Operation.outcome_error (.remove slot key) w _)
        fun v hvolume hopens => Operation.outcome_ok ⟨v, hvolume, hopens, rfl⟩

end Bliti.Provision.Encryption
