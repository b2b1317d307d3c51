import Bliti.Library.Transition
import Bliti.Provision.Steps.Encryption

/-!
# The step encryption - a volume that opens

Every operation of the step may be its last.  What opens the volume is followed
through the step, operation by operation: while a keyslot of the empty passphrase
is left that does, and by the time none is, the TPM does, and so does the
passphrase on a complete line of the records file.

Main results:

- Theorem `setting_up_keeps_the_volume_opened`: over every sequence of the step's
  being carried out, cut short, and power lost.
-/

namespace Bliti.Provision.Encryption

open Interruptible

/-! ## What is kept -/

/-- The empty passphrase opens the volume, or the TPM and the passphrase on a complete
line of the records file do. -/
def Opened (w : World) (v : Volume) : Prop :=
  v.unlockedBy .empty none = true ∨
    (v.unlockedBy .tpm none = true ∧ ∃ passphrase,
      v.unlockedBy (.passphrase passphrase) none = true ∧
        Recorded w.flushed v.uuid passphrase)

/-- What the step leaves alone of what it started from: the drives, the payload, and what
the medium already has of the records file. -/
structure Since (start w : World) : Prop where
  disks : w.disks = start.disks
  payload : w.payload = start.payload
  flushed : start.flushed <+: w.flushed

/-- The step is at a stage, of the world and the volume in it. -/
def Stage (start : World) (Q : World → Volume → Prop) (w : World) : Prop :=
  Since start w ∧ ∃ v, w.volume = some v ∧ Q w v

theorem Since.refl (w : World) : Since w w :=
  ⟨rfl, rfl, List.prefix_rfl⟩

theorem Since.trans {first second third : World} (hone : Since first second)
    (htwo : Since second third) : Since first third :=
  ⟨htwo.disks.trans hone.disks, htwo.payload.trans hone.payload,
    hone.flushed.trans htwo.flushed⟩

/-- An operation that succeeds leaves alone what the step does. -/
theorem since_succeeds {o : Operation} {w w' : World} {answer : o.Answer}
    (hsucceeds : o.succeeds w answer w') : Since w w' := by
  cases o with
  | header node =>
      cases node with
      | disk => exact hsucceeds.2 ▸ Since.refl w
      | payload => exact hsucceeds.2 ▸ Since.refl w
  | nvme | unlocks _ _ | seekEnd | readByte _ => exact hsucceeds.2 ▸ Since.refl w
  | readManifest | openPayload | openVolume _ | mount _ _ | check | rewire | openRecords =>
      exact (show w' = w from hsucceeds) ▸ Since.refl w
  | reencrypt =>
      obtain ⟨v, digest, -, -, rfl⟩ := hsucceeds
      exact ⟨rfl, rfl, List.prefix_rfl⟩
  | setUuid uuid =>
      obtain ⟨v, -, rfl⟩ := hsucceeds
      exact ⟨rfl, rfl, List.prefix_rfl⟩
  | addPassphrase passphrase =>
      obtain ⟨v, id, hfresh, -, -, rfl⟩ := hsucceeds
      exact ⟨rfl, rfl, List.prefix_rfl⟩
  | enrolTpm passphrase =>
      obtain ⟨v, id, hfresh, -, -, rfl⟩ := hsucceeds
      exact ⟨rfl, rfl, List.prefix_rfl⟩
  | remove slot key =>
      obtain ⟨v, -, -, rfl⟩ := hsucceeds
      exact ⟨rfl, rfl, List.prefix_rfl⟩
  | writeAll text =>
      cases (show w' = _ from hsucceeds)
      exact ⟨rfl, rfl, List.prefix_rfl⟩
  | syncAll =>
      cases (show w' = _ from hsucceeds)
      exact ⟨rfl, rfl, List.prefix_append _ _⟩

/-- An operation that fails having been done in part leaves alone what the step does. -/
theorem since_partly {o : Operation} {w w' : World} (hpartly : o.partly w w') :
    Since w w' := by
  cases o with
  | reencrypt =>
      obtain ⟨v, -, rfl⟩ := hpartly
      exact ⟨rfl, rfl, List.prefix_rfl⟩
  | writeAll text =>
      obtain ⟨written, -, rfl⟩ := hpartly
      exact ⟨rfl, rfl, List.prefix_rfl⟩
  | syncAll =>
      obtain ⟨synced, rest, -, rfl⟩ := hpartly
      exact ⟨rfl, rfl, List.prefix_append _ _⟩
  | _ => exact hpartly.elim

/-! ## The rules of the operations -/

/-- Whether an operation only reads. -/
def Operation.reads : Operation → Bool
  | .reencrypt | .setUuid _ | .addPassphrase _ | .enrolTpm _ | .remove _ _ | .writeAll _
  | .syncAll => false
  | _ => true

/-- An operation that only reads changes nothing. -/
theorem eq_of_reads {o : Operation} {w w' : World} {answer : o.Answer}
    (hreads : o.reads = true) (hsucceeds : o.succeeds w answer w') : w' = w := by
  cases o with
  | header node =>
      cases node with
      | disk => exact hsucceeds.2
      | payload => exact hsucceeds.2
  | nvme | unlocks _ _ | seekEnd | readByte _ => exact hsucceeds.2
  | readManifest | openPayload | openVolume _ | mount _ _ | check | rewire | openRecords =>
      exact hsucceeds
  | reencrypt | setUuid _ | addPassphrase _ | enrolTpm _ | remove _ _ | writeAll _
  | syncAll => cases hreads

/-- An operation that only reads is not done in part. -/
theorem not_partly_of_reads {o : Operation} {w w' : World} (hreads : o.reads = true) :
    ¬ o.partly w w' := by
  cases o with
  | reencrypt | writeAll _ | syncAll => cases hreads
  | _ => exact id

section Rules

variable {start : World} {Q R : World → Volume → Prop}

theorem Stage.mono {w : World} (hstage : Stage start Q w) (himp : ∀ v, Q w v → R w v) :
    Stage start R w := by
  obtain ⟨hsince, v, hvolume, hv⟩ := hstage
  exact ⟨hsince, v, hvolume, himp v hv⟩

/-- An operation that only reads, its failure failing the step. -/
theorem keeps_read {o : Operation} (hQ : ∀ w v, Q w v → Opened w v)
    (hreads : o.reads = true) :
    Keeps (Stage start Opened) (Stage start Q) (attempt o)
      fun answer => Stage start fun w v => Q w v ∧ o.succeeds w answer w := by
  apply Keeps.attempt
  · intro w hstage
    exact hstage.mono fun v => hQ w v
  · intro w answer w' hstage hsucceeds
    cases eq_of_reads hreads hsucceeds
    exact ⟨hstage.mono fun v => hQ w v, hstage.mono fun v hv => ⟨hv, hsucceeds⟩⟩
  · intro w reason w' hstage houtcome
    rcases houtcome with rfl | ⟨answer, hsucceeds⟩ | hpartly
    · exact hstage.mono fun v => hQ w' v
    · cases eq_of_reads hreads hsucceeds
      exact hstage.mono fun v => hQ w v
    · exact absurd hpartly (not_partly_of_reads hreads)

/-- A tool that changes nothing, for what it does and not what it tells. -/
theorem Stage.only {α : Type} {p : Tool α} {T : α → World → Volume → Prop}
    (hkeeps : Keeps (Stage start Opened) (Stage start Q) p
      fun a => Stage start fun w v => Q w v ∧ T a w v) :
    Keeps (Stage start Opened) (Stage start Q) p fun _ => Stage start Q :=
  hkeeps.weaken (fun _ => id) fun _ _ hstage => hstage.mono fun _ => And.left

/-- An operation that only reads, for what it does and not what it answers. -/
theorem keeps_perform {o : Operation} (hQ : ∀ w v, Q w v → Opened w v)
    (hreads : o.reads = true) :
    Keeps (Stage start Opened) (Stage start Q) (attempt o) fun _ => Stage start Q :=
  Stage.only (keeps_read hQ hreads)

/-- An operation that changes something, taking one stage to another. -/
theorem keeps_change {o : Operation} (hQ : ∀ w v, Q w v → Opened w v)
    (hR : ∀ w v, R w v → Opened w v)
    (hsucceeds : ∀ w v answer w', Since start w → w.volume = some v → Q w v →
      o.succeeds w answer w' → ∃ v', w'.volume = some v' ∧ R w' v')
    (hpartly : ∀ w v w', w.volume = some v → Q w v → o.partly w w' →
      ∃ v', w'.volume = some v' ∧ Opened w' v') :
    Keeps (Stage start Opened) (Stage start Q) (attempt o) fun _ => Stage start R := by
  apply Keeps.attempt
  · intro w hstage
    exact hstage.mono fun v => hQ w v
  · intro w answer w' hstage hok
    obtain ⟨hsince, v, hvolume, hv⟩ := hstage
    have hafter : Stage start R w' :=
      ⟨hsince.trans (since_succeeds hok), hsucceeds w v answer w' hsince hvolume hv hok⟩
    exact ⟨hafter.mono fun v => hR w' v, hafter⟩
  · intro w reason w' hstage houtcome
    obtain ⟨hsince, v, hvolume, hv⟩ := hstage
    rcases houtcome with rfl | ⟨answer, hok⟩ | hpart
    · exact ⟨hsince, v, hvolume, hQ w' v hv⟩
    · refine ⟨hsince.trans (since_succeeds hok), ?_⟩
      obtain ⟨v', hvolume', hv'⟩ := hsucceeds w v answer w' hsince hvolume hv hok
      exact ⟨v', hvolume', hR w' v' hv'⟩
    · exact ⟨hsince.trans (since_partly hpart), hpartly w v w' hvolume hv hpart⟩

/-- An operation that is done whole or not at all is not done in part. -/
theorem not_partly {R : World → Volume → Prop} (w : World) (v : Volume) (w' : World)
    (_ : w.volume = some v) (_ : Q w v) (hpartly : False) :
    ∃ v', w'.volume = some v' ∧ R w' v' :=
  hpartly.elim

/-! ## The tools that change nothing -/

/-- The drive the board has is the one. -/
theorem keeps_singleDisk (hQ : ∀ w v, Q w v → Opened w v) :
    Keeps (Stage start Opened) (Stage start Q) singleDisk
      fun disk => Stage start fun w v => Q w v ∧ start.disks = [disk] := by
  refine .bind _ (keeps_read hQ rfl) fun disks => ?_
  match disks with
  | [] => exact .fail fun w hstage => hstage.mono fun v hv => hQ w v hv.1
  | [disk] =>
      refine .pure fun w hstage => ⟨hstage.mono fun v hv => hQ w v hv.1, ?_⟩
      obtain ⟨hsince, v, hvolume, hv, hdisks, -⟩ := hstage
      exact ⟨hsince, v, hvolume, hv, by rw [hdisks, hsince.disks]⟩
  | _ :: _ :: _ => exact .fail fun w hstage => hstage.mono fun v hv => hQ w v hv.1

/-- Whether a key unlocks the volume is told. -/
theorem keeps_unlocks (key : Key) (slot : Option Nat) (hQ : ∀ w v, Q w v → Opened w v) :
    Keeps (Stage start Opened) (Stage start Q) (Tools.unlocks key slot)
      fun answer => Stage start fun w v => Q w v ∧ v.unlockedBy key slot = answer := by
  refine (keeps_read hQ rfl).weaken (fun _ => id) ?_
  intro answer w hstage
  obtain ⟨hsince, v, hvolume, hv, ⟨v', hvolume', hanswer⟩, -⟩ := hstage
  cases hvolume.symm.trans hvolume'
  exact ⟨hsince, v, hvolume, hv, hanswer.symm⟩

/-- Whether the TPM unlocks the volume is told, or taken not to be. -/
theorem keeps_tpmUnlocks (hQ : ∀ w v, Q w v → Opened w v) :
    Keeps (Stage start Opened) (Stage start Q) Tools.tpmUnlocks fun _ => Stage start Q := by
  apply Keeps.attemptOr
  · intro w hstage
    exact hstage.mono fun v => hQ w v
  · intro w answer w' hstage hsucceeds
    cases eq_of_reads (o := .unlocks .tpm none) rfl hsucceeds
    exact ⟨hstage.mono fun v => hQ w v, hstage⟩
  · intro w reason w' hstage houtcome
    rcases houtcome with rfl | ⟨answer, hsucceeds⟩ | hpartly
    · exact ⟨hstage.mono fun v => hQ w' v, hstage⟩
    · cases eq_of_reads rfl hsucceeds
      exact ⟨hstage.mono fun v => hQ w v, hstage⟩
    · exact absurd hpartly (not_partly_of_reads rfl)

/-- The volume's header is read. -/
theorem keeps_header (hQ : ∀ w v, Q w v → Opened w v) :
    Keeps (Stage start Opened) (Stage start Q) Tools.header
      fun header => Stage start fun w v => Q w v ∧ v.header = header := by
  refine .bind _ (keeps_read hQ rfl) fun answer => ?_
  cases answer with
  | none => exact .fail fun w hstage => hstage.mono fun v hv => hQ w v hv.1
  | some header =>
      refine .pure fun w hstage => ⟨hstage.mono fun v hv => hQ w v hv.1, ?_⟩
      obtain ⟨hsince, v, hvolume, hv, hheader, -⟩ := hstage
      rw [hvolume] at hheader
      exact ⟨hsince, v, hvolume, hv, (Option.some.inj hheader).symm⟩

/-- The payload's header is read. -/
theorem keeps_payloadVolume (hQ : ∀ w v, Q w v → Opened w v) :
    Keeps (Stage start Opened) (Stage start Q) Tools.payloadVolume
      fun image => Stage start fun w v => Q w v ∧ start.payload = some image := by
  refine .bind _ (keeps_perform hQ rfl) fun _ => ?_
  refine .bind _ (keeps_perform hQ rfl) fun _ => ?_
  refine .bind _ (keeps_read hQ rfl) fun answer => ?_
  cases answer with
  | none => exact .fail fun w hstage => hstage.mono fun v hv => hQ w v hv.1
  | some image =>
      refine .pure fun w hstage => ⟨hstage.mono fun v hv => hQ w v hv.1, ?_⟩
      obtain ⟨hsince, v, hvolume, hv, hpayload, -⟩ := hstage
      exact ⟨hsince, v, hvolume, hv, by rw [← hsince.payload, ← hpayload]⟩

/-- What the volume lacks is found without changing anything. -/
theorem keeps_lacks (hQ : ∀ w v, Q w v → Opened w v) :
    Keeps (Stage start Opened) (Stage start Q) Tools.lacks fun _ => Stage start Q := by
  have hdone : ∀ {α : Type} (a : α), Keeps (Stage start Opened) (Stage start Q)
      (.pure a : Tool α) fun _ => Stage start Q :=
    fun a => .pure fun w hstage => ⟨hstage.mono fun v => hQ w v, hstage⟩
  refine .bind _ (Stage.only (keeps_singleDisk hQ)) fun _ => ?_
  refine .bind _ (keeps_perform hQ rfl) fun answer => ?_
  cases answer with
  | none => exact hdone _
  | some header =>
      refine .bind _ (Stage.only (keeps_unlocks .empty none hQ)) fun empty => ?_
      cases empty with
      | true => exact hdone _
      | false =>
          refine .bind _ (keeps_tpmUnlocks hQ) fun tpm => ?_
          cases tpm with
          | false => exact hdone _
          | true =>
              simp only [Bool.not_true, Bool.false_eq_true, ↓reduceIte]
              split
              · exact hdone _
              · refine .bind _ (Stage.only (keeps_payloadVolume hQ)) fun image => ?_
                split
                · exact hdone _
                · exact hdone _

/-- Mounting the firmware partition and the root filesystem changes nothing. -/
theorem keeps_mounted (writable : Bool) (hQ : ∀ w v, Q w v → Opened w v) :
    Keeps (Stage start Opened) (Stage start Q) (Tools.mounted writable)
      fun _ => Stage start Q := by
  refine .bind _ (Keeps.mapFail (keeps_perform hQ rfl)) fun _ => ?_
  have hkey : Keeps (Stage start Opened) (Stage start Q) Tools.rootKey
      fun _ => Stage start Q := by
    refine .bind _ (Stage.only (keeps_unlocks .empty none hQ)) fun empty => ?_
    cases empty with
    | true => exact .pure fun w hstage => ⟨hstage.mono fun v => hQ w v, hstage⟩
    | false =>
        refine .bind _ (keeps_tpmUnlocks hQ) fun tpm => ?_
        cases tpm with
        | true => exact .pure fun w hstage => ⟨hstage.mono fun v => hQ w v, hstage⟩
        | false => exact .fail fun w hstage => hstage.mono fun v => hQ w v
  refine .bind _ hkey fun key => ?_
  exact .bind _ (keeps_perform hQ rfl) fun _ => Keeps.mapFail (keeps_perform hQ rfl)

/-- Checking the system on the disk changes nothing. -/
theorem keeps_preflight (hQ : ∀ w v, Q w v → Opened w v) :
    Keeps (Stage start Opened) (Stage start Q) Tools.preflight fun _ => Stage start Q :=
  .bind _ (keeps_mounted false hQ) fun _ => keeps_perform hQ rfl

/-- Making the system unlock from the TPM changes nothing of the volume. -/
theorem keeps_makeSystemUnlockFromTpm (hQ : ∀ w v, Q w v → Opened w v) :
    Keeps (Stage start Opened) (Stage start Q) Tools.makeSystemUnlockFromTpm
      fun _ => Stage start Q :=
  .bind _ (keeps_mounted true hQ) fun _ => keeps_perform hQ rfl

/-- Checking the keys changes nothing. -/
theorem keeps_checkKeys (passphrase : String) (hQ : ∀ w v, Q w v → Opened w v) :
    Keeps (Stage start Opened) (Stage start Q) (Tools.checkKeys passphrase)
      fun _ => Stage start Q := by
  refine .bind _ (Stage.only (keeps_unlocks _ none hQ)) fun opens => ?_
  cases opens with
  | false => exact .fail fun w hstage => hstage.mono fun v => hQ w v
  | true =>
      refine .bind _ (Stage.only (keeps_unlocks _ none hQ)) fun tpm => ?_
      cases tpm with
      | false => exact .fail fun w hstage => hstage.mono fun v => hQ w v
      | true =>
          refine .bind _ (Stage.only (keeps_header hQ)) fun header => ?_
          split
          · exact .fail fun w hstage => hstage.mono fun v => hQ w v
          · exact .pure fun w hstage => ⟨hstage.mono fun v => hQ w v, hstage⟩

end Rules

/-! ## A volume of its own -/

/-- The empty passphrase opens the volume. -/
def EmptyOpens (v : Volume) : Prop :=
  v.unlockedBy .empty none = true

/-- A volume the empty passphrase opens is opened. -/
theorem EmptyOpens.opened {w : World} {v : Volume} (hempty : EmptyOpens v) : Opened w v :=
  .inl hempty

/-- The volume has a key and a UUID of its own, where the UUID drawn is not the image's. -/
structure Own (image : Header) (randomUuid : Field) (v : Volume) : Prop where
  whole : v.reencrypting = false
  digest : v.digest ≠ image.digest
  uuid : randomUuid ≠ image.uuid → v.uuid ≠ image.uuid

/-- The volume has a key of its own. -/
def OwnKey (image : Header) (v : Volume) : Prop :=
  v.reencrypting = false ∧ v.digest ≠ image.digest

section Rotate

variable {start : World} {header image : Header} {randomUuid : Field}

/-- Rotating the key leaves a volume with one of its own. -/
theorem keeps_rotateKey :
    Keeps (Stage start Opened)
      (Stage start fun _ v => EmptyOpens v ∧ v.header = header)
      (Tools.rotateKey header image)
      fun after => Stage start fun _ v =>
        (EmptyOpens v ∧ OwnKey image v) ∧ v.header = after := by
  have howned : ∀ (v : Volume) {header : Header}, v.header = header →
      ¬(header.reencrypting = true ∨ header.digest = image.digest) → OwnKey image v := by
    rintro v - rfl hnot
    rw [not_or, Bool.not_eq_true] at hnot
    exact hnot
  unfold Tools.rotateKey
  split
  · refine .bind _ (keeps_change (R := fun _ => EmptyOpens) (fun w v hv => hv.1.opened)
      (fun w v hv => hv.opened) ?_ ?_) fun _ => ?_
    · rintro w v answer w' - hvolume hv ⟨v', digest, hvolume', -, rfl⟩
      cases hvolume.symm.trans hvolume'
      exact ⟨_, rfl, hv.1⟩
    · rintro w v w' hvolume hv ⟨v', hvolume', rfl⟩
      cases hvolume.symm.trans hvolume'
      exact ⟨_, rfl, .inl hv.1⟩
    · refine .bind _ (keeps_header fun w v hv => hv.opened) fun after => ?_
      split
      · exact .fail fun w hstage => hstage.mono fun v hv => hv.1.opened
      · rename_i hnot
        refine .pure fun w hstage => ⟨hstage.mono fun v hv => hv.1.opened, ?_⟩
        exact hstage.mono fun v hv => ⟨⟨hv.1, howned v hv.2 hnot⟩, hv.2⟩
  · rename_i hnot
    refine .pure fun w hstage => ⟨hstage.mono fun v hv => hv.1.opened, ?_⟩
    exact hstage.mono fun v hv => ⟨⟨hv.1, howned v hv.2 hnot⟩, hv.2⟩

/-- Rotating the UUID leaves a volume with one of its own. -/
theorem keeps_rotateUuid :
    Keeps (Stage start Opened)
      (Stage start fun _ v => (EmptyOpens v ∧ OwnKey image v) ∧ v.header = header)
      (Tools.rotateUuid randomUuid header image)
      fun after => Stage start fun _ v =>
        (EmptyOpens v ∧ Own image randomUuid v) ∧ v.header = after := by
  unfold Tools.rotateUuid
  split
  · refine .bind _ (keeps_change (R := fun _ v => EmptyOpens v ∧ Own image randomUuid v)
      (fun w v hv => hv.1.1.opened) (fun w v hv => hv.1.opened) ?_ not_partly)
      fun _ => keeps_header fun w v hv => hv.1.opened
    rintro w v answer w' - hvolume ⟨⟨hempty, hkey⟩, -⟩ ⟨v', hvolume', rfl⟩
    cases hvolume.symm.trans hvolume'
    exact ⟨_, rfl, hempty, hkey.1, hkey.2, id⟩
  · rename_i hnot
    refine .pure fun w hstage => ⟨hstage.mono fun v hv => hv.1.1.opened, ?_⟩
    refine hstage.mono ?_
    rintro v ⟨⟨hempty, hkey⟩, rfl⟩
    exact ⟨⟨hempty, hkey.1, hkey.2, fun _ => hnot⟩, rfl⟩

/-- Rotating leaves a volume with a key and a UUID of its own. -/
theorem keeps_rotate :
    Keeps (Stage start Opened)
      (Stage start fun _ v => EmptyOpens v ∧ v.header = header)
      (Tools.rotate randomUuid header image)
      fun after => Stage start fun _ v =>
        (EmptyOpens v ∧ Own image randomUuid v) ∧ v.header = after :=
  .bind _ keeps_rotateKey fun _ => keeps_rotateUuid

end Rotate

/-! ## The keyslots -/

/-- The keyslots are those of the empty passphrase, then the recovery passphrase's and the
TPM's, bound to no PCR.  Those of the empty passphrase have numbers of some kind. -/
def Keyed (passphrase : String) (left : Nat → Prop) (v : Volume) : Prop :=
  ∃ empties keyed tpm,
    v.slots = empties ++ [(keyed, .passphrase passphrase), (tpm, .tpm true [])] ∧
      ∀ slot ∈ empties, slot.2 = .empty ∧ left slot.1

namespace Keyed

variable {passphrase : String} {left left' : Nat → Prop} {v : Volume}

/-- The recovery passphrase unlocks the volume. -/
theorem passphrase_unlocks (hkeyed : Keyed passphrase left v) :
    v.unlockedBy (.passphrase passphrase) none = true := by
  obtain ⟨empties, keyed, tpm, hslots, -⟩ := hkeyed
  rw [Volume.unlockedBy_none]
  exact ⟨(keyed, .passphrase passphrase), by simp [hslots], by simp [Key.unlocks]⟩

/-- The TPM unlocks the volume. -/
theorem tpm_unlocks (hkeyed : Keyed passphrase left v) :
    v.unlockedBy .tpm none = true := by
  obtain ⟨empties, keyed, tpm, hslots, -⟩ := hkeyed
  rw [Volume.unlockedBy_none]
  exact ⟨(tpm, .tpm true []), by simp [hslots], rfl⟩

/-- A volume so keyed is opened once its record is on the medium. -/
theorem opened {w : World} (hkeyed : Keyed passphrase left v)
    (hrecorded : Recorded w.flushed v.uuid passphrase) : Opened w v :=
  .inr ⟨hkeyed.tpm_unlocks, passphrase, hkeyed.passphrase_unlocks, hrecorded⟩

/-- A keyslot of the empty passphrase is one of those it comes with. -/
theorem mem_empties {empties : List (Nat × Unlock)} {keyed tpm : Nat}
    {slot : Nat × Unlock} (hpassphrase : passphrase ≠ "")
    (hmem : slot ∈ empties ++ [(keyed, .passphrase passphrase), (tpm, .tpm true [])])
    (hempty : slot.2 = .empty) : slot ∈ empties := by
  simp only [List.mem_append, List.mem_cons, List.not_mem_nil, or_false] at hmem
  rcases hmem with hmem | rfl | rfl
  · exact hmem
  · exact absurd (Unlock.passphrase.inj hempty) hpassphrase
  · cases hempty

/-- Past a keyslot the empty passphrase does not unlock, those it does have other
numbers. -/
theorem skip {id : Nat} (hkeyed : Keyed passphrase left v)
    (hnot : v.unlockedBy .empty (some id) = false)
    (hleft : ∀ n, left n → n ≠ id → left' n) : Keyed passphrase left' v := by
  obtain ⟨empties, keyed, tpm, hslots, hempties⟩ := hkeyed
  refine ⟨empties, keyed, tpm, hslots, ?_⟩
  intro slot hslot
  obtain ⟨hempty, hnumber⟩ := hempties slot hslot
  refine ⟨hempty, hleft _ hnumber ?_⟩
  intro hid
  have hunlocked : v.unlockedBy .empty (some id) = true := by
    rw [Volume.unlockedBy_some]
    exact ⟨slot, by simp [hslots, hslot], hid, Volume.unlocks_empty.mpr hempty⟩
  rw [hunlocked] at hnot
  cases hnot

/-- A keyslot the empty passphrase unlocks is removed, and the others stay. -/
theorem remove {id : Nat} (hpassphrase : passphrase ≠ "") (hkeyed : Keyed passphrase left v)
    (hunlocked : v.unlockedBy .empty (some id) = true)
    (hleft : ∀ n, left n → n ≠ id → left' n) : Keyed passphrase left' (v.remove id) := by
  obtain ⟨empties, keyed, tpm, hslots, hempties⟩ := hkeyed
  rw [Volume.unlockedBy_some] at hunlocked
  obtain ⟨slot, hslot, rfl, hempty⟩ := hunlocked
  rw [Volume.unlocks_empty] at hempty
  -- the keyslots that stay have other numbers, being other keyslots
  have hother : ∀ other ∈ v.slots, other.2 ≠ .empty → other.1 ≠ slot.1 := by
    intro other hmem hnonempty hid
    rw [Volume.eq_of_id hmem hslot hid] at hnonempty
    exact hnonempty hempty
  have hkeyed : keyed ≠ slot.1 := by
    apply hother (keyed, .passphrase passphrase) (by simp [hslots])
    intro hsame
    exact hpassphrase (Unlock.passphrase.inj hsame)
  have htpm : tpm ≠ slot.1 := hother (tpm, .tpm true []) (by simp [hslots]) nofun
  refine ⟨empties.filter fun kept => kept.1 != slot.1, keyed, tpm, ?_, ?_⟩
  · simp [Volume.remove, hslots, hkeyed, htpm]
  · intro kept hkept
    obtain ⟨hmem, hid⟩ := List.mem_filter.mp hkept
    obtain ⟨hkeptempty, hnumber⟩ := hempties kept hmem
    exact ⟨hkeptempty, hleft _ hnumber (by simpa using hid)⟩

end Keyed

/-- The keyslots the empty passphrase does not unlock have numbers of some kind. -/
def Others (left : Nat → Prop) (v : Volume) : Prop :=
  ∀ slot ∈ v.slots, slot.2 = .empty ∨ left slot.1

section Keys

variable {start : World} {image : Header} {randomUuid : Field} {left left' : Nat → Prop}
  {v : Volume}

/-- A volume of its own has its keyslots changed alone. -/
theorem Own.keyslots {v' : Volume} (hown : Own image randomUuid v)
    (huuid : v'.uuid = v.uuid) (hdigest : v'.digest = v.digest)
    (hreencrypting : v'.reencrypting = v.reencrypting) : Own image randomUuid v' := by
  refine ⟨hreencrypting.trans hown.whole, ?_, ?_⟩
  · rw [hdigest]
    exact hown.digest
  · rw [huuid]
    exact hown.uuid

/-- Past a keyslot the empty passphrase unlocks, the others have other numbers. -/
theorem Others.skip {id : Nat} (hothers : Others left v)
    (hunlocked : v.unlockedBy .empty (some id) = true)
    (hleft : ∀ n, left n → n ≠ id → left' n) : Others left' v := by
  rw [Volume.unlockedBy_some] at hunlocked
  obtain ⟨empty, hempty, rfl, hunlocks⟩ := hunlocked
  intro slot hslot
  rcases hothers slot hslot with hslotempty | hnumber
  · exact .inl hslotempty
  · by_cases hid : slot.1 = empty.1
    · left
      rw [Volume.eq_of_id hslot hempty hid]
      exact Volume.unlocks_empty.mp hunlocks
    · exact .inr (hleft _ hnumber hid)

/-- Once a keyslot is removed, the others have other numbers. -/
theorem Others.remove {id : Nat} (hothers : Others left v)
    (hleft : ∀ n, left n → n ≠ id → left' n) : Others left' (v.remove id) := by
  intro slot hslot
  obtain ⟨hmem, hid⟩ := List.mem_filter.mp hslot
  exact (hothers slot hmem).imp_right fun hnumber => hleft _ hnumber (by simpa using hid)

/-- Removing a keyslot the empty passphrase does not unlock, it unlocks the others. -/
theorem EmptyOpens.remove {id : Nat} (hempty : EmptyOpens v)
    (hnot : v.unlockedBy .empty (some id) = false) : EmptyOpens (v.remove id) := by
  have hopens := Volume.unlockedBy_none.mp hempty
  obtain ⟨slot, hslot, hunlocks⟩ := hopens
  refine Volume.unlockedBy_none.mpr ⟨slot, List.mem_filter.mpr ⟨hslot, ?_⟩, hunlocks⟩
  rw [bne_iff_ne]
  intro hid
  have hunlocked := Volume.unlockedBy_some.mpr ⟨slot, hslot, hid, hunlocks⟩
  rw [hunlocked] at hnot
  cases hnot

/-- Adding a keyslot, the empty passphrase still opens the volume. -/
theorem EmptyOpens.add {id : Nat} {unlock : Unlock} {hfresh : id ∉ v.slots.map Prod.fst}
    (hempty : EmptyOpens v) : EmptyOpens (v.add id unlock hfresh) := by
  obtain ⟨slot, hslot, hunlocks⟩ := Volume.unlockedBy_none.mp hempty
  exact Volume.unlockedBy_none.mpr ⟨slot, List.mem_append_left _ hslot, hunlocks⟩

end Keys

section AddKeys

variable {start : World} {header image : Header} {given : Tools.Given}

/-- A keyslot is of a list by its number. -/
def numbered (slots : List Slot) (id : Nat) : Prop :=
  ∃ slot ∈ slots, slot.id = id

/-- Past the first of a list, another number is of the rest. -/
theorem numbered_rest {slot : Slot} {rest : List Slot} :
    ∀ n, numbered (slot :: rest) n → n ≠ slot.id → numbered rest n := by
  rintro n ⟨other, hother, rfl⟩ hid
  rcases List.mem_cons.mp hother with rfl | hrest
  · exact absurd rfl hid
  · exact ⟨other, hrest, rfl⟩

/-- A volume's keyslots have the numbers its header lists. -/
theorem numbered_header {v : Volume} {slot : Nat × Unlock} (hslot : slot ∈ v.slots) :
    numbered v.header.slots slot.1 :=
  ⟨_, List.mem_map.mpr ⟨slot, hslot, rfl⟩, rfl⟩

/-- Where a volume stands while the keyslots of others are removed. -/
def Clearing (image : Header) (randomUuid : Field) (left : List Slot) (v : Volume) : Prop :=
  EmptyOpens v ∧ Own image randomUuid v ∧ Others (numbered left) v

/-- The keyslots of others are removed. -/
theorem keeps_removeOthers (slots : List Slot) :
    Keeps (Stage start Opened) (Stage start fun _ => Clearing image given.randomUuid slots)
      (slots.forM Tools.removeOther)
      fun _ => Stage start fun _ => Clearing image given.randomUuid [] := by
  refine Keeps.forM (E := effects) (f := Tools.removeOther)
    (fun left => Stage start fun _ => Clearing image given.randomUuid left) ?_ ?_ slots
  · intro w hstage
    exact hstage.mono fun v hv => hv.1.opened
  · intro slot rest
    refine .bind _ (keeps_unlocks .empty (some slot.id) fun w v hv => hv.1.opened)
      fun empty => ?_
    cases empty with
    | true =>
        refine .pure fun w hstage => ⟨hstage.mono fun v hv => hv.1.1.opened, ?_⟩
        refine hstage.mono ?_
        rintro v ⟨⟨hempty, hown, hothers⟩, hunlocked⟩
        exact ⟨hempty, hown, hothers.skip hunlocked numbered_rest⟩
    | false =>
        refine keeps_change (R := fun _ => Clearing image given.randomUuid rest)
          (fun w v hv => hv.1.1.opened) (fun w v hv => hv.1.opened) ?_ not_partly
        rintro w v answer w' - hvolume ⟨⟨hempty, hown, hothers⟩, hnot⟩ ⟨v', hvolume', -, rfl⟩
        cases hvolume.symm.trans hvolume'
        exact ⟨_, rfl, hempty.remove hnot, hown.keyslots rfl rfl rfl,
          hothers.remove numbered_rest⟩

/-- Where a volume stands once it has its keyslots and the empty passphrase's. -/
def Doubled (image : Header) (randomUuid : Field) (passphrase : String) (v : Volume) :
    Prop :=
  EmptyOpens v ∧ Own image randomUuid v ∧ Keyed passphrase (fun _ => True) v

/-- The volume is given its keyslots. -/
theorem keeps_addKeys :
    Keeps (Stage start Opened)
      (Stage start fun _ v => (EmptyOpens v ∧ Own image given.randomUuid v) ∧
        v.header = header)
      (Tools.addKeys given header)
      fun _ => Stage start fun _ => Doubled image given.randomUuid given.passphrase := by
  refine .bind (fun _ => Stage start fun _ => Clearing image given.randomUuid [])
    ((keeps_removeOthers header.slots).strengthen ?_) fun _ => ?_
  · intro w hstage
    refine hstage.mono ?_
    rintro v ⟨⟨hempty, hown⟩, rfl⟩
    exact ⟨hempty, hown, fun slot hslot => .inr (numbered_header hslot)⟩
  · -- the empty passphrase's keyslots are all there are, and then the recovery one
    refine .bind _ (keeps_change (R := fun _ v => EmptyOpens v ∧
      Own image given.randomUuid v ∧ ∃ empties keyed,
        v.slots = empties ++ [(keyed, .passphrase given.passphrase)] ∧
          ∀ slot ∈ empties, slot.2 = .empty) (fun w v hv => hv.1.opened)
      (fun w v hv => hv.1.opened) ?_ not_partly) fun _ => ?_
    · rintro w v answer w' - hvolume ⟨hempty, hown, hothers⟩ ⟨v', id, hfresh, hvolume', -, rfl⟩
      cases hvolume.symm.trans hvolume'
      refine ⟨_, rfl, hempty.add, hown.keyslots rfl rfl rfl, v.slots, id, rfl, ?_⟩
      intro slot hslot
      rcases hothers slot hslot with hslotempty | ⟨other, hother, -⟩
      · exact hslotempty
      · cases hother
    · refine keeps_change (R := fun _ => Doubled image given.randomUuid given.passphrase)
        (fun w v hv => hv.1.opened) (fun w v hv => hv.1.opened) ?_ not_partly
      rintro w v answer w' - hvolume ⟨hempty, hown, empties, keyed, hslots, hempties⟩
        ⟨v', id, hfresh, hvolume', -, rfl⟩
      cases hvolume.symm.trans hvolume'
      refine ⟨_, rfl, hempty.add, hown.keyslots rfl rfl rfl, empties, keyed, id, ?_, ?_⟩
      · simp [Volume.add, hslots]
      · exact fun slot hslot => ⟨hempties slot hslot, trivial⟩

end AddKeys

/-! ## The record -/

section Save

variable {start : World} {Q : Volume → Prop} {record : Record}

/-- Saving the record, its line is on the medium. -/
theorem keeps_save (hQ : ∀ v, Q v → EmptyOpens v) :
    Keeps (Stage start Opened) (Stage start fun _ => Q) record.save
      fun _ => Stage start fun w v => Q v ∧
        Recorded w.flushed record.disk record.passphrase.text := by
  refine .bind _ (keeps_perform (fun w v hv => (hQ v hv).opened) rfl) fun _ => ?_
  refine .bind _ (keeps_read (fun w v hv => (hQ v hv).opened) rfl) fun length => ?_
  have hlast : Keeps (Stage start Opened)
      (Stage start fun w v => Q v ∧ Operation.seekEnd.succeeds w length w)
      (Record.last length)
      fun last => Stage start fun w v => Q v ∧ w.records.getLast? = last := by
    unfold Record.last
    split
    · refine .bind _ (keeps_read (fun w v hv => (hQ v hv.1).opened) rfl) fun byte => ?_
      refine .pure fun w hstage => ⟨hstage.mono fun v hv => (hQ v hv.1.1).opened, ?_⟩
      refine hstage.mono ?_
      rintro v ⟨⟨hv, hlength, -⟩, hbyte, -⟩
      refine ⟨hv, ?_⟩
      rw [List.getLast?_eq_getElem?, ← hlength]
      exact hbyte
    · rename_i hnone
      refine .pure fun w hstage => ⟨hstage.mono fun v hv => (hQ v hv.1).opened, ?_⟩
      refine hstage.mono ?_
      rintro v ⟨hv, hlength, -⟩
      refine ⟨hv, ?_⟩
      rw [List.getLast?_eq_none_iff, ← List.length_eq_zero_iff, ← hlength]
      exact Nat.eq_zero_of_not_pos hnone
  refine .bind _ hlast fun last => ?_
  refine .bind _ (keeps_change (R := fun w v => Q v ∧
    Recorded w.records record.disk record.passphrase.text)
    (fun w v hv => (hQ v hv.1).opened) (fun w v hv => (hQ v hv.1).opened) ?_ ?_) fun _ => ?_
  · rintro w v answer w' - hvolume ⟨hv, hend⟩ hwritten
    cases (show w' = _ from hwritten)
    refine ⟨v, hvolume, hv, ?_⟩
    have happended := recorded_append w.records record
    rw [hend] at happended
    simpa [World.records] using happended
  · rintro w v w' hvolume ⟨hv, -⟩ ⟨written, -, rfl⟩
    exact ⟨v, hvolume, (hQ v hv).opened⟩
  · refine keeps_change (fun w v hv => (hQ v hv.1).opened) (fun w v hv => (hQ v hv.1).opened)
      ?_ ?_
    · rintro w v answer w' - hvolume ⟨hv, hrecorded⟩ hsynced
      cases (show w' = _ from hsynced)
      exact ⟨v, hvolume, hv, hrecorded⟩
    · rintro w v w' hvolume ⟨hv, -⟩ ⟨synced, rest, -, rfl⟩
      exact ⟨v, hvolume, (hQ v hv).opened⟩

end Save

/-! ## Taking the empty passphrase off -/

/-- What the step leaves of the volume: a key and a UUID of its own, and two keyslots, its
passphrase's on a complete line of the records file and the TPM's. -/
structure Replaced (image : Header) (randomUuid : Field) (record : Record)
    (left : List Slot) (w : World) (v : Volume) : Prop where
  own : Own image randomUuid v
  keyed : Keyed record.passphrase.text (numbered left) v
  disk : record.disk = v.uuid
  recorded : Recorded w.flushed record.disk record.passphrase.text

/-- A volume on its way to what the step leaves is opened. -/
theorem Replaced.opened {image : Header} {randomUuid : Field} {record : Record}
    {left : List Slot} {w : World} {v : Volume}
    (hreplaced : Replaced image randomUuid record left w v) : Opened w v := by
  have hrecorded := hreplaced.recorded
  rw [hreplaced.disk] at hrecorded
  exact hreplaced.keyed.opened hrecorded

section RemoveEmpties

variable {start : World} {header image : Header} {given : Tools.Given} {record : Record}

/-- The keyslots of the empty passphrase are removed. -/
theorem keeps_removeEmpty (hpassphrase : record.passphrase.text ≠ "") (slots : List Slot) :
    Keeps (Stage start Opened)
      (Stage start (Replaced image given.randomUuid record slots))
      (slots.forM (Tools.removeEmpty record.passphrase.text))
      fun _ => Stage start (Replaced image given.randomUuid record []) := by
  refine Keeps.forM (E := effects) (f := Tools.removeEmpty record.passphrase.text)
    (fun left => Stage start (Replaced image given.randomUuid record left)) ?_ ?_ slots
  · intro w hstage
    exact hstage.mono fun v hv => hv.opened
  · intro slot rest
    refine .bind _ (keeps_unlocks .empty (some slot.id) fun w v hv => hv.opened)
      fun empty => ?_
    cases empty with
    | false =>
        refine .pure fun w hstage => ⟨hstage.mono fun v hv => hv.1.opened, ?_⟩
        refine hstage.mono ?_
        rintro v ⟨⟨hown, hkeyed, hdisk, hrecorded⟩, hnot⟩
        exact ⟨hown, hkeyed.skip hnot numbered_rest, hdisk, hrecorded⟩
    | true =>
        refine keeps_change (R := Replaced image given.randomUuid record rest)
          (fun w v hv => hv.1.opened) (fun w v hv => hv.opened) ?_ not_partly
        rintro w v answer w' - hvolume ⟨⟨hown, hkeyed, hdisk, hrecorded⟩, hunlocked⟩
          ⟨v', hvolume', -, rfl⟩
        cases hvolume.symm.trans hvolume'
        exact ⟨_, rfl, hown.keyslots rfl rfl rfl,
          hkeyed.remove hpassphrase hunlocked numbered_rest, hdisk, hrecorded⟩

/-- Taking the empty passphrase off leaves what the step leaves. -/
theorem keeps_removeEmpties (record : Record) (huuid : record.passphrase.text = given.passphrase) :
    Keeps (Stage start Opened)
      (Stage start fun w v => Doubled image given.randomUuid given.passphrase v ∧
        record.disk = v.uuid ∧ Recorded w.flushed record.disk record.passphrase.text)
      (Tools.removeEmpties given)
      fun _ => Stage start (Replaced image given.randomUuid record []) := by
  have hpassphrase : record.passphrase.text ≠ "" := by
    rw [huuid]
    exact generate_ne_empty given.generated
  refine .bind _ (keeps_header fun w v hv => hv.1.1.opened) fun header => ?_
  have hlisted : Keeps (Stage start Opened)
      (Stage start fun w v => (Doubled image given.randomUuid given.passphrase v ∧
        record.disk = v.uuid ∧ Recorded w.flushed record.disk record.passphrase.text) ∧
        v.header = header)
      (header.slots.forM (Tools.removeEmpty given.passphrase))
      fun _ => Stage start (Replaced image given.randomUuid record []) := by
    rw [← huuid]
    refine (keeps_removeEmpty hpassphrase header.slots).weaken ?_ fun _ _ => id
    intro w hstage
    refine hstage.mono ?_
    rintro v ⟨⟨⟨-, hown, empties, keyed, tpm, hslots, hempties⟩, hdisk, hrecorded⟩, rfl⟩
    refine ⟨hown, ⟨empties, keyed, tpm, hslots, ?_⟩, hdisk, hrecorded⟩
    intro slot hslot
    exact ⟨(hempties slot hslot).1, numbered_header (by simp [hslots, hslot])⟩
  refine .bind _ hlisted fun _ => ?_
  refine .bind _ (Stage.only (keeps_unlocks _ none fun w v hv => hv.opened)) fun empty => ?_
  cases empty with
  | true => exact .fail fun w hstage => hstage.mono fun v hv => hv.opened
  | false =>
      refine .bind _ (Stage.only (keeps_unlocks _ none fun w v hv => hv.opened)) fun tpm => ?_
      cases tpm with
      | false => exact .fail fun w hstage => hstage.mono fun v hv => hv.opened
      | true => exact .pure fun w hstage => ⟨hstage.mono fun v hv => hv.opened, hstage⟩

/-- Setting up the volume leaves what the step leaves. -/
theorem keeps_setUp :
    Keeps (Stage start Opened) (Stage start fun _ v => EmptyOpens v ∧ v.header = header)
      (Tools.setUp given header)
      fun record => Stage start fun w v => record.passphrase.text ≠ "" ∧
        ∃ image, start.payload = some image ∧
          Replaced image given.randomUuid record [] w v := by
  refine .bind _ (keeps_preflight fun w v hv => hv.1.opened) fun _ => ?_
  refine .bind _ (keeps_payloadVolume fun w v hv => hv.1.opened) fun image => ?_
  by_cases hpayload : start.payload = some image
  · refine .bind _ (keeps_rotate.strengthen fun w hstage => hstage.mono fun v => And.left)
      fun rotated => ?_
    refine .bind _ keeps_addKeys fun _ => ?_
    refine .bind _ (keeps_makeSystemUnlockFromTpm fun w v hv => hv.1.opened) fun _ => ?_
    refine .bind _ (keeps_checkKeys _ fun w v hv => hv.1.opened) fun _ => ?_
    refine .bind _ (keeps_header fun w v hv => hv.1.opened) fun after => ?_
    refine .bind _ (Keeps.mapFail (keeps_save fun v hv => hv.1.1)) fun _ => ?_
    refine .bind
      (fun _ => Stage start (Replaced image given.randomUuid (given.record after.uuid) []))
      ((keeps_removeEmpties (given.record after.uuid) rfl).strengthen ?_) fun _ => ?_
    · intro w hstage
      refine hstage.mono ?_
      rintro v ⟨⟨hdoubled, rfl⟩, hrecorded⟩
      exact ⟨hdoubled, rfl, hrecorded⟩
    · refine .pure fun w hstage => ⟨hstage.mono fun v hv => hv.opened, ?_⟩
      exact hstage.mono fun v hv => ⟨generate_ne_empty given.generated, image, hpayload, hv⟩
  · -- the header read is the payload's
    intro w hstage
    exact absurd hstage.2.choose_spec.2.2 hpayload

end RemoveEmpties

/-! ## Carrying out the step -/

/-- A volume with two keyslots, a recorded passphrase's and the TPM's bound to no PCR, and
a key and a UUID of its own. -/
structure SetUp (start : World) (randomUuid : Field) (record : Record) (w : World)
    (v : Volume) : Prop where
  slots : ∃ keyed tpm,
    v.slots = [(keyed, .passphrase record.passphrase.text), (tpm, .tpm true [])]
  empty : v.unlockedBy .empty none = false
  disk : record.disk = v.uuid
  recorded : Recorded w.flushed v.uuid record.passphrase.text
  whole : v.reencrypting = false
  image : ∃ image, start.payload = some image ∧ v.digest ≠ image.digest ∧
    (randomUuid ≠ image.uuid → v.uuid ≠ image.uuid)
  only : ∃ disk, start.disks = [disk]

/-- With no keyslot of the empty passphrase left, the volume is set up. -/
theorem Replaced.setUp {start w : World} {image : Header} {randomUuid : Field}
    {record : Record} {v : Volume} {disk : String}
    (hreplaced : Replaced image randomUuid record [] w v)
    (hpassphrase : record.passphrase.text ≠ "") (hpayload : start.payload = some image)
    (hdisks : start.disks = [disk]) : SetUp start randomUuid record w v := by
  obtain ⟨hown, ⟨empties, keyed, tpm, hslots, hempties⟩, hdisk, hrecorded⟩ := hreplaced
  have hnone : empties = [] := by
    rw [List.eq_nil_iff_forall_not_mem]
    intro slot hslot
    obtain ⟨-, other, hother, -⟩ := hempties slot hslot
    cases hother
  rw [hnone, List.nil_append] at hslots
  refine ⟨⟨keyed, tpm, hslots⟩, ?_, hdisk, ?_, hown.whole,
    ⟨image, hpayload, hown.digest, hown.uuid⟩, disk, hdisks⟩
  · rw [← Bool.not_eq_true, Volume.unlockedBy_none]
    rintro ⟨slot, hslot, hunlocks⟩
    rw [hslots, ← List.nil_append [_, _]] at hslot
    exact absurd (Keyed.mem_empties hpassphrase hslot (Volume.unlocks_empty.mp hunlocks))
      List.not_mem_nil
  · rw [← hdisk]
    exact hrecorded

/-- The step keeps the volume opened wherever it is cut, and leaves it set up where it
gives a record. -/
theorem keeps_carryOut (start : World) (given : Tools.Given) :
    Keeps (Stage start Opened) (Stage start Opened) (Tools.carryOut given)
      fun out => Stage start fun w v => Opened w v ∧ ∀ record, out = some record →
        SetUp start given.randomUuid record w v := by
  refine .bind _ (keeps_singleDisk fun w v hv => hv) fun disk => ?_
  refine .bind _ (keeps_read (fun w v hv => hv.1) rfl) fun answer => ?_
  cases answer with
  | none => exact .fail fun w hstage => hstage.mono fun v hv => hv.1.1
  | some header =>
      refine .bind _ (keeps_unlocks .empty none fun w v hv => hv.1.1) fun empty => ?_
      cases empty with
      | false =>
          refine .bind _ (keeps_lacks fun w v hv => hv.1.1.1) fun lacking => ?_
          by_cases hlacking : lacking.isEmpty = true
          · simp only [hlacking, if_true]
            refine .pure fun w hstage => ⟨hstage.mono fun v hv => hv.1.1.1, ?_⟩
            exact hstage.mono fun v hv => ⟨hv.1.1.1, nofun⟩
          · simp only [hlacking]
            exact .fail fun w hstage => hstage.mono fun v hv => hv.1.1.1
      | true =>
          by_cases hdisks : start.disks = [disk]
          · refine .bind _ (keeps_setUp.strengthen ?_) fun record => ?_
            · intro w hstage
              obtain ⟨hsince, v, hvolume, ⟨-, hheader, -⟩, hempty⟩ := hstage
              rw [hvolume] at hheader
              exact ⟨hsince, v, hvolume, hempty, (Option.some.inj hheader).symm⟩
            · refine .pure fun w hstage => ⟨hstage.mono ?_, hstage.mono ?_⟩
              · rintro v ⟨-, image, -, hreplaced⟩
                exact hreplaced.opened
              · rintro v ⟨hpassphrase, image, hpayload, hreplaced⟩
                refine ⟨hreplaced.opened, ?_⟩
                intro record' hrecord
                cases hrecord
                exact hreplaced.setUp hpassphrase hpayload hdisks
          · intro w hstage
            exact absurd hstage.2.choose_spec.2.1.1.2 hdisks

/-- What a volume that is set up lacks, where no operation fails, is nothing. -/
theorem SetUp.lacks {start w : World} {randomUuid : Field} {record : Record} {v : Volume}
    (hsetUp : SetUp start randomUuid record w v) (hsince : Since start w)
    (hvolume : w.volume = some v) : Tools.lacks.run reliably w = (.ok [], w) := by
  obtain ⟨disk, hdisk⟩ := hsetUp.only
  obtain ⟨image, hpayload, hdigest, -⟩ := hsetUp.image
  obtain ⟨keyed, tpm, hslots⟩ := hsetUp.slots
  have htpm : v.unlockedBy .tpm none = true := by
    rw [Volume.unlockedBy_none]
    exact ⟨(tpm, .tpm true []), by simp [hslots], rfl⟩
  have hsingle : w.disks = [disk] := hsince.disks.trans hdisk
  have himage : w.payload = some image := hsince.payload.trans hpayload
  have hwhole : v.header.reencrypting = false := hsetUp.whole
  have hheader : v.header.digest ≠ image.digest := hdigest
  have hempty : (Tools.unlocks .empty none).run reliably w = (.ok false, w) := by
    simp [Tools.unlocks, attempt, Program.attempt, Program.run, reliably, hvolume,
      hsetUp.empty]
  have hours : Tools.tpmUnlocks.run reliably w = (.ok true, w) := by
    simp [Tools.tpmUnlocks, attemptOr, Program.attemptOr, Program.run, reliably, hvolume,
      htpm]
  have hread : Tools.payloadVolume.run reliably w = (.ok image, w) := by
    simp [Tools.payloadVolume, Bind.bind, Program.bind, attempt, Program.attempt, Program.run,
      reliably, himage, Pure.pure]
  simp [Tools.lacks, singleDisk, reliably, hsingle, hvolume, hempty, hours, hread, hwhole,
    hheader]

/-! ## Every run -/

/-- What happens to the disk and the medium: the step is carried out, whole or cut
between two operations, or power is lost. -/
inductive Happening where
  | carriedOut (given : Tools.Given)
  | powerLost (left : List Char)

/-- The disk and the medium, from any volume the empty passphrase opens. -/
def encrypting : Transition.System World Happening where
  init w := ∃ v, w.volume = some v ∧ EmptyOpens v
  step w happening w' :=
    match happening with
    | .carriedOut given => ∃ out, Reaches (E := effects) w (Tools.carryOut given) w' out
    | .powerLost left => w' = w.crashed left

/-- Whatever happens to an opened volume, it stays opened, and the records saved stay. -/
theorem stage_step {w w' : World} {happening : Happening}
    (hstep : encrypting.step w happening w') (hstage : Stage w Opened w) :
    Stage w Opened w' := by
  cases happening with
  | carriedOut given =>
      obtain ⟨out, hreach⟩ := hstep
      exact (keeps_carryOut w given w hstage w' out hreach).1
  | powerLost left =>
      cases hstep
      obtain ⟨-, v, hvolume, hv⟩ := hstage
      have hlonger : w.flushed <+: (w.crashed left).flushed := List.prefix_append _ _
      refine ⟨⟨rfl, rfl, hlonger⟩, v, hvolume, hv.imp_right ?_⟩
      rintro ⟨htpm, passphrase, hunlocks, hrecorded⟩
      exact ⟨htpm, passphrase, hunlocks, hrecorded.mono hlonger⟩

/-- In every state a run leads to, the volume is opened. -/
theorem opened_of_reachable {w : World} (hreach : encrypting.Reachable w) :
    ∃ v, w.volume = some v ∧ Opened w v := by
  refine hreach.invariant (?_ : ∀ w, encrypting.init w → ∃ v, w.volume = some v ∧ Opened w v) ?_
  · rintro w ⟨v, hvolume, hempty⟩
    exact ⟨v, hvolume, hempty.opened⟩
  · intro w happening w' _ hopened hstep
    exact (stage_step hstep ⟨Since.refl w, hopened⟩).2

/-- In every state a run leads on to, the records saved are still saved. -/
theorem since_of_reachable {w w' : World} (hopened : ∃ v, w.volume = some v ∧ Opened w v)
    (hreach : (encrypting.since w).Reachable w') : Stage w Opened w' := by
  refine hreach.invariant (?_ : ∀ w', w' = w → Stage w Opened w') ?_
  · rintro w' rfl
    exact ⟨Since.refl w', hopened⟩
  · intro w₁ happening w₂ _ hstage hstep
    have hnext := stage_step hstep ⟨Since.refl w₁, hstage.2⟩
    exact ⟨hstage.1.trans hnext.1, hnext.2⟩

/-- An operation that changes the volume leaves what is on the medium of the records. -/
theorem flushed_of_volume {o : Operation} {w w' : World} {result : Except String o.Answer}
    (houtcome : o.outcome w result w') : w'.volume = w.volume ∨ w'.flushed = w.flushed := by
  have hsucceeds : ∀ answer, o.succeeds w answer w' →
      w'.volume = w.volume ∨ w'.flushed = w.flushed := by
    intro answer hok
    by_cases hreads : o.reads = true
    · exact .inl (by rw [eq_of_reads hreads hok])
    · cases o with
      | reencrypt =>
          obtain ⟨v, digest, -, -, rfl⟩ := hok
          exact .inr rfl
      | setUuid uuid =>
          obtain ⟨v, -, rfl⟩ := hok
          exact .inr rfl
      | addPassphrase passphrase =>
          obtain ⟨v, id, hfresh, -, -, rfl⟩ := hok
          exact .inr rfl
      | enrolTpm passphrase =>
          obtain ⟨v, id, hfresh, -, -, rfl⟩ := hok
          exact .inr rfl
      | remove slot key =>
          obtain ⟨v, -, -, rfl⟩ := hok
          exact .inr rfl
      | writeAll text =>
          cases (show w' = _ from hok)
          exact .inl rfl
      | syncAll =>
          cases (show w' = _ from hok)
          exact .inl rfl
      | _ => exact absurd rfl hreads
  cases result with
  | ok answer => exact hsucceeds answer houtcome
  | error reason =>
      rcases houtcome with rfl | ⟨answer, hok⟩ | hpartly
      · exact .inl rfl
      · exact hsucceeds answer hok
      · cases o with
        | reencrypt =>
            obtain ⟨v, -, rfl⟩ := hpartly
            exact .inr rfl
        | writeAll text =>
            obtain ⟨written, -, rfl⟩ := hpartly
            exact .inl rfl
        | syncAll =>
            obtain ⟨synced, rest, -, rfl⟩ := hpartly
            exact .inl rfl
        | _ => exact hpartly.elim

/-- From any volume the empty passphrase opens, however often the step is carried out,
cut short wherever it may be and power lost in between: the volume is opened by the empty
passphrase, or by the TPM and by the passphrase on a complete line of the records file;
the operation after which the empty passphrase no longer opens it comes after that line
was saved; what is saved of the file stays; and whenever the step gives a record, the
volume has the recorded passphrase's keyslot and the TPM's bound to no PCR, nothing for
the empty passphrase, a key and, where the UUID drawn is not the payload's, a UUID other
than the payload's, and lacks nothing. -/
theorem setting_up_keeps_the_volume_opened {w : World}
    (hreach : encrypting.Reachable w) :
    (∃ v, w.volume = some v ∧ Opened w v) ∧
    (∀ o result w' v v', Operation.outcome o w result w' → encrypting.Reachable w' →
      w.volume = some v → w'.volume = some v' → EmptyOpens v → ¬ EmptyOpens v' →
        ∃ passphrase, v'.unlockedBy (.passphrase passphrase) none = true ∧
          Recorded w.flushed v'.uuid passphrase) ∧
    (∀ w', (encrypting.since w).Reachable w' → w.flushed <+: w'.flushed) ∧
    ∀ given record w', Reaches (E := effects) w (Tools.carryOut given) w'
        (some (.ok (some record))) →
      ∃ v image keyed tpm, w'.volume = some v ∧ w'.payload = some image ∧
        v.slots = [(keyed, .passphrase record.passphrase.text), (tpm, .tpm true [])] ∧
        v.unlockedBy .empty none = false ∧
        v.digest ≠ image.digest ∧
        (given.randomUuid ≠ image.uuid → v.uuid ≠ image.uuid) ∧
        record.disk = v.uuid ∧
        Recorded w'.flushed v.uuid record.passphrase.text ∧
        Tools.lacks.run reliably w' = (.ok [], w') := by
  have hopened := opened_of_reachable hreach
  refine ⟨hopened, ?_, ?_, ?_⟩
  · intro o result w' v v' houtcome hreach' hvolume hvolume' hempty hnot
    obtain ⟨v₁, hvolume₁, hopened'⟩ := opened_of_reachable hreach'
    cases hvolume'.symm.trans hvolume₁
    rcases hopened' with hempty' | ⟨-, passphrase, hunlocks, hrecorded⟩
    · exact absurd hempty' hnot
    · refine ⟨passphrase, hunlocks, ?_⟩
      rcases flushed_of_volume houtcome with hsame | hsame
      · rw [hvolume, hvolume'] at hsame
        cases hsame
        exact absurd hempty hnot
      · rw [← hsame]
        exact hrecorded
  · intro w' hlater
    exact (since_of_reachable hopened hlater).1.flushed
  · intro given record w' hreaches
    have hkeeps := keeps_carryOut w given w ⟨Since.refl w, hopened⟩ w' _ hreaches
    obtain ⟨hsince, v, hvolume, -, hsetUp⟩ := hkeeps.2 _ rfl
    have hdone := hsetUp record rfl
    obtain ⟨image, hpayload, hdigest, huuid⟩ := hdone.image
    obtain ⟨keyed, tpm, hslots⟩ := hdone.slots
    exact ⟨v, image, keyed, tpm, hvolume, hsince.payload.trans hpayload, hslots, hdone.empty,
      hdigest, huuid, hdone.disk, hdone.recorded, hdone.lacks hsince hvolume⟩

/-- The volume of the image as it ships. -/
def shippedVolume : Volume where
  uuid := .checked "image-uuid" (by decide)
  digest := "image-key"
  slots := [(0, .empty)]
  reencrypting := false
  distinct := by decide

/-- A disk as the image ships it, and a records file that does not end in a line feed. -/
def shipped : World where
  disks := ["/dev/nvme0n1"]
  volume := some shippedVolume
  payload := some shippedVolume.header
  flushed := "ZZZZ".toList
  unflushed := []

/-- What the step is given and draws for it. -/
def shippedGiven : Tools.Given where
  suffix := .checked "K7QA" (by decide)
  version := some (.checked "4.0" (by decide))
  words := ["apple", "Bread", "ace", "chair", "delta", "eagle", "fable"]
  passphrase := "apple-bread-chair-delta-eagle-fable"
  generated := by decide
  randomUuid := .checked "own-uuid" (by decide)
  now := .checked "2026-10-31T01:02:03Z" (by decide)

/-- A disk as the image ships it is set up. -/
theorem setting_up_shipped :
    ∃ record w' v keyed tpm, Reaches (E := effects) shipped (Tools.carryOut shippedGiven) w'
        (some (.ok (some record))) ∧
      w'.volume = some v ∧
      v.slots = [(keyed, .passphrase record.passphrase.text), (tpm, .tpm true [])] ∧
      v.uuid ≠ shippedVolume.uuid := by
  have hruns : ((Tools.carryOut shippedGiven).run reliably shipped).1 =
      .ok (some (shippedGiven.record shippedGiven.randomUuid)) := by
    rfl
  have hreaches := reaches_run (E := effects) outcome_reliably
    (Tools.carryOut shippedGiven) shipped
  rw [hruns] at hreaches
  have hempty : shippedVolume.unlockedBy .empty none = true := by decide
  obtain ⟨v, image, keyed, tpm, hvolume, hpayload, hslots, -, -, huuid, -⟩ :=
    (setting_up_keeps_the_volume_opened (w := shipped)
      (.start ⟨shippedVolume, rfl, hempty⟩)).2.2.2 _ _ _ hreaches
  have himage : ((Tools.carryOut shippedGiven).run reliably shipped).2.payload =
      some shippedVolume.header := by
    rfl
  rw [himage] at hpayload
  cases hpayload
  exact ⟨_, _, v, keyed, tpm, hreaches, hvolume, hslots, huuid (by decide)⟩

end Bliti.Provision.Encryption
