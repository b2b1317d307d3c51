import Mathlib.Data.List.Nodup
import Mathlib.Data.List.Basic

/-!
# Provisioning - the root volume of a disk

The root volume of a disk, a LUKS2 volume, as the step that encrypts it reaches
it: what its header holds, what unlocks it, and what each operation on it does.
-/

namespace Bliti.Provision

/-- A text on one line with no tab in it, as a field of a line holds it. -/
structure Field where
  text : String
  plain : ∀ c ∈ text.toList, c ≠ '\t' ∧ c ≠ '\n'
deriving DecidableEq

/-- A text as a field, where a check finds it plain. -/
def Field.checked (text : String)
    (hplain : (text.toList.all fun c => c != '\t' && c != '\n') = true) : Field where
  text := text
  plain c hc := by
    have hc := List.all_eq_true.mp hplain c hc
    simpa using hc

/-- The characters of a field. -/
def Field.chars (f : Field) : List Char :=
  f.text.toList

/-- A way of unlocking a volume. -/
inductive Key where
  | empty
  | passphrase (passphrase : String)
  | tpm
deriving DecidableEq

/-- A keyslot as a header lists it: its number and, where it is a TPM keyslot, the PCRs
it is bound to. -/
structure Slot where
  id : Nat
  tpm : Option (List Nat)
deriving DecidableEq

/-- What a volume's header holds. -/
structure Header where
  uuid : Field
  digest : String
  slots : List Slot
  reencrypting : Bool
deriving DecidableEq

/-- What unlocks a keyslot: a passphrase, or a TPM, this board's or another's. -/
inductive Unlock where
  | passphrase (passphrase : String)
  | tpm (ours : Bool) (pcrs : List Nat)
deriving DecidableEq

/-- A keyslot the empty passphrase unlocks. -/
def Unlock.empty : Unlock :=
  .passphrase ""

/-- Whether a key unlocks a keyslot. -/
def Key.unlocks : Key → Unlock → Bool
  | .empty, .passphrase held => held == ""
  | .passphrase given, .passphrase held => given == held
  | .tpm, .tpm ours _ => ours
  | _, _ => false

/-- A volume: its keyslots have distinct numbers. -/
structure Volume where
  uuid : Field
  digest : String
  slots : List (Nat × Unlock)
  reencrypting : Bool
  distinct : (slots.map Prod.fst).Nodup
deriving DecidableEq

namespace Volume

/-- The volume's header. -/
def header (v : Volume) : Header where
  uuid := v.uuid
  digest := v.digest
  slots := v.slots.map fun (id, unlock) =>
    { id := id, tpm := match unlock with | .tpm _ pcrs => some pcrs | .passphrase _ => none }
  reencrypting := v.reencrypting

/-- Whether a key unlocks the volume, through one keyslot where one is given. -/
def unlockedBy (v : Volume) (key : Key) (slot : Option Nat) : Bool :=
  v.slots.any fun (id, unlock) => slot.all (· == id) && key.unlocks unlock

/-- The volume re-encrypted under a new volume key. -/
def reencrypted (v : Volume) (digest : String) : Volume :=
  { v with digest := digest, reencrypting := false }

/-- The volume under a new UUID. -/
def renamed (v : Volume) (uuid : Field) : Volume :=
  { v with uuid := uuid }

/-- The volume with a keyslot added, under a number of its own. -/
def add (v : Volume) (id : Nat) (unlock : Unlock) (hfresh : id ∉ v.slots.map Prod.fst) :
    Volume :=
  { v with
    slots := v.slots ++ [(id, unlock)]
    distinct := by
      rw [List.map_append, List.nodup_append]
      refine ⟨v.distinct, by simp, ?_⟩
      intro a ha b hb hsame
      rw [hsame, List.mem_singleton.mp hb] at ha
      exact hfresh ha }

/-- The volume with a keyslot removed. -/
def remove (v : Volume) (id : Nat) : Volume :=
  { v with
    slots := v.slots.filter fun slot => slot.1 != id
    distinct := (List.filter_sublist.map Prod.fst).nodup v.distinct }

/-- A number no keyslot has. -/
def unused (v : Volume) : Nat :=
  (v.slots.map fun slot => slot.1 + 1).foldr max 0

/-! ## What unlocks a volume -/

/-- A key unlocks a volume where it unlocks one of its keyslots. -/
theorem unlockedBy_none {v : Volume} {key : Key} :
    v.unlockedBy key none = true ↔ ∃ slot ∈ v.slots, key.unlocks slot.2 = true := by
  simp [unlockedBy]

/-- A key unlocks a volume through a keyslot where it unlocks that one. -/
theorem unlockedBy_some {v : Volume} {key : Key} {id : Nat} :
    v.unlockedBy key (some id) = true ↔
      ∃ slot ∈ v.slots, slot.1 = id ∧ key.unlocks slot.2 = true := by
  simp only [unlockedBy, Option.all_some, List.any_eq_true, Bool.and_eq_true, beq_iff_eq]
  constructor
  · rintro ⟨slot, hslot, hid, hunlocks⟩
    exact ⟨slot, hslot, hid.symm, hunlocks⟩
  · rintro ⟨slot, hslot, hid, hunlocks⟩
    exact ⟨slot, hslot, hid.symm, hunlocks⟩

/-- Two keyslots of one number are one. -/
theorem eq_of_id {v : Volume} {one other : Nat × Unlock} (hone : one ∈ v.slots)
    (hother : other ∈ v.slots) (hid : one.1 = other.1) : one = other :=
  List.inj_on_of_nodup_map v.distinct hone hother hid

/-- The empty passphrase unlocks a keyslot held by it only. -/
theorem unlocks_empty {unlock : Unlock} :
    Key.empty.unlocks unlock = true ↔ unlock = .empty := by
  cases unlock with
  | passphrase held => simp [Key.unlocks, Unlock.empty]
  | tpm ours pcrs => simp [Key.unlocks, Unlock.empty]

/-- A number no keyslot has is none of theirs. -/
theorem unused_not_mem (v : Volume) : v.unused ∉ v.slots.map Prod.fst := by
  have hbound : ∀ (slots : List (Nat × Unlock)), ∀ id ∈ slots.map Prod.fst,
      id < (slots.map fun slot => slot.1 + 1).foldr max 0 := by
    intro slots
    induction slots with
    | nil => simp
    | cons slot rest ih =>
        intro id hid
        simp only [List.map_cons, List.foldr_cons]
        rcases List.mem_cons.mp hid with rfl | hrest
        · omega
        · have hlt := ih id hrest
          omega
  intro hmem
  have hlt := hbound v.slots _ hmem
  exact absurd hlt (Nat.lt_irrefl _)

end Volume

end Bliti.Provision
