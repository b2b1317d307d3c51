import Bliti.Network.Apply

/-!
# Applying - one backend's share

What one backend's share of an apply leaves where it is carried through: its
files as they are to be, everything else alone, and its readers told of what
changed.
-/

namespace Bliti.Network.Apply

open Std (ExtTreeMap)
open Interruptible Render

variable {δ : Type}

/-! ## Operations that succeed -/

/-- A call that succeeds does what it does. -/
theorem Step.returns_system {step : Step δ} {call : Call} {w w' : World δ}
    (hreturns : Returns (E := step.Effects) w (step.system call) () w') :
    w' = (w.took step.hardware.paths call).note (.call call) true :=
  returns_attempt (E := step.Effects) (returns_mapFail hreturns)

/-- A file put in place lands. -/
theorem Step.returns_write {step : Step δ} {file : File} {w w' : World δ}
    (hreturns : Returns (E := step.Effects) w (step.write file) () w') :
    w' = (w.write step.hardware.paths file).note (.write file) true := by
  obtain ⟨landed, hlanded, hw'⟩ :=
    returns_attempt (E := step.Effects) (returns_mapFail hreturns)
  rw [hlanded rfl] at hw'
  exact hw'

/-- A file taken away is gone. -/
theorem Step.returns_remove {step : Step δ} {path : Path} {w w' : World δ}
    (hreturns : Returns (E := step.Effects) w (step.remove path) () w') :
    w' = (w.remove step.hardware.paths path).note (.remove path) true := by
  obtain ⟨landed, hlanded, hw'⟩ :=
    returns_attempt (E := step.Effects) (returns_mapFail hreturns)
  rw [hlanded rfl] at hw'
  exact hw'

/-! ## Calls -/

/-- What calls leave: the files and the record as they were, and of the readers,
those told having picked up what changed. -/
structure Told (readers : Reader → Prop) (w w' : World δ) : Prop where
  disk : w'.disk = w.disk
  record : w'.record = w.record
  unread : ∀ reader, reader ∈ w'.unread ↔ reader ∈ w.unread ∧ ¬ readers reader

namespace Told

variable {readers others : Reader → Prop} {w w' w'' : World δ}

/-- Where nothing is called, no reader is told. -/
theorem nobody (w : World δ) : Told (fun _ => False) w w where
  disk := rfl
  record := rfl
  unread := by simp

theorem trans (hone : Told readers w w') (hother : Told others w' w'') :
    Told (fun reader => readers reader ∨ others reader) w w'' where
  disk := hother.disk.trans hone.disk
  record := hother.record.trans hone.record
  unread := by
    intro reader
    rw [hother.unread, hone.unread]
    tauto

theorem congr (htold : Told readers w w') (hsame : ∀ reader, readers reader ↔ others reader) :
    Told others w w' where
  disk := htold.disk
  record := htold.record
  unread := by
    intro reader
    rw [htold.unread, hsame]

end Told

/-- The readers a call tells, in the world it is made in. -/
def Tells (paths : Paths) (w : World δ) : Call → Reader → Prop
  | .setRegulatoryDomain domain, reader => reader = .regdom ∧ w.domain paths = some domain
  | .hostapd _ interface, reader => reader = .hostapd interface
  | .restartIwd, reader => reader = .iwd
  | .reloadNetworkd, reader => reader = .networkd
  | .reloadResolved, reader => reader = .resolved
  | .createAccessPoint _ _, _ | .deleteAccessPoint _, _ | .openFirewall _, _
  | .closeFirewall _, _ => False

/-- A reader that picks up what changed is told. -/
theorem told_pickedUp (w : World δ) (reader : Reader) :
    Told (· = reader) w (w.pickedUp reader) where
  disk := rfl
  record := rfl
  unread := by simp [World.pickedUp]

/-- A call that succeeds tells the readers it tells. -/
theorem Step.told_system {step : Step δ} {call : Call} {w w' : World δ}
    (hreturns : Returns (E := step.Effects) w (step.system call) () w') :
    Told (Tells step.hardware.paths w call) w w' := by
  have hnoted : ∀ {readers : Reader → Prop} {w₁ : World δ} {op : Op δ} {ok : Bool},
      Told readers w w₁ → Told readers w (w₁.note op ok) := by
    intro readers w₁ op ok htold
    exact ⟨htold.disk, htold.record, htold.unread⟩
  rw [step.returns_system hreturns]
  apply hnoted
  cases call with
  | setRegulatoryDomain domain =>
      by_cases hdomain : w.domain step.hardware.paths = some domain
      · simp only [World.took, hdomain, if_true]
        apply (told_pickedUp w .regdom).congr
        simp [Tells, hdomain]
      · simp only [World.took, hdomain, if_false]
        apply (Told.nobody w).congr
        simp [Tells, hdomain]
  | hostapd action interface => exact told_pickedUp w _
  | restartIwd => exact told_pickedUp w _
  | reloadNetworkd => exact told_pickedUp w _
  | reloadResolved => exact told_pickedUp w _
  | createAccessPoint radio interface => exact .nobody w
  | deleteAccessPoint interface => exact .nobody w
  | openFirewall interface => exact .nobody w
  | closeFirewall interface => exact .nobody w

/-- A loop of calls tells every reader one of its passes tells. -/
theorem Step.told_forM {step : Step δ} {α : Type} {f : α → Program step.Effects Unit}
    {readers : α → Reader → Prop}
    (hpass : ∀ a (w w' : World δ), Returns (E := step.Effects) w (f a) () w' →
      Told (readers a) w w')
    (items : List α) {w w' : World δ}
    (hreturns : Returns (E := step.Effects) w (items.forM f) () w') :
    Told (fun reader => ∃ a ∈ items, readers a reader) w w' := by
  induction items generalizing w with
  | nil =>
      rw [returns_nil hreturns]
      apply (Told.nobody w).congr
      simp
  | cons a rest ih =>
      obtain ⟨between, hfirst, hrest⟩ := returns_cons hreturns
      apply ((hpass a _ _ hfirst).trans (ih hrest)).congr
      simp

/-- The reader of a hostapd configuration at a path. -/
def HostapdAt (paths : Paths) (path : Path) (reader : Reader) : Prop :=
  ∃ interface, paths.hostapdInterface path = some interface ∧ reader = .hostapd interface

/-- Taking down a hotspot tells its hostapd. -/
theorem Step.told_takeDown {step : Step δ} (path : Path) (w w' : World δ)
    (hreturns : Returns (E := step.Effects) w (step.takeDown path) () w') :
    Told (HostapdAt step.hardware.paths path) w w' := by
  unfold Step.takeDown at hreturns
  split at hreturns
  · rename_i hnone
    rw [(returns_pure hreturns).2]
    apply (Told.nobody w).congr
    simp [HostapdAt, hnone]
  · rename_i interface hinterface
    obtain ⟨⟨⟩, afterStop, hstop, hreturns⟩ := returns_bind hreturns
    obtain ⟨⟨⟩, afterClose, hclose, hreturns⟩ := returns_bind hreturns
    have htold := (told_system hstop).trans (told_system hclose)
    have hlast : Told (fun _ => False) afterClose w' := by
      split at hreturns
      · exact told_system hreturns
      · rw [(returns_pure hreturns).2]
        exact .nobody afterClose
    apply (htold.trans hlast).congr
    simp [HostapdAt, hinterface, Tells]

/-- Bringing up a hotspot tells its hostapd. -/
theorem Step.told_bringUp {step : Step δ} (file : File) (w w' : World δ)
    (hreturns : Returns (E := step.Effects) w (step.bringUp file) () w') :
    Told (HostapdAt step.hardware.paths file.path) w w' := by
  unfold Step.bringUp at hreturns
  split at hreturns
  · rename_i hnone
    rw [(returns_pure hreturns).2]
    apply (Told.nobody w).congr
    simp [HostapdAt, hnone]
  · rename_i interface hinterface
    split at hreturns
    · obtain ⟨⟨⟩, afterOpen, hopen, hrestart⟩ := returns_bind hreturns
      apply ((told_system hopen).trans (told_system hrestart)).congr
      simp [HostapdAt, hinterface, Tells]
    · obtain ⟨⟨⟩, afterCreate, hcreate, hreturns⟩ := returns_bind hreturns
      obtain ⟨⟨⟩, afterOpen, hopen, hstart⟩ := returns_bind hreturns
      have hfirst : Told (fun _ => False) w afterCreate := by
        unfold Step.create at hcreate
        split at hcreate
        · exact told_system hcreate
        · rw [(returns_pure hcreate).2]
          exact .nobody w
      apply (hfirst.trans ((told_system hopen).trans (told_system hstart))).congr
      simp [HostapdAt, hinterface, Tells]

/-! ## Files -/

/-- A change to a file leaves the disk and the record alone. -/
@[simp]
theorem World.changed_disk (paths : Paths) (w : World δ) (path : Path) :
    (w.changed paths path).disk = w.disk := by
  unfold World.changed
  split <;> rfl

@[simp]
theorem World.changed_record (paths : Paths) (w : World δ) (path : Path) :
    (w.changed paths path).record = w.record := by
  unfold World.changed
  split <;> rfl

@[simp]
theorem World.changed_events (paths : Paths) (w : World δ) (path : Path) :
    (w.changed paths path).events = w.events := by
  unfold World.changed
  split <;> rfl

/-- A change to a file is for its reader to pick up. -/
theorem World.mem_changed_unread {paths : Paths} {w : World δ} {path : Path} {reader : Reader} :
    reader ∈ (w.changed paths path).unread ↔
      reader ∈ w.unread ∨ Reader.of paths path = some reader := by
  unfold World.changed
  rcases Reader.of paths path with _ | found
  · simp
  · simp only [List.mem_cons, Option.some.injEq]
    tauto

/-- Whether a reader has a use for a file taken away: a hostapd only where it runs. -/
def Reader.Uses (reader : Reader) (events : List (Event δ)) : Prop :=
  ∀ interface, reader = .hostapd interface → running interface events = true

/-- A file taken away is gone from the disk. -/
theorem World.remove_disk (paths : Paths) (w : World δ) (path : Path) :
    (w.remove paths path).disk = w.disk.erase path := by
  unfold World.remove
  split
  · split
    · split <;> simp
    · simp
  · rename_i habsent
    apply ExtTreeMap.ext_getElem?
    intro other
    rw [ExtTreeMap.getElem?_erase]
    split
    · rename_i hsame
      rw [← Std.LawfulEqCmp.eq_of_compare hsame]
      exact ExtTreeMap.getElem?_eq_none habsent
    · rfl

@[simp]
theorem World.remove_record (paths : Paths) (w : World δ) (path : Path) :
    (w.remove paths path).record = w.record := by
  unfold World.remove
  repeat' split
  all_goals simp

@[simp]
theorem World.remove_events (paths : Paths) (w : World δ) (path : Path) :
    (w.remove paths path).events = w.events := by
  unfold World.remove
  repeat' split
  all_goals simp

/-- A file taken away is for its reader to pick up, where it has a use for it. -/
theorem World.mem_remove_unread {paths : Paths} {w : World δ} {path : Path} {reader : Reader} :
    reader ∈ (w.remove paths path).unread ↔ reader ∈ w.unread ∨
      (path ∈ w.disk ∧ Reader.of paths path = some reader ∧ reader.Uses w.events) := by
  unfold World.remove
  split
  · rename_i hpresent
    rcases hreader : Reader.of paths path with _ | found
    · simp [mem_changed_unread, hreader]
    · cases found with
      | hostapd interface =>
          by_cases hrunning : running interface w.events = true
          · simp only [hrunning, if_true, mem_changed_unread, hreader, hpresent, true_and,
              Option.some.injEq]
            constructor
            · rintro (hmem | rfl)
              · exact .inl hmem
              · refine .inr ⟨rfl, ?_⟩
                intro other hother
                rw [← Reader.hostapd.inj hother]
                exact hrunning
            · rintro (hmem | ⟨hsame, -⟩)
              · exact .inl hmem
              · exact .inr hsame
          · simp only [hrunning, Option.some.injEq, hpresent, true_and]
            constructor
            · exact .inl
            · rintro (hmem | ⟨rfl, huses⟩)
              · exact hmem
              · exact absurd (huses interface rfl) hrunning
      | regdom | iwd | networkd | resolved =>
          simp only [mem_changed_unread, hreader, hpresent, true_and, Option.some.injEq]
          constructor
          · rintro (hmem | rfl)
            · exact .inl hmem
            · exact .inr ⟨rfl, by intro interface hinterface; cases hinterface⟩
          · rintro (hmem | ⟨hsame, -⟩)
            · exact .inl hmem
            · exact .inr hsame
  · rename_i habsent
    simp [habsent]

/-- Neither writing nor taking away a file has hostapd run or stop. -/
@[simp]
theorem running_note_write (interface : String) (w : World δ) (file : File) (ok : Bool) :
    running interface (w.note (.write file) ok).events = running interface w.events :=
  rfl

@[simp]
theorem running_note_remove (interface : String) (w : World δ) (path : Path) (ok : Bool) :
    running interface (w.note (.remove path) ok).events = running interface w.events :=
  rfl

/-- What putting files in place leaves. -/
structure Wrote (paths : Paths) (files : List File) (w w' : World δ) : Prop where
  disk : (files.map File.path).Nodup → ∀ file ∈ files, w'.disk[file.path]? = some (stored file)
  others : ∀ path, (∀ file ∈ files, file.path ≠ path) → w'.disk[path]? = w.disk[path]?
  record : w'.record = w.record
  unread : ∀ reader, reader ∈ w'.unread ↔ reader ∈ w.unread ∨
    ∃ file ∈ files, Reader.of paths file.path = some reader
  running : ∀ interface, running interface w'.events = running interface w.events

/-- Writing files in turn puts each in place. -/
theorem Step.wrote {step : Step δ} (files : List File) {w w' : World δ}
    (hreturns : Returns (E := step.Effects) w (files.forM step.write) () w') :
    Wrote step.hardware.paths files w w' := by
  induction files generalizing w with
  | nil =>
      rw [returns_nil hreturns]
      constructor <;> simp
  | cons file rest ih =>
      obtain ⟨between, hfirst, hrest⟩ := returns_cons hreturns
      obtain ⟨hdisk, hothers, hrecord, hunread, hrunning⟩ := ih hrest
      have hbetween := step.returns_write hfirst
      have hplaced : ∀ path : Path, between.disk[path]? =
          if file.path = path then some (stored file) else w.disk[path]? := by
        intro path
        rw [hbetween]
        simp [World.note, World.write, ExtTreeMap.getElem?_insert]
      constructor
      · intro hdistinct other hother
        rw [List.map_cons, List.nodup_cons] at hdistinct
        rcases List.mem_cons.mp hother with rfl | hother
        · rw [hothers other.path, hplaced, if_pos rfl]
          intro later hlater hsame
          exact hdistinct.1 (List.mem_map.mpr ⟨later, hlater, hsame⟩)
        · exact hdisk hdistinct.2 other hother
      · intro path hpath
        rw [hothers path fun other hother => hpath other (List.mem_cons_of_mem _ hother),
          hplaced, if_neg (hpath file List.mem_cons_self)]
      · rw [hrecord, hbetween]
        simp [World.note, World.write]
      · intro reader
        rw [hunread, hbetween]
        simp only [World.note, World.write, World.mem_changed_unread, List.exists_mem_cons_iff]
        tauto
      · intro interface
        rw [hrunning, hbetween, running_note_write]
        simp [World.write]

/-- What taking files away leaves. -/
structure Took (paths : Paths) (items : List Path) (w w' : World δ) : Prop where
  disk : ∀ path, w'.disk[path]? = if path ∈ items then none else w.disk[path]?
  record : w'.record = w.record
  unread : ∀ reader, reader ∈ w'.unread ↔ reader ∈ w.unread ∨
    ∃ path ∈ items, path ∈ w.disk ∧ Reader.of paths path = some reader ∧ reader.Uses w.events

/-- Taking files away in turn leaves none of them. -/
theorem Step.tookAway {step : Step δ} (items : List Path) {w w' : World δ}
    (hreturns : Returns (E := step.Effects) w (items.forM step.remove) () w') :
    Took step.hardware.paths items w w' := by
  induction items generalizing w with
  | nil =>
      rw [returns_nil hreturns]
      constructor <;> simp
  | cons path rest ih =>
      obtain ⟨between, hfirst, hrest⟩ := returns_cons hreturns
      obtain ⟨hdisk, hrecord, hunread⟩ := ih hrest
      have hbetween := step.returns_remove hfirst
      have herased : between.disk = w.disk.erase path := by
        rw [hbetween]
        exact w.remove_disk _ path
      have huses : ∀ reader : Reader, reader.Uses between.events ↔ reader.Uses w.events := by
        intro reader
        unfold Reader.Uses
        rw [hbetween]
        simp
      constructor
      · intro other
        rw [hdisk, herased, ExtTreeMap.getElem?_erase]
        by_cases hrest : other ∈ rest
        · simp [hrest]
        · by_cases hsame : path = other
          · simp [hsame]
          · simp [hrest, hsame, Ne.symm hsame]
      · rw [hrecord, hbetween]
        simp [World.note]
      · intro reader
        have hfound : reader ∈ between.unread ↔ reader ∈ w.unread ∨
            (path ∈ w.disk ∧ Reader.of step.hardware.paths path = some reader ∧
              reader.Uses w.events) := by
          rw [hbetween]
          exact World.mem_remove_unread
        rw [hunread, hfound, List.exists_mem_cons_iff]
        simp only [herased, huses, ExtTreeMap.mem_erase]
        constructor
        · rintro ((hmem | hhere) | ⟨other, hother, ⟨-, hdisk⟩, hreader⟩)
          · exact .inl hmem
          · exact .inr (.inl hhere)
          · exact .inr (.inr ⟨other, hother, hdisk, hreader⟩)
        · rintro (hmem | hhere | ⟨other, hother, hdisk, hreader⟩)
          · exact .inl (.inl hmem)
          · exact .inl (.inr hhere)
          · by_cases hsame : path = other
            · rw [hsame]
              exact .inl (.inr ⟨hdisk, hreader⟩)
            · exact .inr ⟨other, hother, ⟨by simpa using hsame, hdisk⟩, hreader⟩

/-! ## A backend's share -/

/-- A step with files of its backend only, some of them, each once and none of them
both put in place and taken away. -/
structure Step.Proper (step : Step δ) : Prop where
  written : ∀ file ∈ step.written,
    Backend.of step.hardware.paths file.path = some step.backend
  removed : ∀ path ∈ step.removed, Backend.of step.hardware.paths path = some step.backend
  distinct : (step.written.map File.path).Nodup
  apart : ∀ file ∈ step.written, file.path ∉ step.removed
  changes : step.written ≠ [] ∨ step.removed ≠ []

/-- What putting a backend's files in place leaves. -/
structure Step.Placed (step : Step δ) (w w' : World δ) : Prop where
  written : ∀ file ∈ step.written, w'.disk[file.path]? = some (stored file)
  removed : ∀ path ∈ step.removed, w'.disk[path]? = none
  others : ∀ path, (∀ file ∈ step.written, file.path ≠ path) → path ∉ step.removed →
    w'.disk[path]? = w.disk[path]?
  record : w'.record = w.record
  unread : ∀ reader, reader ∈ w'.unread ↔ reader ∈ w.unread ∨
    (∃ file ∈ step.written, Reader.of step.hardware.paths file.path = some reader) ∨
    ∃ path ∈ step.removed, path ∈ w.disk ∧
      Reader.of step.hardware.paths path = some reader ∧ reader.Uses w.events

/-- Putting a backend's files in place does so, and leaves the others alone. -/
theorem Step.Proper.placed {step : Step δ} (hproper : step.Proper) {w w' : World δ}
    (hreturns : Returns (E := step.Effects) w step.put () w') : step.Placed w w' := by
  obtain ⟨⟨⟩, between, hwrites, hremoves⟩ := returns_bind hreturns
  have hwrote := step.wrote step.written hwrites
  have htook := step.tookAway step.removed hremoves
  constructor
  · intro file hfile
    rw [htook.disk, if_neg (hproper.apart file hfile), hwrote.disk hproper.distinct file hfile]
  · intro path hpath
    rw [htook.disk, if_pos hpath]
  · intro path hwritten hremoved
    rw [htook.disk, if_neg hremoved, hwrote.others path hwritten]
  · rw [htook.record, hwrote.record]
  · intro reader
    have huses : reader.Uses between.events ↔ reader.Uses w.events := by
      simp only [Reader.Uses, hwrote.running]
    have hthere : ∀ path ∈ step.removed, path ∈ between.disk ↔ path ∈ w.disk := by
      intro path hpath
      have hsame := hwrote.others path (by
        intro file hfile hsame
        exact hproper.apart file hfile (hsame ▸ hpath))
      rw [← ExtTreeMap.isSome_getElem?_iff_mem, ← ExtTreeMap.isSome_getElem?_iff_mem, hsame]
    rw [htook.unread, hwrote.unread, huses, or_assoc]
    refine or_congr_right (or_congr_right ?_)
    apply exists_congr
    intro path
    constructor
    · rintro ⟨hpath, hdisk, hreader⟩
      exact ⟨hpath, (hthere path hpath).mp hdisk, hreader⟩
    · rintro ⟨hpath, hdisk, hreader⟩
      exact ⟨hpath, (hthere path hpath).mpr hdisk, hreader⟩

/-- The readers a step tells of their files: the kernel of its domain only where it
is written. -/
def Step.TellsOf (step : Step δ) (reader : Reader) : Prop :=
  (∃ file ∈ step.written, Reader.of step.hardware.paths file.path = some reader) ∨
    (reader ≠ .regdom ∧ ∃ path ∈ step.removed,
      Reader.of step.hardware.paths path = some reader)

/-- What a backend's share leaves: its files as they are to be, its readers told of
them, but for a domain no longer rendered. -/
structure Step.Done (step : Step δ) (w w' : World δ) : Prop where
  written : ∀ file ∈ step.written, w'.disk[file.path]? = some (stored file)
  removed : ∀ path ∈ step.removed, w'.disk[path]? = none
  others : ∀ path, (∀ file ∈ step.written, file.path ≠ path) → path ∉ step.removed →
    w'.disk[path]? = w.disk[path]?
  record : w'.record = w.record
  unread : ∀ reader, reader ∈ w'.unread ↔ ¬ step.TellsOf reader ∧ (reader ∈ w.unread ∨
    (reader = .regdom ∧ ∃ path ∈ step.removed, path ∈ w.disk ∧
      Reader.of step.hardware.paths path = some .regdom))

/-- Files put in place and then their readers told are a backend's share. -/
theorem Step.Placed.told {step : Step δ} {readers : Reader → Prop} {w between w' : World δ}
    (hplaced : step.Placed w between) (htold : Told readers between w')
    (hreaders : ∀ reader, readers reader ↔ step.TellsOf reader) : step.Done w w' := by
  constructor
  · rw [htold.disk]
    exact hplaced.written
  · rw [htold.disk]
    exact hplaced.removed
  · rw [htold.disk]
    exact hplaced.others
  · rw [htold.record, hplaced.record]
  · intro reader
    rw [htold.unread, hplaced.unread, hreaders]
    constructor
    · rintro ⟨hmem | hwritten | ⟨path, hpath, hdisk, hreader, -⟩, htells⟩
      · exact ⟨htells, .inl hmem⟩
      · exact absurd (.inl hwritten) htells
      · by_cases hregdom : reader = .regdom
        · rw [hregdom] at hreader htells ⊢
          exact ⟨htells, .inr ⟨rfl, path, hpath, hdisk, hreader⟩⟩
        · exact absurd (.inr ⟨hregdom, path, hpath, hreader⟩) htells
    · rintro ⟨htells, hmem | ⟨rfl, path, hpath, hdisk, hreader⟩⟩
      · exact ⟨.inl hmem, htells⟩
      · refine ⟨.inr (.inr ⟨path, hpath, hdisk, hreader, ?_⟩), htells⟩
        intro interface hinterface
        cases hinterface

/-- A backend all of whose files one reader reads is told by a call that tells it. -/
theorem Step.Proper.done_of_one {step : Step δ} (hproper : step.Proper) {one : Reader}
    (hone : ∀ path, Backend.of step.hardware.paths path = some step.backend →
      Reader.of step.hardware.paths path = some one) (hregdom : one ≠ .regdom)
    {w between w' : World δ} (hplaced : step.Placed w between)
    (htold : Told (· = one) between w') : step.Done w w' := by
  apply hplaced.told htold
  intro reader
  constructor
  · rintro rfl
    rcases hproper.changes with hsome | hsome
    · obtain ⟨file, hfile⟩ := List.exists_mem_of_ne_nil _ hsome
      exact .inl ⟨file, hfile, hone _ (hproper.written file hfile)⟩
    · obtain ⟨path, hpath⟩ := List.exists_mem_of_ne_nil _ hsome
      exact .inr ⟨hregdom, path, hpath, hone _ (hproper.removed path hpath)⟩
  · rintro (⟨file, hfile, hreader⟩ | ⟨-, path, hpath, hreader⟩)
    · rw [hone _ (hproper.written file hfile)] at hreader
      exact (Option.some.inj hreader).symm
    · rw [hone _ (hproper.removed path hpath)] at hreader
      exact (Option.some.inj hreader).symm

/-- A file the kernel's domain is read from is the modprobe file. -/
theorem Backend.of_eq_regdom {paths : Paths} {path : Path}
    (hbackend : Backend.of paths path = some .regdom) : path = paths.modprobe := by
  unfold Backend.of at hbackend
  split at hbackend
  · cases hbackend
  · split at hbackend
    · assumption
    · repeat' split at hbackend
      all_goals cases hbackend

/-- The regulatory domain's share. -/
theorem Step.Proper.regdom {step : Step δ} (hproper : step.Proper)
    (hbackend : step.backend = .regdom) {w w' : World δ}
    (hreturns : Returns (E := step.Effects) w step.regdom () w') : step.Done w w' := by
  obtain ⟨⟨⟩, between, hput, hreturns⟩ := returns_bind hreturns
  have hplaced := hproper.placed hput
  have hof : ∀ path, Backend.of step.hardware.paths path = some step.backend →
      Reader.of step.hardware.paths path = some .regdom := by
    intro path hpath
    rw [hbackend] at hpath
    simp [Reader.of, hpath]
  rcases hhead : step.written.head? with _ | file
  · rw [hhead] at hreturns
    rw [(returns_pure hreturns).2]
    apply hplaced.told (.nobody between)
    intro reader
    rw [List.head?_eq_none_iff] at hhead
    simp only [TellsOf, hhead, List.not_mem_nil, false_and, exists_false, false_or, false_iff]
    rintro ⟨hne, path, hpath, hreader⟩
    rw [hof path (hproper.removed path hpath)] at hreader
    exact hne (Option.some.inj hreader).symm
  · rw [hhead] at hreturns
    have hfile := List.mem_of_head? hhead
    simp only at hreturns
    split at hreturns
    · rename_i domain hdomain
      apply hplaced.told (told_system hreturns)
      intro reader
      have hpath := hproper.written file hfile
      have hnamed : between.domain step.hardware.paths = some domain := by
        rw [hbackend] at hpath
        unfold World.domain
        rw [← Backend.of_eq_regdom hpath, hplaced.written file hfile]
        exact hdomain
      simp only [Tells, hnamed, and_true]
      constructor
      · rintro rfl
        exact .inl ⟨file, hfile, hof _ hpath⟩
      · rintro (⟨other, hother, hreader⟩ | ⟨-, path, hpath, hreader⟩)
        · rw [hof _ (hproper.written other hother)] at hreader
          exact (Option.some.inj hreader).symm
        · rw [hof _ (hproper.removed path hpath)] at hreader
          exact (Option.some.inj hreader).symm
    · exact absurd hreturns not_returns_fail

/-- Of iwd's files, it is told of its main configuration. -/
theorem Reader.of_eq_iwd {paths : Paths} {path : Path} {reader : Reader}
    (hbackend : Backend.of paths path = some .iwd) :
    Reader.of paths path = some reader ↔ path = paths.iwdConfig ∧ reader = .iwd := by
  simp only [Reader.of, hbackend]
  split
  · rename_i hpath
    simp only [hpath, Option.some.injEq, true_and]
    exact eq_comm
  · rename_i hpath
    simp [hpath]

/-- iwd's share. -/
theorem Step.Proper.iwd {step : Step δ} (hproper : step.Proper)
    (hbackend : step.backend = .iwd) {w w' : World δ}
    (hreturns : Returns (E := step.Effects) w step.iwd () w') : step.Done w w' := by
  obtain ⟨⟨⟩, between, hput, hreturns⟩ := returns_bind hreturns
  have hplaced := hproper.placed hput
  have htells : ∀ reader, step.TellsOf reader ↔
      step.touches step.hardware.paths.iwdConfig = true ∧ reader = .iwd := by
    intro reader
    simp only [touches, Bool.or_eq_true, List.any_eq_true, beq_iff_eq, List.contains_iff_mem]
    constructor
    · rintro (⟨file, hfile, hreader⟩ | ⟨-, path, hpath, hreader⟩)
      · rw [Reader.of_eq_iwd (hbackend ▸ hproper.written file hfile)] at hreader
        exact ⟨.inl ⟨file, hfile, hreader.1⟩, hreader.2⟩
      · rw [Reader.of_eq_iwd (hbackend ▸ hproper.removed path hpath)] at hreader
        exact ⟨.inr (hreader.1 ▸ hpath), hreader.2⟩
    · rintro ⟨⟨file, hfile, hconfig⟩ | hconfig, rfl⟩
      · refine .inl ⟨file, hfile, ?_⟩
        rw [Reader.of_eq_iwd (hbackend ▸ hproper.written file hfile)]
        exact ⟨hconfig, rfl⟩
      · refine .inr ⟨by simp, _, hconfig, ?_⟩
        rw [Reader.of_eq_iwd (hbackend ▸ hproper.removed _ hconfig)]
        exact ⟨rfl, rfl⟩
  split at hreturns
  · rename_i htouches
    apply hplaced.told (told_system hreturns)
    intro reader
    simp [Tells, htells, htouches]
  · rename_i htouches
    rw [(returns_pure hreturns).2]
    apply hplaced.told (.nobody between)
    intro reader
    simp [htells, htouches]

/-- A hostapd configuration is read by the hostapd of its interface. -/
theorem Reader.of_eq_hostapd {paths : Paths} {path : Path} {reader : Reader}
    (hbackend : Backend.of paths path = some .hostapd) :
    Reader.of paths path = some reader ↔ HostapdAt paths path reader := by
  simp only [Reader.of, hbackend, Option.map_eq_some_iff, HostapdAt]
  apply exists_congr
  intro interface
  exact and_congr_right fun _ => eq_comm

/-- A call is noted after what was done before it. -/
theorem Step.events_system {step : Step δ} {call : Call} {w w' : World δ}
    (hreturns : Returns (E := step.Effects) w (step.system call) () w') :
    w'.events = ⟨.call call, true⟩ :: w.events := by
  rw [step.returns_system hreturns]
  have htook : (w.took step.hardware.paths call).events = w.events := by
    unfold World.took
    split
    · split <;> rfl
    all_goals rfl
  rw [World.note, htook]

/-- Taking down a hotspot stops its hostapd, and starts none. -/
theorem Step.running_takeDown {step : Step δ} {path : Path} {w w' : World δ}
    (hreturns : Returns (E := step.Effects) w (step.takeDown path) () w') (interface : String)
    (hdown : running interface w.events = false ∨
      step.hardware.paths.hostapdInterface path = some interface) :
    running interface w'.events = false := by
  unfold Step.takeDown at hreturns
  split at hreturns
  · rename_i hnone
    rw [(returns_pure hreturns).2]
    simpa [hnone] using hdown
  · rename_i on hon
    obtain ⟨⟨⟩, afterStop, hstop, hreturns⟩ := returns_bind hreturns
    obtain ⟨⟨⟩, afterClose, hclose, hreturns⟩ := returns_bind hreturns
    have hclosed : running interface afterClose.events = false := by
      rw [events_system hclose, events_system hstop]
      rcases hdown with hdown | hdown
      · simp [running, hdown]
      · rw [hon] at hdown
        simp [running, Option.some.inj hdown]
    split at hreturns
    · rw [events_system hreturns]
      exact hclosed
    · rw [(returns_pure hreturns).2]
      exact hclosed

/-- Taking down hotspots in turn stops each hostapd of theirs. -/
theorem Step.running_takeDowns {step : Step δ} (items : List Path) {w w' : World δ}
    (hreturns : Returns (E := step.Effects) w (items.forM step.takeDown) () w')
    (interface : String)
    (hdown : running interface w.events = false ∨
      ∃ path ∈ items, step.hardware.paths.hostapdInterface path = some interface) :
    running interface w'.events = false := by
  induction items generalizing w with
  | nil =>
      rw [returns_nil hreturns]
      simpa using hdown
  | cons path rest ih =>
      obtain ⟨between, hfirst, hrest⟩ := returns_cons hreturns
      apply ih hrest
      rcases hdown with hdown | ⟨found, hfound, hinterface⟩
      · exact .inl (running_takeDown hfirst interface (.inl hdown))
      · rcases List.mem_cons.mp hfound with rfl | hfound
        · exact .inl (running_takeDown hfirst interface (.inr hinterface))
        · exact .inr ⟨found, hfound, hinterface⟩

/-- hostapd's share. -/
theorem Step.Proper.hostapd {step : Step δ} (hproper : step.Proper)
    (hbackend : step.backend = .hostapd) {w w' : World δ}
    (hreturns : Returns (E := step.Effects) w step.hostapd () w') : step.Done w w' := by
  obtain ⟨⟨⟩, down, htakeDowns, hreturns⟩ := returns_bind hreturns
  obtain ⟨⟨⟩, between, hput, hbringUps⟩ := returns_bind hreturns
  have hdown := step.told_forM step.told_takeDown step.removed htakeDowns
  have hplaced := hproper.placed hput
  have hup := step.told_forM step.told_bringUp step.written hbringUps
  have hreads : ∀ path, Backend.of step.hardware.paths path = some step.backend →
      ∀ reader, Reader.of step.hardware.paths path = some reader ↔
        HostapdAt step.hardware.paths path reader := by
    intro path hpath reader
    exact Reader.of_eq_hostapd (hbackend ▸ hpath)
  have hne : ∀ path reader, HostapdAt step.hardware.paths path reader → reader ≠ .regdom := by
    rintro path reader ⟨interface, -, rfl⟩
    simp
  constructor
  · rw [hup.disk]
    exact hplaced.written
  · rw [hup.disk]
    exact hplaced.removed
  · rw [hup.disk, ← hdown.disk]
    exact hplaced.others
  · rw [hup.record, hplaced.record, hdown.record]
  · intro reader
    rw [hup.unread, hplaced.unread, hdown.unread]
    constructor
    · rintro ⟨⟨hmem, hnotDown⟩ | ⟨file, hfile, hreader⟩ | ⟨path, hpath, -, hreader, huses⟩, hnotUp⟩
      · refine ⟨?_, .inl hmem⟩
        rintro (⟨file, hfile, hreader⟩ | ⟨-, path, hpath, hreader⟩)
        · exact hnotUp ⟨file, hfile, (hreads _ (hproper.written file hfile) _).mp hreader⟩
        · exact hnotDown ⟨path, hpath, (hreads _ (hproper.removed path hpath) _).mp hreader⟩
      · exact absurd ⟨file, hfile, (hreads _ (hproper.written file hfile) _).mp hreader⟩ hnotUp
      · obtain ⟨interface, hinterface, rfl⟩ :=
          (hreads _ (hproper.removed path hpath) _).mp hreader
        have hstopped := step.running_takeDowns step.removed htakeDowns interface
          (.inr ⟨path, hpath, hinterface⟩)
        rw [huses interface rfl] at hstopped
        cases hstopped
    · rintro ⟨htells, hmem | ⟨rfl, path, hpath, -, hreader⟩⟩
      · refine ⟨.inl ⟨hmem, ?_⟩, ?_⟩
        · rintro ⟨path, hpath, hreader⟩
          exact htells (.inr ⟨hne _ _ hreader, path, hpath,
            (hreads _ (hproper.removed path hpath) _).mpr hreader⟩)
        · rintro ⟨file, hfile, hreader⟩
          exact htells (.inl ⟨file, hfile,
            (hreads _ (hproper.written file hfile) _).mpr hreader⟩)
      · exact absurd rfl (hne _ _ ((hreads _ (hproper.removed path hpath) _).mp hreader))

/-- What a backend's share leaves. -/
theorem Step.Proper.run {step : Step δ} (hproper : step.Proper) {w w' : World δ}
    (hreturns : Returns (E := step.Effects) w step.run () w') : step.Done w w' := by
  unfold Step.run at hreturns
  split at hreturns
  · rename_i hbackend
    exact hproper.regdom hbackend hreturns
  · rename_i hbackend
    exact hproper.hostapd hbackend hreturns
  · rename_i hbackend
    exact hproper.iwd hbackend hreturns
  · rename_i hbackend
    obtain ⟨⟨⟩, between, hput, hreload⟩ := returns_bind hreturns
    apply hproper.done_of_one _ _ (hproper.placed hput) (told_system hreload)
    · intro path hpath
      rw [hbackend] at hpath
      simp [Reader.of, hpath]
    · simp
  · rename_i hbackend
    obtain ⟨⟨⟩, between, hput, hreload⟩ := returns_bind hreturns
    apply hproper.done_of_one _ _ (hproper.placed hput) (told_system hreload)
    · intro path hpath
      rw [hbackend] at hpath
      simp [Reader.of, hpath]
    · simp

end Bliti.Network.Apply
