import Bliti.Library.Fallible
import Bliti.Network.Apply.Placed

/-!
# Applying - the backends in order

What an apply that returns leaves, told from the world it started in: which files
of ours it puts in place and which it takes away, what it records, and which
readers it informs.
-/

namespace Bliti.Network.Apply

open Std (ExtTreeMap)
open Interruptible Render

variable {δ : Type} (hardware : Hardware)

/-! ## What an apply starts from -/

/-- A file of ours an apply takes away: on disk or recorded, and not rendered. -/
def Stale (rendered : Rendered) (record : Record δ) (w : World δ) (path : Path) : Prop :=
  rendered.holds path = false ∧
    ((path ∈ w.disk ∧ Scanned hardware.paths path) ∨ record.contains path = true)

/-- What is stale is what is found or recorded, and not rendered. -/
theorem mem_stale {rendered : Rendered} {record : Record δ} {w : World δ} {path : Path} :
    path ∈ stale rendered (scan hardware.paths w.disk) record ↔
      Stale hardware rendered record w path := by
  simp only [stale, Stale, Std.ExtTreeSet.mem_toList, Std.ExtTreeSet.mem_ofList,
    List.contains_iff_mem, List.mem_filter, List.mem_append, mem_scan, Record.mem_paths,
    Bool.not_eq_true']
  exact and_comm

/-- Each rendered file is of the backend that reads it. -/
theorem mem_wanted {files : List File} {items : List (Backend × File)}
    (hwanted : wanted hardware files = .ok items) {backend : Backend} {file : File} :
    (backend, file) ∈ items ↔
      file ∈ files ∧ Backend.of hardware.paths file.path = some backend := by
  induction files generalizing items with
  | nil =>
      cases hwanted
      simp
  | cons first rest ih =>
      unfold wanted at hwanted
      split at hwanted
      · cases hwanted
      · rename_i found hfound
        obtain ⟨others, hothers, hitems⟩ := Fallible.bind_ok.mp hwanted
        rw [← Fallible.pure_ok.mp hitems, List.mem_cons, List.mem_cons, ih hothers,
          Prod.mk.injEq]
        constructor
        · rintro (⟨rfl, rfl⟩ | ⟨hfile, hof⟩)
          · exact ⟨.inl rfl, hfound⟩
          · exact ⟨.inr hfile, hof⟩
        · rintro ⟨rfl | hfile, hof⟩
          · rw [hfound] at hof
            exact .inl ⟨(Option.some.inj hof).symm, rfl⟩
          · exact .inr ⟨hfile, hof⟩

/-- The files wanted are those rendered, in order. -/
theorem wanted_files {files : List File} {items : List (Backend × File)}
    (hwanted : wanted hardware files = .ok items) : items.map Prod.snd = files := by
  induction files generalizing items with
  | nil =>
      cases hwanted
      rfl
  | cons first rest ih =>
      unfold wanted at hwanted
      split at hwanted
      · cases hwanted
      · obtain ⟨others, hothers, hitems⟩ := Fallible.bind_ok.mp hwanted
        rw [← Fallible.pure_ok.mp hitems, List.map_cons, ih hothers]

/-- A path of no backend is not ours. -/
theorem Backend.of_eq_none {paths : Paths} {path : Path} :
    Backend.of paths path = none ↔ paths.owns path = false := by
  unfold Backend.of
  rcases howns : paths.owns path with _ | _
  · simp
  · simp only [Bool.not_true, Bool.false_eq_true, if_false, Bool.true_eq_false, iff_false]
    repeat' split
    all_goals simp

/-- The record an apply starts from: of the files of ours, what was saved. -/
def loaded (w : World δ) : Record δ :=
  (w.record.getD .empty).retain hardware.paths.owns

/-- The record an apply starts from is of files of ours. -/
theorem loaded_foreign {w : World δ} {path : Path} (hforeign : hardware.paths.owns path = false) :
    (loaded hardware w).files[path]? = none := by
  rw [loaded, Record.getElem?_retain, hforeign]
  rfl

/-- A stale file is ours. -/
theorem of_stale {rendered : Rendered} {start w : World δ} {path : Path}
    (hstale : Stale hardware rendered (loaded hardware start) w path) :
    Backend.of hardware.paths path ≠ none := by
  rw [Ne, Backend.of_eq_none]
  intro hforeign
  rcases hstale.2 with ⟨-, hscanned⟩ | hcontains
  · rw [owns_of_scanned hscanned] at hforeign
    cases hforeign
  · rw [Record.contains_iff, loaded_foreign _ hforeign] at hcontains
    cases hcontains

variable (digest : String → δ)

/-! ## The record of a backend's files -/

/-- The files inserted in turn are recorded, and the others as they were. -/
theorem insert_files (files : List File) (record : Record δ) :
    ((files.map File.path).Nodup → ∀ file ∈ files,
      (files.foldl (.insert digest) record).files[file.path]? =
        some (Record.entry digest file)) ∧
    ∀ path : Path, (∀ file ∈ files, file.path ≠ path) →
      (files.foldl (.insert digest) record).files[path]? = record.files[path]? := by
  induction files generalizing record with
  | nil => simp
  | cons first rest ih =>
      obtain ⟨hrecorded, hothers⟩ := ih (record.insert digest first)
      constructor
      · intro hdistinct file hfile
        rw [List.map_cons, List.nodup_cons] at hdistinct
        rcases List.mem_cons.mp hfile with rfl | hfile
        · rw [List.foldl_cons, hothers, Record.getElem?_insert, if_pos rfl]
          intro later hlater hsame
          exact hdistinct.1 (List.mem_map.mpr ⟨later, hlater, hsame⟩)
        · exact hrecorded hdistinct.2 file hfile
      · intro path hpath
        rw [List.foldl_cons, hothers path fun file hfile => hpath file (List.mem_cons_of_mem _ hfile),
          Record.getElem?_insert, if_neg (hpath first List.mem_cons_self)]

/-- The paths removed in turn are not recorded, and the others as they were. -/
theorem remove_paths (items : List Path) (record : Record δ) (path : Path) :
    (items.foldl .remove record).files[path]? =
      if path ∈ items then none else record.files[path]? := by
  induction items generalizing record with
  | nil => simp
  | cons first rest ih =>
      rw [List.foldl_cons, ih, Record.getElem?_remove]
      by_cases hrest : path ∈ rest
      · simp [hrest]
      · by_cases hfirst : first = path
        · simp [hfirst]
        · simp [hrest, hfirst, Ne.symm hfirst]

/-! ## What an apply spares, and whom it informs -/

variable [DecidableEq δ]

/-- A rendered file an apply leaves alone: recorded as it is rendered, and on disk. -/
def Spared (record : Record δ) (w : World δ) (file : File) : Prop :=
  record.holds digest file = true ∧ file.path ∈ w.disk

/-- The readers an apply tells of what it changes. -/
def Informs (rendered : Rendered) (record : Record δ) (w : World δ) (reader : Reader) : Prop :=
  (∃ file ∈ rendered.files, ¬ Spared digest record w file ∧
      Reader.of hardware.paths file.path = some reader) ∨
    (reader ≠ .regdom ∧ ∃ path, Stale hardware rendered record w path ∧
      Reader.of hardware.paths path = some reader)

/-- A file is looked for without a change. -/
theorem returns_inPlace {record : Record δ} {file : File} {kept : Bool} {w w' : World δ}
    (hreturns : Returns (E := effects δ hardware.paths) w
      (inPlace digest hardware record file) kept w') :
    w' = w ∧ (kept = true ↔ Spared digest record w file) := by
  unfold inPlace at hreturns
  split at hreturns
  · rename_i hheld
    obtain ⟨hanswer, rfl⟩ :=
      returns_attempt (E := effects δ hardware.paths) (o := .existsAt file.path) hreturns
    rw [Except.ok.inj hanswer]
    simp [Spared, hheld]
  · rename_i hheld
    obtain ⟨rfl, rfl⟩ := returns_pure hreturns
    simp [Spared, hheld]

/-- The files of a backend to be written are found without a change. -/
theorem returns_lacking {record : Record δ} {backend : Backend}
    {items : List (Backend × File)} {written : List File} {w w' : World δ}
    (hreturns : Returns (E := effects δ hardware.paths) w
      (lacking digest hardware record backend items) written w') :
    w' = w ∧ written.Sublist (items.map Prod.snd) ∧
      ∀ file, file ∈ written ↔ (backend, file) ∈ items ∧ ¬ Spared digest record w file := by
  induction items generalizing w written with
  | nil =>
      obtain ⟨rfl, rfl⟩ := returns_pure hreturns
      simp
  | cons item rest ih =>
      obtain ⟨of, first⟩ := item
      unfold lacking at hreturns
      split at hreturns
      · rename_i hof
        obtain ⟨kept, looked, hlook, hreturns⟩ := returns_bind hreturns
        obtain ⟨files, after, hrest, hreturns⟩ := returns_bind hreturns
        obtain ⟨rfl, rfl⟩ := returns_pure hreturns
        obtain ⟨rfl, hkept⟩ := returns_inPlace hardware digest hlook
        obtain ⟨rfl, hsub, hmem⟩ := ih hrest
        refine ⟨rfl, ?_, ?_⟩
        · split
          · exact hsub.cons first
          · exact hsub.cons_cons first
        · intro file
          by_cases hspared : Spared digest record w' first
          · rw [if_pos (hkept.mpr hspared), hmem, List.mem_cons, Prod.mk.injEq]
            constructor
            · rintro ⟨hfile, hfresh⟩
              exact ⟨.inr hfile, hfresh⟩
            · rintro ⟨⟨-, rfl⟩ | hfile, hfresh⟩
              · exact absurd hspared hfresh
              · exact ⟨hfile, hfresh⟩
          · rw [if_neg (hkept.not.mpr hspared), List.mem_cons, hmem, List.mem_cons,
              Prod.mk.injEq]
            constructor
            · rintro (rfl | ⟨hfile, hfresh⟩)
              · exact ⟨.inl ⟨hof.symm, rfl⟩, hspared⟩
              · exact ⟨.inr hfile, hfresh⟩
            · rintro ⟨⟨-, rfl⟩ | hfile, hfresh⟩
              · exact .inl rfl
              · exact .inr ⟨hfile, hfresh⟩
      · rename_i hof
        obtain ⟨rfl, hsub, hmem⟩ := ih hreturns
        refine ⟨rfl, hsub.cons first, ?_⟩
        intro file
        rw [hmem, List.mem_cons, Prod.mk.injEq]
        constructor
        · rintro ⟨hfile, hfresh⟩
          exact ⟨.inr hfile, hfresh⟩
        · rintro ⟨⟨hsame, -⟩ | hfile, hfresh⟩
          · exact absurd hsame.symm hof
          · exact ⟨hfile, hfresh⟩

/-! ## The backends in order -/

/-- What an apply has done where some backends are still to come: their files, their
record and their readers are as they were, and those of the others as rendered. -/
structure Sofar (rendered : Rendered) (before : Record δ) (start : World δ)
    (left : List Backend) (record : Record δ) (w : World δ) : Prop where
  written : ∀ file ∈ rendered.files, ∀ backend,
    Backend.of hardware.paths file.path = some backend → backend ∉ left →
    ¬ Spared digest before start file → w.disk[file.path]? = some (stored file)
  gone : ∀ path backend, Backend.of hardware.paths path = some backend → backend ∉ left →
    Stale hardware rendered before start path → w.disk[path]? = none
  others : ∀ path, (∀ backend, Backend.of hardware.paths path = some backend → backend ∉ left →
      (∀ file ∈ rendered.files, file.path = path → Spared digest before start file) ∧
        ¬ Stale hardware rendered before start path) →
    w.disk[path]? = start.disk[path]?
  holding : ∀ file ∈ rendered.files, ∀ backend,
    Backend.of hardware.paths file.path = some backend → backend ∉ left →
    record.files[file.path]? = some (Record.entry digest file)
  forgotten : ∀ path backend, Backend.of hardware.paths path = some backend → backend ∉ left →
    rendered.holds path = false → record.files[path]? = none
  ahead : ∀ path, (∀ backend, Backend.of hardware.paths path = some backend → backend ∈ left) →
    record.files[path]? = before.files[path]?
  saved : w.record = some record ∨ (w.record = start.record ∧ record = before)
  informed : ∀ reader : Reader, reader.backend ∉ left → (reader ∈ w.unread ↔
    ¬ Informs hardware digest rendered before start reader ∧ (reader ∈ start.unread ∨
      (reader = .regdom ∧ ∃ path, Stale hardware rendered before start path ∧
        path ∈ start.disk ∧ Reader.of hardware.paths path = some .regdom)))
  waiting : ∀ reader : Reader, reader.backend ∈ left →
    (reader ∈ w.unread ↔ reader ∈ start.unread)

namespace Sofar

variable {hardware digest} {rendered : Rendered} {before record : Record δ}
  {start w w₁ w₂ : World δ} {backend : Backend} {rest : List Backend}

/-- Nothing is done while every backend is to come. -/
theorem init (rendered : Rendered) (before : Record δ) (start : World δ) :
    Sofar hardware digest rendered before start Backend.ORDER before start := by
  have hall : ∀ backend, backend ∈ Backend.ORDER := by
    intro backend
    cases backend <;> simp [Backend.ORDER]
  constructor
  · intro file _ backend _ hdone
    exact absurd (hall backend) hdone
  · intro path backend _ hdone
    exact absurd (hall backend) hdone
  · intro path _
    rfl
  · intro file _ backend _ hdone
    exact absurd (hall backend) hdone
  · intro path backend _ hdone
    exact absurd (hall backend) hdone
  · intro path _
    rfl
  · exact .inr ⟨rfl, rfl⟩
  · intro reader hdone
    exact absurd (hall _) hdone
  · intro reader _
    rfl

/-- A file of the next backend is as it was at the start. -/
theorem disk_next (hsofar : Sofar hardware digest rendered before start (backend :: rest) record w)
    {path : Path} (hof : Backend.of hardware.paths path = some backend) :
    w.disk[path]? = start.disk[path]? := by
  apply hsofar.others
  intro found hfound hdone
  rw [hof] at hfound
  exact absurd (Option.some.inj hfound ▸ List.mem_cons_self) hdone

/-- A file of the next backend is recorded as it was at the start. -/
theorem record_next
    (hsofar : Sofar hardware digest rendered before start (backend :: rest) record w)
    {path : Path} (hof : Backend.of hardware.paths path = some backend) :
    record.files[path]? = before.files[path]? := by
  apply hsofar.ahead
  intro found hfound
  rw [hof] at hfound
  rw [← Option.some.inj hfound]
  exact List.mem_cons_self

/-- A file of the next backend is spared as it was at the start. -/
theorem spared_next
    (hsofar : Sofar hardware digest rendered before start (backend :: rest) record w)
    {file : File} (hof : Backend.of hardware.paths file.path = some backend) :
    Spared digest record w file ↔ Spared digest before start file := by
  unfold Spared
  rw [Record.holds_iff, Record.holds_iff, hsofar.record_next hof,
    ← ExtTreeMap.isSome_getElem?_iff_mem, ← ExtTreeMap.isSome_getElem?_iff_mem,
    hsofar.disk_next hof]

end Sofar

/-- The next backend's share, told from the start: its files not spared and those stale. -/
structure Share (rendered : Rendered) (before : Record δ) (start : World δ) (step : Step δ) :
    Prop where
  device : step.hardware = hardware
  written : ∀ file, file ∈ step.written ↔
    (file ∈ rendered.files ∧ Backend.of hardware.paths file.path = some step.backend) ∧
      ¬ Spared digest before start file
  removed : ∀ path, path ∈ step.removed ↔ Stale hardware rendered before start path ∧
    Backend.of hardware.paths path = some step.backend
  distinct : (step.written.map File.path).Nodup

namespace Share

variable {hardware digest} {rendered : Rendered} {before record : Record δ}
  {start w w' : World δ} {step : Step δ} {path : Path}

/-- A file of another backend is neither put in place nor taken away. -/
theorem untouched (hshare : Share hardware digest rendered before start step)
    (hother : ∀ backend, Backend.of hardware.paths path = some backend →
      backend ≠ step.backend) :
    (∀ file ∈ step.written, file.path ≠ path) ∧ path ∉ step.removed := by
  constructor
  · rintro file hfile rfl
    exact hother _ ((hshare.written file).mp hfile).1.2 rfl
  · intro hpath
    exact hother _ ((hshare.removed path).mp hpath).2 rfl

/-- A rendered file is not taken away. -/
theorem rendered_kept (hshare : Share hardware digest rendered before start step) {file : File}
    (hfile : file ∈ rendered.files) : file.path ∉ step.removed := by
  intro hpath
  have hstale := ((hshare.removed _).mp hpath).1.1
  have hholds : rendered.holds file.path = true :=
    List.any_eq_true.mpr ⟨file, hfile, by simp⟩
  rw [hholds] at hstale
  cases hstale

/-- A backend with something to do has a share of its files only. -/
theorem proper (hshare : Share hardware digest rendered before start step)
    (hchanges : step.written ≠ [] ∨ step.removed ≠ []) : step.Proper where
  written := by
    intro file hfile
    rw [hshare.device]
    exact ((hshare.written file).mp hfile).1.2
  removed := by
    intro path hpath
    rw [hshare.device]
    exact ((hshare.removed path).mp hpath).2
  distinct := hshare.distinct
  apart := by
    intro file hfile
    exact hshare.rendered_kept ((hshare.written file).mp hfile).1.1
  changes := hchanges

/-- The readers told of a share are those of its backend told of what changes. -/
theorem tellsOf (hshare : Share hardware digest rendered before start step) (reader : Reader) :
    step.TellsOf reader ↔
      reader.backend = step.backend ∧ Informs hardware digest rendered before start reader := by
  simp only [Step.TellsOf, Informs, hshare.device, hshare.written, hshare.removed]
  constructor
  · rintro (⟨file, ⟨⟨hfile, hof⟩, hfresh⟩, hreader⟩ | ⟨hne, path, ⟨hstale, hof⟩, hreader⟩)
    · rw [Reader.backend_of hreader] at hof
      exact ⟨Option.some.inj hof, .inl ⟨file, hfile, hfresh, hreader⟩⟩
    · rw [Reader.backend_of hreader] at hof
      exact ⟨Option.some.inj hof, .inr ⟨hne, path, hstale, hreader⟩⟩
  · rintro ⟨hbackend, ⟨file, hfile, hfresh, hreader⟩ | ⟨hne, path, hstale, hreader⟩⟩
    · exact .inl ⟨file, ⟨⟨hfile, hbackend ▸ Reader.backend_of hreader⟩, hfresh⟩, hreader⟩
    · exact .inr ⟨hne, path, ⟨hstale, hbackend ▸ Reader.backend_of hreader⟩, hreader⟩

end Share

namespace Sofar

variable {hardware digest} {rendered : Rendered} {before : Record δ} {start w w₁ w₂ : World δ}
  {step : Step δ} {rest : List Backend}

/-- The record of a share holds the rendered files of its backend, and no others of
its backend. -/
theorem recorded_next
    (hsofar : Sofar hardware digest rendered before start (step.backend :: rest) step.record w)
    (hshare : Share hardware digest rendered before start step) :
    (∀ file ∈ rendered.files, Backend.of hardware.paths file.path = some step.backend →
      (recorded digest step.record step.written step.removed).files[file.path]? =
        some (Record.entry digest file)) ∧
    (∀ path, Backend.of hardware.paths path = some step.backend →
      rendered.holds path = false →
      (recorded digest step.record step.written step.removed).files[path]? = none) ∧
    ∀ path, (∀ backend, Backend.of hardware.paths path = some backend →
        backend ≠ step.backend) →
      (recorded digest step.record step.written step.removed).files[path]? =
        step.record.files[path]? := by
  obtain ⟨hinserted, hothers⟩ := insert_files digest step.written step.record
  refine ⟨?_, ?_, ?_⟩
  · intro file hfile hof
    rw [recorded, remove_paths, if_neg (hshare.rendered_kept hfile)]
    by_cases hspared : Spared digest before start file
    · rw [hothers, hsofar.record_next hof]
      · exact (Record.holds_iff digest).mp hspared.1
      · intro other hother hsame
        have hmem := (hshare.written other).mp hother
        have hone : rendered.file file.path = some other :=
          Rendered.file_eq_some.mpr ⟨hmem.1.1, hsame⟩
        rw [Rendered.file_eq_some.mpr ⟨hfile, rfl⟩] at hone
        rw [Option.some.inj hone] at hspared
        exact hmem.2 hspared
    · exact hinserted hshare.distinct file ((hshare.written file).mpr ⟨⟨hfile, hof⟩, hspared⟩)
  · intro path hof hholds
    rw [recorded, remove_paths]
    split
    · rfl
    · rename_i hkept
      rw [hothers, hsofar.record_next hof]
      · rw [hshare.removed] at hkept
        have hnot : before.contains path ≠ true := by
          intro hcontains
          exact hkept ⟨⟨hholds, .inr hcontains⟩, hof⟩
        rw [Ne, Record.contains_iff, Option.isSome_iff_ne_none, not_not] at hnot
        exact hnot
      · rintro file hfile rfl
        have hmem := ((hshare.written file).mp hfile).1.1
        exact absurd (beq_self_eq_true _) (List.any_eq_false.mp hholds file hmem)
  · intro path hother
    obtain ⟨hwritten, hremoved⟩ := hshare.untouched hother
    rw [recorded, remove_paths, if_neg hremoved, hothers path hwritten]

/-- The readers once the next backend's share is done: its own told of what changed, the
others as they were. -/
theorem unread_next
    (hsofar : Sofar hardware digest rendered before start (step.backend :: rest) step.record w)
    (hshare : Share hardware digest rendered before start step) (hdone : step.Done w w₁)
    (reader : Reader) :
    (reader.backend ≠ step.backend → (reader ∈ w₁.unread ↔ reader ∈ w.unread)) ∧
    (reader.backend = step.backend → (reader ∈ w₁.unread ↔
      ¬ Informs hardware digest rendered before start reader ∧ (reader ∈ start.unread ∨
        (reader = .regdom ∧ ∃ path, Stale hardware rendered before start path ∧
          path ∈ start.disk ∧ Reader.of hardware.paths path = some .regdom)))) := by
  have hdevice := hshare.device
  constructor
  · intro hother
    rw [hdone.unread, hshare.tellsOf]
    constructor
    · rintro ⟨-, hmem | ⟨rfl, path, hpath, -, hreader⟩⟩
      · exact hmem
      · rw [hdevice] at hreader
        have hof := ((hshare.removed path).mp hpath).2
        rw [Reader.backend_of hreader] at hof
        exact absurd (Option.some.inj hof) hother
    · intro hmem
      exact ⟨fun htold => hother htold.1, .inl hmem⟩
  · intro hbackend
    have hwaiting := hsofar.waiting reader (hbackend ▸ List.mem_cons_self)
    rw [hdone.unread, hshare.tellsOf, hwaiting]
    simp only [hbackend, true_and]
    refine and_congr_right fun _ => or_congr_right (and_congr_right fun hregdom => ?_)
    apply exists_congr
    intro path
    rw [hdevice, hshare.removed]
    constructor
    · rintro ⟨⟨hstale, hof⟩, hdisk, hreader⟩
      rw [← ExtTreeMap.isSome_getElem?_iff_mem, hsofar.disk_next hof,
        ExtTreeMap.isSome_getElem?_iff_mem] at hdisk
      exact ⟨hstale, hdisk, hreader⟩
    · rintro ⟨hstale, hdisk, hreader⟩
      have hof : Backend.of hardware.paths path = some step.backend := by
        rw [Reader.backend_of hreader, ← hbackend, hregdom]
      refine ⟨⟨hstale, hof⟩, ?_, hreader⟩
      rw [← ExtTreeMap.isSome_getElem?_iff_mem, hsofar.disk_next hof,
        ExtTreeMap.isSome_getElem?_iff_mem]
      exact hdisk

/-- The next backend's share is done, and the record saved. -/
theorem next
    (hsofar : Sofar hardware digest rendered before start (step.backend :: rest) step.record w)
    (hshare : Share hardware digest rendered before start step) (hdone : step.Done w w₁)
    (hdisk : w₂.disk = w₁.disk) (hunread : w₂.unread = w₁.unread)
    (hrecord : w₂.record = some (recorded digest step.record step.written step.removed) ∨
      (w₂.record = w.record ∧
        recorded digest step.record step.written step.removed = step.record))
    (hlast : step.backend ∉ rest) :
    Sofar hardware digest rendered before start rest
      (recorded digest step.record step.written step.removed) w₂ := by
  obtain ⟨hrendered, hforgotten, hothers⟩ := hsofar.recorded_next hshare
  have hleft : ∀ {backend}, backend ∉ rest → backend ≠ step.backend →
      backend ∉ step.backend :: rest := by
    intro backend hrest hne hmem
    rcases List.mem_cons.mp hmem with hmem | hmem
    · exact hne hmem
    · exact hrest hmem
  have hkept : ∀ {path : Path} {backend}, Backend.of hardware.paths path = some backend →
      backend ≠ step.backend → w₂.disk[path]? = w.disk[path]? := by
    intro path backend hof hne
    have huntouched := hshare.untouched (by
      intro found hfound
      rw [hof] at hfound
      rwa [← Option.some.inj hfound])
    rw [hdisk, hdone.others path huntouched.1 huntouched.2]
  constructor
  · intro file hfile backend hof hrest hfresh
    by_cases hbackend : backend = step.backend
    · rw [hdisk]
      exact hdone.written file ((hshare.written file).mpr ⟨⟨hfile, hbackend ▸ hof⟩, hfresh⟩)
    · rw [hkept hof hbackend]
      exact hsofar.written file hfile backend hof (hleft hrest hbackend) hfresh
  · intro path backend hof hrest hstale
    by_cases hbackend : backend = step.backend
    · rw [hdisk]
      exact hdone.removed path ((hshare.removed path).mpr ⟨hstale, hbackend ▸ hof⟩)
    · rw [hkept hof hbackend]
      exact hsofar.gone path backend hof (hleft hrest hbackend) hstale
  · intro path hpath
    have huntouched : (∀ file ∈ step.written, file.path ≠ path) ∧ path ∉ step.removed := by
      constructor
      · rintro file hfile hsame
        obtain ⟨⟨hmem, hof⟩, hfresh⟩ := (hshare.written file).mp hfile
        exact hfresh ((hpath _ (hsame ▸ hof) hlast).1 file hmem hsame)
      · intro hremoved
        obtain ⟨hstale, hof⟩ := (hshare.removed path).mp hremoved
        exact (hpath _ hof hlast).2 hstale
    rw [hdisk, hdone.others path huntouched.1 huntouched.2]
    apply hsofar.others
    intro backend hof hleft
    exact hpath backend hof fun hrest => hleft (List.mem_cons_of_mem _ hrest)
  · intro file hfile backend hof hrest
    by_cases hbackend : backend = step.backend
    · exact hrendered file hfile (hbackend ▸ hof)
    · rw [hothers]
      · exact hsofar.holding file hfile backend hof (hleft hrest hbackend)
      · intro found hfound
        rw [hof] at hfound
        rwa [← Option.some.inj hfound]
  · intro path backend hof hrest hholds
    by_cases hbackend : backend = step.backend
    · exact hforgotten path (hbackend ▸ hof) hholds
    · rw [hothers]
      · exact hsofar.forgotten path backend hof (hleft hrest hbackend) hholds
      · intro found hfound
        rw [hof] at hfound
        rwa [← Option.some.inj hfound]
  · intro path hahead
    rw [hothers]
    · apply hsofar.ahead
      intro backend hof
      exact List.mem_cons_of_mem _ (hahead backend hof)
    · rintro backend hof rfl
      exact hlast (hahead _ hof)
  · rcases hrecord with hsaved | ⟨hsame, hkeeps⟩
    · exact .inl hsaved
    · rw [hsame, hkeeps]
      exact hsofar.saved
  · intro reader hrest
    rw [hunread]
    obtain ⟨hframe, hown⟩ := hsofar.unread_next hshare hdone reader
    by_cases hbackend : reader.backend = step.backend
    · exact hown hbackend
    · rw [hframe hbackend]
      exact hsofar.informed reader (hleft hrest hbackend)
  · intro reader hrest
    have hne : reader.backend ≠ step.backend := by
      rintro hsame
      exact hlast (hsame ▸ hrest)
    rw [hunread, (hsofar.unread_next hshare hdone reader).1 hne]
    exact hsofar.waiting reader (List.mem_cons_of_mem _ hrest)

end Sofar

/-! ## A whole apply -/

section Whole

variable {hardware digest} {rendered : Rendered} {state : Path} {w w' : World δ}

/-- The share of a backend, of the files found to be written and those stale. -/
def shareOf (hardware : Hardware) (backend : Backend) (record : Record δ) (written : List File)
    (gone : List Path) : Step δ where
  backend := backend
  hardware := hardware
  record := record
  written := written
  removed := gone.filter fun path => Backend.of hardware.paths path = some backend

/-- What an apply finds to be written of the next backend is its share. -/
theorem Sofar.share {start : World δ} {items : List (Backend × File)} {gone : List Path}
    {backend : Backend} {rest : List Backend} {record : Record δ} {written : List File}
    (hsofar : Sofar hardware digest rendered (loaded hardware start) start (backend :: rest)
      record w)
    (hwanted : wanted hardware rendered.files = .ok items)
    (hgone : ∀ path, path ∈ gone ↔ Stale hardware rendered (loaded hardware start) start path)
    (hlacking : Returns (E := effects δ hardware.paths) w
      (lacking digest hardware record backend items) written w') :
    Share hardware digest rendered (loaded hardware start) start
      (shareOf hardware backend record written gone) := by
  obtain ⟨-, hsub, hmem⟩ := returns_lacking hardware digest hlacking
  constructor
  · rfl
  · intro file
    rw [shareOf, hmem, mem_wanted hardware hwanted]
    refine and_congr_right fun hfile => not_congr ?_
    exact hsofar.spared_next hfile.2
  · intro path
    simp [shareOf, hgone]
  · rw [wanted_files hardware hwanted] at hsub
    exact (hsub.map File.path).nodup rendered.distinct

/-- A backend with nothing to do is done. -/
theorem Share.skip {start : World δ} {step : Step δ} {rest : List Backend}
    (hshare : Share hardware digest rendered (loaded hardware start) start step)
    (hsofar : Sofar hardware digest rendered (loaded hardware start) start
      (step.backend :: rest) step.record w)
    (hlast : step.backend ∉ rest) (hnothing : step.written = [] ∧ step.removed = []) :
    Sofar hardware digest rendered (loaded hardware start) start rest step.record w := by
  have hdone : step.Done w w := by
    constructor <;> simp [hnothing, Step.TellsOf]
  have hsame : recorded digest step.record step.written step.removed = step.record := by
    simp [hnothing, recorded]
  have hnext := hsofar.next hshare hdone rfl rfl (.inr ⟨rfl, hsame⟩) hlast
  rwa [hsame] at hnext

/-- A backend with its share carried through and the record saved is done. -/
theorem Share.ran {start ran saved : World δ} {step : Step δ} {rest : List Backend}
    (hshare : Share hardware digest rendered (loaded hardware start) start step)
    (hsofar : Sofar hardware digest rendered (loaded hardware start) start
      (step.backend :: rest) step.record w)
    (hlast : step.backend ∉ rest) (hsome : ¬ (step.written = [] ∧ step.removed = []))
    (hrun : Returns (E := step.Effects) w step.run () ran)
    (hsave : Returns (E := effects δ hardware.paths) ran
      ((Program.attempt (E := effects δ hardware.paths)
        (.save (recorded digest step.record step.written step.removed))).mapFail
        (recordError state)) () saved) :
    Sofar hardware digest rendered (loaded hardware start) start rest
      (recorded digest step.record step.written step.removed) saved := by
  have hchanges : step.written ≠ [] ∨ step.removed ≠ [] := by
    by_cases hwritten : step.written = []
    · exact .inr fun hremoved => hsome ⟨hwritten, hremoved⟩
    · exact .inl hwritten
  have hdone := (hshare.proper hchanges).run hrun
  obtain ⟨landed, hlanded, hw⟩ :=
    returns_attempt (E := effects δ hardware.paths) (returns_mapFail hsave)
  rw [hlanded rfl] at hw
  exact hsofar.next hshare hdone (by rw [hw]; rfl) (by rw [hw]; rfl) (.inl (by rw [hw]; rfl)) hlast

/-- The backends in order leave what all of them are to leave. -/
theorem sofar_of_applyBackends {start : World δ} {items : List (Backend × File)}
    {gone : List Path} (hwanted : wanted hardware rendered.files = .ok items)
    (hgone : ∀ path, path ∈ gone ↔ Stale hardware rendered (loaded hardware start) start path)
    (left : List Backend) {record : Record δ} {changes changes' : Changes}
    (hsofar : Sofar hardware digest rendered (loaded hardware start) start left record w)
    (hdistinct : left.Nodup)
    (hreturns : Returns (E := effects δ hardware.paths) w
      (applyBackends digest hardware state items gone left record changes) changes' w') :
    ∃ record', Sofar hardware digest rendered (loaded hardware start) start [] record' w' := by
  induction left generalizing w record changes with
  | nil =>
      obtain ⟨-, rfl⟩ := returns_pure hreturns
      exact ⟨record, hsofar⟩
  | cons backend rest ih =>
      rw [List.nodup_cons] at hdistinct
      obtain ⟨written, looked, hlacking, hafter⟩ := returns_bind hreturns
      have hshare := hsofar.share hwanted hgone hlacking
      obtain ⟨rfl, -, -⟩ := returns_lacking hardware digest hlacking
      dsimp only at hafter
      split at hafter
      · rename_i hnothing
        have hnext := hshare.skip hsofar hdistinct.1 hnothing
        exact ih hnext hdistinct.2 hafter
      · rename_i hsome
        obtain ⟨⟨⟩, ran, hrun, hafter⟩ := returns_bind hafter
        obtain ⟨⟨⟩, saved, hsave, hafter⟩ := returns_bind hafter
        have hnext := hshare.ran hsofar hdistinct.1 hsome hrun hsave
        exact ih hnext hdistinct.2 hafter

/-- What an apply that returns leaves. -/
theorem sofar_of_apply {changes : Changes}
    (happly : Returns (E := effects δ hardware.paths) w
      (apply digest hardware state rendered) changes w') :
    (∀ file ∈ rendered.files, Backend.of hardware.paths file.path ≠ none) ∧
      ∃ record, Sofar hardware digest rendered (loaded hardware w) w [] record w' := by
  unfold apply at happly
  split at happly
  · exact absurd happly not_returns_fail
  · rename_i items hwanted
    constructor
    · intro file hfile hnone
      rw [← wanted_files hardware hwanted] at hfile
      obtain ⟨⟨backend, found⟩, hitem, rfl⟩ := List.mem_map.mp hfile
      rw [((mem_wanted hardware hwanted).mp hitem).2] at hnone
      cases hnone
    · obtain ⟨record, loadedAt, hload, hafter⟩ := returns_bind happly
      obtain ⟨found, foundAt, hfound, hbackends⟩ := returns_bind hafter
      obtain ⟨hrecord, rfl⟩ :=
        returns_attempt (E := effects δ hardware.paths) (o := .load) hload
      obtain ⟨hscan, rfl⟩ :=
        returns_attempt (E := effects δ hardware.paths) (o := .owned) hfound
      have hloaded : record.retain hardware.paths.owns = loaded hardware foundAt := by
        rw [Except.ok.inj hrecord, loaded]
      rw [hloaded, Except.ok.inj hscan] at hbackends
      apply sofar_of_applyBackends hwanted _ Backend.ORDER (.init _ _ _) (by decide) hbackends
      intro path
      exact mem_stale hardware

namespace Sofar

variable {start : World δ} {record : Record δ}

/-- Once every backend is done, the record is of files of ours. -/
theorem foreign (hsofar : Sofar hardware digest rendered (loaded hardware start) start [] record w)
    {path : Path} (hforeign : hardware.paths.owns path = false) :
    record.files[path]? = none := by
  rw [hsofar.ahead, loaded_foreign _ hforeign]
  intro backend hof
  rw [Backend.of_eq_none.mpr hforeign] at hof
  cases hof

/-- Once every backend is done, the next apply starts from the record made. -/
theorem loaded_eq
    (hsofar : Sofar hardware digest rendered (loaded hardware start) start [] record w) :
    loaded hardware w = record := by
  rcases hsofar.saved with hsaved | ⟨hsame, hrecord⟩
  · apply Record.ext
    intro path
    rw [loaded, hsaved, Option.getD_some, Record.getElem?_retain]
    split
    · rfl
    · rename_i hforeign
      rw [hsofar.foreign (by simpa using hforeign)]
  · rw [hrecord, loaded, hsame, loaded]

/-- Once every backend is done, every rendered file is on disk as it was recorded. -/
theorem spared (hsofar : Sofar hardware digest rendered (loaded hardware start) start [] record w)
    (hours : ∀ file ∈ rendered.files, Backend.of hardware.paths file.path ≠ none)
    {file : File} (hfile : file ∈ rendered.files) : Spared digest record w file := by
  obtain ⟨backend, hof⟩ := Option.ne_none_iff_exists'.mp (hours file hfile)
  constructor
  · exact (Record.holds_iff digest).mpr
      (hsofar.holding file hfile backend hof List.not_mem_nil)
  · rw [← ExtTreeMap.isSome_getElem?_iff_mem]
    by_cases hspared : Spared digest (loaded hardware start) start file
    · rw [hsofar.others, ExtTreeMap.isSome_getElem?_iff_mem]
      · exact hspared.2
      · intro found _ _
        constructor
        · intro other hother hsame
          have hone := Rendered.file_eq_some.mpr ⟨hother, hsame⟩
          rw [Rendered.file_eq_some.mpr ⟨hfile, rfl⟩] at hone
          rw [← Option.some.inj hone]
          exact hspared
        · intro hstale
          exact absurd (Rendered.file_eq_none.mpr hstale.1)
            (by rw [Rendered.file_eq_some.mpr ⟨hfile, rfl⟩]; simp)
    · rw [hsofar.written file hfile backend hof List.not_mem_nil hspared]
      rfl

/-- Once every backend is done, nothing is stale. -/
theorem not_stale
    (hsofar : Sofar hardware digest rendered (loaded hardware start) start [] record w)
    (path : Path) : ¬ Stale hardware rendered (loaded hardware w) w path := by
  intro hstale
  obtain ⟨backend, hof⟩ := Option.ne_none_iff_exists'.mp (of_stale hardware hstale)
  obtain ⟨hholds, hthere⟩ := hstale
  rw [hsofar.loaded_eq, Record.contains_iff,
    hsofar.forgotten path backend hof List.not_mem_nil hholds] at hthere
  rcases hthere with ⟨hdisk, hscanned⟩ | hcontains
  · rw [← ExtTreeMap.isSome_getElem?_iff_mem] at hdisk
    by_cases hbefore : Stale hardware rendered (loaded hardware start) start path
    · rw [hsofar.gone path backend hof List.not_mem_nil hbefore] at hdisk
      cases hdisk
    · rw [hsofar.others, ExtTreeMap.isSome_getElem?_iff_mem] at hdisk
      · exact hbefore ⟨hholds, .inl ⟨hdisk, hscanned⟩⟩
      · intro found _ _
        refine ⟨?_, hbefore⟩
        rintro file hfile rfl
        exact absurd (beq_self_eq_true _) (List.any_eq_false.mp hholds file hfile)
  · cases hcontains

end Sofar

end Whole

end Bliti.Network.Apply
