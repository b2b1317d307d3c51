import Bliti.Library.Transition
import Bliti.Network.Apply.Sofar

/-!
# Applying - the disk reconciled

Which of the files of ours an apply that returns leaves as they are rendered, and
who has yet to read them, over every run of applies.

Main results:

- Theorem `applying_reconciles`: over every run.
-/

namespace Bliti.Network.Apply

open Std (ExtTreeMap)
open Interruptible Render

variable {δ : Type} [DecidableEq δ]

section Whole

variable {hardware : Hardware} {digest : String → δ} {rendered : Rendered} {state : Path}
  {w w' : World δ}

/-! ## Applying again -/

/-- Looking for files all in place finds none to write. -/
theorem keeps_lacking {record : Record δ} (backend : Backend) (items : List (Backend × File))
    (hspared : ∀ item ∈ items, Spared digest record w item.2) :
    Keeps (E := effects δ hardware.paths) (· = w) (· = w)
      (lacking digest hardware record backend items) fun written w' => written = [] ∧ w' = w := by
  induction items with
  | nil => exact .pure fun w' hw' => ⟨hw', rfl, hw'⟩
  | cons item rest ih =>
      obtain ⟨of, file⟩ := item
      obtain ⟨hfile, hrest⟩ := List.forall_mem_cons.mp hspared
      unfold lacking
      split
      · apply Keeps.bind fun kept w' => kept = true ∧ w' = w
        · unfold inPlace
          rw [if_pos hfile.1]
          apply Keeps.attempt (E := effects δ hardware.paths) (o := .existsAt file.path)
          · exact fun w' hw' => hw'
          · rintro w' answer w'' rfl ⟨hanswer, rfl⟩
            rw [Except.ok.inj hanswer]
            exact ⟨rfl, by simpa using hfile.2, rfl⟩
          · rintro w' reason w'' rfl ⟨hanswer, -⟩
            cases hanswer
        · intro kept
          apply Keeps.bind fun files w' => kept = true ∧ files = [] ∧ w' = w
          · intro w' hw' w'' out hreach
            obtain ⟨hinv, hpost⟩ := ih hrest w' hw'.2 w'' out hreach
            exact ⟨hinv, fun files hfiles => ⟨hw'.1, hpost files hfiles⟩⟩
          · intro files
            apply Keeps.pure
            rintro w' ⟨rfl, rfl, rfl⟩
            exact ⟨rfl, rfl, rfl⟩
      · exact ih hrest

/-- With every file in place and none stale, no backend has anything to do. -/
theorem keeps_applyBackends {record : Record δ} (items : List (Backend × File))
    (hspared : ∀ item ∈ items, Spared digest record w item.2) (left : List Backend)
    (changes : Changes) :
    Keeps (E := effects δ hardware.paths) (· = w) (· = w)
      (applyBackends digest hardware state items [] left record changes) fun _ w' => w' = w := by
  induction left with
  | nil => exact .pure fun w' hw' => ⟨hw', hw'⟩
  | cons backend rest ih =>
      apply Keeps.bind _ (keeps_lacking backend items hspared)
      intro written
      by_cases hwritten : written = []
      · rw [hwritten]
        exact ih.strengthen fun w' hw' => hw'.2
      · intro w' hw'
        exact absurd hw'.1 hwritten

/-- An apply of what was applied before does nothing. -/
theorem again {changes : Changes}
    (happly : Returns (E := effects δ hardware.paths) w
      (apply digest hardware state rendered) changes w')
    {w'' : World δ} {out : Option (Except String Changes)}
    (hreach : Reaches (E := effects δ hardware.paths) w'
      (apply digest hardware state rendered) w'' out) : w'' = w' := by
  obtain ⟨hours, record, hsofar⟩ := sofar_of_apply happly
  have hkeeps : Keeps (E := effects δ hardware.paths) (· = w') (· = w')
      (apply digest hardware state rendered) fun _ after => after = w' := by
    unfold apply
    split
    · exact .fail fun _ hw => hw
    · rename_i items hwanted
      have hspared : ∀ item ∈ items, Spared digest record w' item.2 := by
        rintro ⟨backend, file⟩ hitem
        exact hsofar.spared hours ((mem_wanted hardware hwanted).mp hitem).1
      have hgone : stale rendered (scan hardware.paths w'.disk) record = [] := by
        rw [List.eq_nil_iff_forall_not_mem]
        intro path hpath
        rw [mem_stale, ← hsofar.loaded_eq] at hpath
        exact hsofar.not_stale path hpath
      apply Keeps.bind fun read after => read = w'.record.getD .empty ∧ after = w'
      · apply Keeps.attempt (E := effects δ hardware.paths) (o := .load)
        · exact fun _ hw => hw
        · rintro after answer after' rfl ⟨hanswer, rfl⟩
          exact ⟨rfl, Except.ok.inj hanswer, rfl⟩
        · rintro after reason after' rfl ⟨hanswer, -⟩
          cases hanswer
      · intro read
        apply Keeps.bind fun found after => read = w'.record.getD .empty ∧
          found = scan hardware.paths w'.disk ∧ after = w'
        · apply Keeps.attempt (E := effects δ hardware.paths) (o := .owned)
          · exact fun _ hw => hw.2
          · rintro after answer after' ⟨hread, rfl⟩ ⟨hanswer, rfl⟩
            exact ⟨rfl, hread, Except.ok.inj hanswer, rfl⟩
          · rintro after reason after' ⟨-, rfl⟩ ⟨hanswer, -⟩
            cases hanswer
        · intro found after hfound after' out' hreach'
          obtain ⟨rfl, rfl, rfl⟩ := hfound
          have hrecord : (after.record.getD .empty).retain hardware.paths.owns = record :=
            hsofar.loaded_eq
          rw [hrecord, hgone] at hreach'
          exact keeps_applyBackends items hspared _ _ _ rfl _ _ hreach'
  exact (hkeeps _ rfl _ _ hreach).1

/-! ## The disk reconciled -/

/-- The files of ours on disk are exactly those rendered, and every reader has picked
up what changed. -/
structure Reconciled (hardware : Hardware) (rendered : Rendered) (w : World δ) : Prop where
  disk : ∀ path, hardware.paths.owns path = true →
    w.disk[path]? = (rendered.file path).map stored
  read : ∀ reader, reader ∉ w.unread

/-- The device agrees with its record as far as an apply relies on it: a file spared
is on disk as it is rendered, a file of ours no longer rendered is looked for or
recorded, a reader left with a change unread has another, and a modprobe file is
rendered where there is one. -/
structure Agrees (hardware : Hardware) (digest : String → δ) (rendered : Rendered)
    (w : World δ) : Prop where
  spared : ∀ file ∈ rendered.files, Spared digest (loaded hardware w) w file →
    w.disk[file.path]? = some (stored file)
  found : ∀ path ∈ w.disk, hardware.paths.owns path = true → rendered.holds path = false →
    Scanned hardware.paths path ∨ (loaded hardware w).contains path = true
  unread : ∀ reader ∈ w.unread,
    Informs hardware digest rendered (loaded hardware w) w reader
  regdom : hardware.paths.modprobe ∈ w.disk → rendered.holds hardware.paths.modprobe = true

/-- The modprobe file is read for the kernel's domain. -/
theorem Reader.of_modprobe (paths : Paths) : Reader.of paths paths.modprobe = some .regdom := by
  have howns : paths.owns paths.modprobe = true := by simp [Paths.owns]
  simp [Reader.of, Backend.of, howns]

/-- The file the kernel's domain is read from is the modprobe file. -/
theorem Reader.eq_modprobe {paths : Paths} {path : Path}
    (hreader : Reader.of paths path = some .regdom) : path = paths.modprobe :=
  Backend.of_eq_regdom (Reader.backend_of hreader)

namespace Sofar

variable {start : World δ} {record : Record δ}

/-- Once every backend is done, a file is left as it was where it is spared, or
neither rendered nor stale. -/
theorem untouched
    (hsofar : Sofar hardware digest rendered (loaded hardware start) start [] record w)
    {path : Path} (hspared : ∀ file, rendered.file path = some file →
      Spared digest (loaded hardware start) start file)
    (hkept : ¬ Stale hardware rendered (loaded hardware start) start path) :
    w.disk[path]? = start.disk[path]? := by
  apply hsofar.others
  intro backend _ _
  refine ⟨?_, hkept⟩
  intro file hfile hsame
  exact hspared file (Rendered.file_eq_some.mpr ⟨hfile, hsame⟩)

/-- Once every backend is done, the files of ours are those rendered exactly where
those spared were, and those not stale were not there. -/
theorem disk_iff
    (hsofar : Sofar hardware digest rendered (loaded hardware start) start [] record w)
    {path : Path} (howns : hardware.paths.owns path = true) :
    w.disk[path]? = (rendered.file path).map stored ↔
      (∀ file, rendered.file path = some file →
        Spared digest (loaded hardware start) start file →
        start.disk[path]? = some (stored file)) ∧
      (rendered.holds path = false → path ∈ start.disk →
        Scanned hardware.paths path ∨ (loaded hardware start).contains path = true) := by
  have hours : Backend.of hardware.paths path ≠ none := by
    rw [Ne, Backend.of_eq_none, howns]
    simp
  obtain ⟨backend, hof⟩ := Option.ne_none_iff_exists'.mp hours
  rcases hfile : rendered.file path with _ | file
  · have hholds := Rendered.file_eq_none.mp hfile
    simp only [Option.map_none, reduceCtorEq, false_implies, implies_true, true_and, hholds,
      true_implies]
    by_cases hstale : Stale hardware rendered (loaded hardware start) start path
    · rw [hsofar.gone path backend hof List.not_mem_nil hstale]
      simp only [true_iff]
      intro hdisk
      exact hstale.2.imp And.right id
    · rw [hsofar.untouched (by simp [hfile]) hstale]
      by_cases hdisk : path ∈ start.disk
      · rw [← Option.not_isSome_iff_eq_none, ExtTreeMap.isSome_getElem?_iff_mem]
        constructor
        · exact absurd hdisk
        · intro hthere _
          exact hstale ⟨hholds, (hthere hdisk).imp (fun hscanned => ⟨hdisk, hscanned⟩) id⟩
      · rw [ExtTreeMap.getElem?_eq_none hdisk]
        simp [hdisk]
  · obtain ⟨hmem, rfl⟩ := Rendered.file_eq_some.mp hfile
    have hkept : ¬ Stale hardware rendered (loaded hardware start) start file.path := by
      intro hstale
      rw [Rendered.file_eq_none.mpr hstale.1] at hfile
      cases hfile
    have hholds : rendered.holds file.path = true :=
      List.any_eq_true.mpr ⟨file, hmem, beq_self_eq_true _⟩
    simp only [Option.map_some, Option.some.injEq, hholds, Bool.true_eq_false, false_implies,
      and_true]
    by_cases hspared : Spared digest (loaded hardware start) start file
    · rw [hsofar.untouched _ hkept]
      · constructor
        · rintro hdisk _ rfl _
          exact hdisk
        · intro hdisk
          exact hdisk file rfl hspared
      · intro other hother
        rw [hfile] at hother
        rw [← Option.some.inj hother]
        exact hspared
    · rw [hsofar.written file hmem backend hof List.not_mem_nil hspared]
      simp only [true_iff]
      rintro _ rfl habsurd
      exact absurd habsurd hspared

/-- Once every backend is done, every reader has picked up what changed exactly where
those left with a change had another, and no domain was taken away. -/
theorem read_iff
    (hsofar : Sofar hardware digest rendered (loaded hardware start) start [] record w) :
    (∀ reader, reader ∉ w.unread) ↔
      (∀ reader ∈ start.unread, Informs hardware digest rendered (loaded hardware start) start reader) ∧
      (hardware.paths.modprobe ∈ start.disk →
        rendered.holds hardware.paths.modprobe = true) := by
  have huninformed : rendered.holds hardware.paths.modprobe = false →
      ¬ Informs hardware digest rendered (loaded hardware start) start .regdom := by
    rintro hholds (⟨file, hfile, -, hreader⟩ | ⟨hne, -⟩)
    · have hpath := Reader.eq_modprobe hreader
      exact absurd (beq_iff_eq.mpr hpath) (List.any_eq_false.mp hholds file hfile)
    · exact hne rfl
  constructor
  · intro hread
    constructor
    · intro reader hreader
      have hnot := hread reader
      rw [hsofar.informed reader List.not_mem_nil] at hnot
      by_cases hinforms : Informs hardware digest rendered (loaded hardware start) start reader
      · exact hinforms
      · exact absurd ⟨hinforms, .inl hreader⟩ hnot
    · intro hdisk
      rcases hholds : rendered.holds hardware.paths.modprobe with _ | _
      · have hnot := hread .regdom
        rw [hsofar.informed .regdom List.not_mem_nil] at hnot
        exact absurd ⟨huninformed hholds, .inr ⟨rfl, hardware.paths.modprobe,
          ⟨hholds, .inl ⟨hdisk, .inr (.inl rfl)⟩⟩, hdisk, Reader.of_modprobe _⟩⟩ hnot
      · rfl
  · rintro ⟨hinformed, hregdom⟩ reader hreader
    rw [hsofar.informed reader List.not_mem_nil] at hreader
    obtain ⟨huninformed, hmem | ⟨-, path, hstale, hdisk, hreader⟩⟩ := hreader
    · exact huninformed (hinformed reader hmem)
    · rw [Reader.eq_modprobe hreader] at hstale hdisk
      exact absurd (hregdom hdisk) (by simp [hstale.1])

end Sofar

/-- An apply that returns reconciles the disk exactly where the device agreed with its
record. -/
theorem reconciled_iff {changes : Changes}
    (happly : Returns (E := effects δ hardware.paths) w
      (apply digest hardware state rendered) changes w') :
    Reconciled hardware rendered w' ↔ Agrees hardware digest rendered w := by
  obtain ⟨hours, record, hsofar⟩ := sofar_of_apply happly
  constructor
  · rintro ⟨hdisk, hread⟩
    obtain ⟨hunread, hregdom⟩ := hsofar.read_iff.mp hread
    constructor
    · intro file hfile hspared
      have howns : hardware.paths.owns file.path = true := by
        rw [← Bool.not_eq_false, ← Backend.of_eq_none]
        exact hours file hfile
      have hone := Rendered.file_eq_some.mpr ⟨hfile, rfl⟩
      exact ((hsofar.disk_iff howns).mp (hdisk _ howns)).1 file hone hspared
    · intro path hpath howns hholds
      exact ((hsofar.disk_iff howns).mp (hdisk _ howns)).2 hholds hpath
    · exact hunread
    · exact hregdom
  · intro hagrees
    constructor
    · intro path howns
      rw [hsofar.disk_iff howns]
      constructor
      · intro file hfile hspared
        obtain ⟨hmem, rfl⟩ := Rendered.file_eq_some.mp hfile
        exact hagrees.spared file hmem hspared
      · intro hholds hpath
        exact hagrees.found path hpath howns hholds
    · exact hsofar.read_iff.mpr ⟨hagrees.unread, hagrees.regdom⟩

end Whole

/-! ## Runs -/

/-- What may happen to a device: a render is applied, however far that gets, or the
record's file is lost. -/
inductive Act where
  | apply (rendered : Rendered)
  | lose

/-- A device over a run, with the render last applied that returned, where nothing was
since. -/
structure Device (δ : Type) where
  world : World δ
  last : Option Rendered

/-- The render last applied that returned, with nothing done since, is what the disk
holds and every reader has picked up. -/
def Device.AsRendered (hardware : Hardware) (d : Device δ) : Prop :=
  ∀ rendered, d.last = some rendered → Reconciled hardware rendered d.world

/-- A device as it boots. -/
def Device.boot : Device δ where
  world := { disk := ∅, record := none, unread := [], events := [] }
  last := none

section Runs

variable (digest : String → δ) (hardware : Hardware) (state : Path)

/-- A device applying renders. -/
def applying : Transition.System (Device δ) Act where
  init d := d = .boot
  step d act d' :=
    match act with
    | .apply rendered => ∃ out,
        Reaches (E := effects δ hardware.paths) d.world
          (apply digest hardware state rendered) d'.world out ∧
        d'.last = match out with
          | some (.ok _) => some rendered
          | _ => none
    | .lose => d' = { d with world := { d.world with record := none } }

/-- The runs in which every apply starts on a device that agrees with its record. -/
def agreeing : Transition.System (Device δ) Act :=
  (applying digest hardware state).guarded fun d act =>
    ∀ rendered, act = .apply rendered → Agrees hardware digest rendered d.world

/-- In every run whose applies start on a device that agrees with its record, the disk
is as the last to return rendered it and every reader has picked up what changed.
Over all runs an apply that returns reconciles exactly where the device agreed, and
the same again then does nothing, wherever it is cut. -/
theorem applying_reconciles :
    (∀ d, (agreeing digest hardware state).Reachable d → d.AsRendered hardware) ∧
    ∀ w w' rendered changes,
      Returns (E := effects δ hardware.paths) w (apply digest hardware state rendered)
        changes w' →
      (Reconciled hardware rendered w' ↔ Agrees hardware digest rendered w) ∧
      ∀ w'' out, Reaches (E := effects δ hardware.paths) w'
        (apply digest hardware state rendered) w'' out → w'' = w' := by
  constructor
  · intro d hreach
    apply hreach.invariant
    · rintro d rfl rendered hlast
      cases hlast
    · rintro d act d' - hreconciled ⟨hguard, hstep⟩ rendered hlast
      cases act with
      | lose =>
          rw [hstep] at hlast ⊢
          obtain ⟨hdisk, hread⟩ := hreconciled rendered hlast
          exact ⟨hdisk, hread⟩
      | apply other =>
          obtain ⟨out, hout, hsame⟩ := hstep
          rw [hlast] at hsame
          split at hsame
          · rw [Option.some.inj hsame]
            exact (reconciled_iff hout).mpr (hguard other rfl)
          · cases hsame
  · intro w w' rendered changes happly
    exact ⟨reconciled_iff happly, fun w'' out hreach => again happly hreach⟩

/-- A device with a render applied to it, where chosen operations fail. -/
def Device.applied (fails : Op δ → Bool) (rendered : Rendered) (d : Device δ) : Device δ :=
  let done := (apply digest hardware state rendered).run
    (World.handle hardware.paths fails) d.world
  { world := done.2
    last := match done.1 with
      | .ok _ => some rendered
      | .error _ => none }

/-- A render applied is a step of a run. -/
theorem applying_applied (fails : Op δ → Bool) (rendered : Rendered) (d : Device δ) :
    (applying digest hardware state).step d (.apply rendered)
      (d.applied digest hardware state fails rendered) := by
  have hreaches := reaches_run (E := effects δ hardware.paths)
    (World.handle_possible hardware.paths fails) (apply digest hardware state rendered) d.world
  unfold Device.applied
  generalize (apply digest hardware state rendered).run (World.handle hardware.paths fails)
    d.world = done at hreaches ⊢
  obtain ⟨result, w'⟩ := done
  refine ⟨some result, hreaches, ?_⟩
  cases result <;> rfl

end Runs

/-! ## A reload that fails -/

/-- A device with a wired interface and no radio. -/
def wiredDevice : Hardware where
  wired := ["eth0"]
  radios := []
  paths := .system

/-- The state directory of a device. -/
def STATE : Path := ["run", "bliti", "network"]

/-- A render of one wired link. -/
def wiredRender (contents : String) : Rendered where
  files := [{
    path := Paths.system.networkd.join "50-bliti-eth0.network"
    contents := contents
    mode := PUBLIC }]
  distinct := by simp

/-- A device with a wired link's render applied, where networkd reloads or fails to. -/
def Device.wired (reloads : Bool) (contents : String) (d : Device String) : Device String :=
  d.applied id wiredDevice STATE
    (fun op =>
      match op with
      | .call .reloadNetworkd => !reloads
      | _ => false)
    (wiredRender contents)

/-- A device boots in agreement with its record. -/
theorem wired_agrees (contents : String) :
    Agrees wiredDevice (id : String → String) (wiredRender contents) Device.boot.world := by
  constructor
  · intro file _ hspared
    exact absurd hspared.2 (by simp [Device.boot])
  · intro path hpath
    exact absurd hpath (by simp [Device.boot])
  · intro reader hreader
    exact absurd hreader (by simp [Device.boot])
  · intro hdisk
    exact absurd hdisk (by simp [Device.boot])

/-- The first render of a boot is reconciled. -/
theorem wired_reconciles :
    Reconciled wiredDevice (wiredRender "DHCP=yes\n")
      (Device.boot.wired true "DHCP=yes\n").world := by
  apply (applying_reconciles (id : String → String) wiredDevice STATE).1 (Device.boot.wired true _)
  · apply Transition.System.Reachable.next (.start rfl)
    refine ⟨?_, applying_applied id wiredDevice STATE _ (wiredRender "DHCP=yes\n") .boot⟩
    rintro rendered hsame
    rw [← Act.apply.inj hsame]
    exact wired_agrees _
  · decide

/-- A render whose reload failed stays on disk under the render before it, applied
again and answered with success: its record was never made, and the record of the
one before still says what the disk no longer holds. -/
theorem applying_unreconciled :
    ¬ ∀ d, (applying (id : String → String) wiredDevice STATE).Reachable d →
      d.AsRendered wiredDevice := by
  intro hclaim
  let first := Device.boot.wired true "DHCP=yes\n"
  let second := first.wired false "DHCP=no\n"
  let third := second.wired true "DHCP=yes\n"
  have hthird : (applying (id : String → String) wiredDevice STATE).Reachable third :=
    (((Transition.System.Reachable.start rfl).next
      (applying_applied id wiredDevice STATE _ (wiredRender "DHCP=yes\n") .boot)).next
      (applying_applied id wiredDevice STATE _ (wiredRender "DHCP=no\n") first)).next
      (applying_applied id wiredDevice STATE _ (wiredRender "DHCP=yes\n") second)
  have hlast : third.last = some (wiredRender "DHCP=yes\n") := by decide +kernel
  have hdisk := (hclaim third hthird _ hlast).disk
    (Paths.system.networkd.join "50-bliti-eth0.network") (by decide)
  exact absurd hdisk (by decide +kernel)

end Bliti.Network.Apply
