import Bliti.Facts.Power.Learn.Kept
import Bliti.Facts.Power.Supply.Documents
import Bliti.Library.Transition

/-!
# The backup supply - the curves in force are those a restart loads

Loads, resets, refinements and finished charges all replace the one curve file, and any step of
replacing it may fail or be cut short.

Main results:

- Theorem `supplying_inForce`: the runs in which no save that puts a document in force fails once the
  file is replaced keep it so.
-/

namespace Bliti.Facts.Power

/-! ## Calls and power cuts -/

/-- A call on a supply: a load, a reset, what a run taught recorded as a shutdown begins, or a look. -/
inductive Change where
  | load (document : Document) (fails : Option SaveFault)
  | reset (fails : Option SaveFault)
  | shutdown (fails : Option SaveFault)
  | look (look : Look) (now : Duration) (atMillis : ℕ) (uptime : Option Duration) (saves : Saves)

/-- A call that ends, or one the daemon dies in the middle of, its saves having done what they do
where they fail there; a file replaced whose directory has not been synced is lost then, or is not. -/
inductive Calling where
  | ended (change : Change)
  | cut (change : Change) (lost : Bool)

namespace State

/-- What a call leaves. -/
def change (doubles : Doubles) (s : State) : Change → State
  | .load document fails => (s.load document fails).1
  | .reset fails => (s.reset fails).1
  | .shutdown fails => (s.learnFromRun doubles fails).settle
  | .look look now atMillis uptime saves => (s.observe doubles look now atMillis uptime saves).1

/-- What a call that ends leaves, or what the daemon starts from after one it died in. -/
def called (doubles : Doubles) (s : State) : Calling → State
  | .ended change => s.change doubles change
  | .cut change lost => .new ((s.change doubles change).disk.cut lost)

/-- The document in force is the one last sent to the curve streams, and the one loaded from the
disk, whether or not what its directory holds unsynced is lost; and a disk no gauge has answered on
holds nothing unsynced. -/
structure InForce (doubles : Doubles) (s : State) : Prop where
  watched : s.curves = s.document
  loaded : ∀ document ∈ s.document, ∀ lost, ((s.disk.cut lost).load doubles).document = document
  mounted : s.document = none → s.disk.file = s.disk.lasting

/-- A call leaves the document in force, the one on the curve streams, and what is loaded from the
disk. -/
structure Unmoved (doubles : Doubles) (s s' : State) : Prop where
  document : s'.document = s.document
  curves : s'.curves = s.curves
  load : s'.disk.load doubles = s.disk.load doubles

/-- A save that puts a document in force fails once the file is replaced only where the file held the
same already. -/
def Whole (doubles : Doubles) (s : State) (document : Document) (fails : Option SaveFault) : Prop :=
  ∀ fault ∈ fails, fault.step.renamed = true → ∀ stored ∈ s.stored,
    s.disk.load doubles = { stored with document := document }

/-- No save that puts a document in force fails once the file is replaced. -/
def Lasts (doubles : Doubles) (s : State) : Calling → Prop
  | .ended (.load document fails) => s.Whole doubles document fails
  | .ended (.reset fails) => s.Whole doubles .shipped fails
  | .ended (.shutdown fails) => ∀ fault ∈ fails, fault.step.renamed = false
  | .ended (.look _ _ _ _ saves) => ∀ fault ∈ saves.curve, fault.step.renamed = false
  | .cut _ _ => True

end State

/-- A supply on a disk holding something, and the calls on it, in any order. -/
def supplying (doubles : Doubles) (contents : Contents) : Transition.System State Calling where
  init s := s = .new { file := contents, lasting := contents }
  step s calling s' := s' = s.called doubles calling

/-! ## What a save leaves to be loaded -/

section Disk

variable {doubles : Doubles} {disk disk' : Disk} {stored : Stored}

/-- What is loaded is read off the file. -/
theorem Disk.load_file (hfile : disk.file = disk'.file) : disk.load doubles = disk'.load doubles := by
  unfold load read
  rw [hfile]

/-- A disk not cut short loads what its file holds. -/
theorem Disk.cut_false_load (disk : Disk) : (disk.cut false).load doubles = disk.load doubles :=
  load_file rfl

/-- A disk that holds nothing unsynced loses nothing. -/
theorem Disk.cut_load (hmounted : disk.file = disk.lasting) (lost : Bool) :
    (disk.cut lost).load doubles = disk.load doubles := by
  cases lost with
  | false => exact disk.cut_false_load
  | true => exact load_file hmounted.symm

/-- A save leaves a document to be loaded where it did before and saves that document, however it
ends. -/
theorem Disk.save_loads {document : Document}
    (hloads : ∀ lost, ((disk.cut lost).load doubles).document = document)
    (hstored : stored.document = document) (fails : Option SaveFault) (lost : Bool) :
    (((disk.save stored fails).1.cut lost).load doubles).document = document := by
  have hwritten : ∀ disk' : Disk, disk'.file = .json stored.toJson →
      (disk'.load doubles).document = document := by
    intro disk' hfile
    rw [load_written hfile, hstored]
  rcases hsave : disk.save stored fails with ⟨disk', result⟩
  unfold save at hsave
  split at hsave
  · cases hsave
    rw [Disk.cut_load rfl]
    exact hwritten _ rfl
  · split at hsave
    · cases hsave
      cases lost with
      | false => exact hwritten _ rfl
      | true => exact hloads true
    · cases hsave
      exact hloads lost

end Disk

/-! ## What each call keeps in force -/

namespace State

variable {doubles : Doubles} {s s' : State}

/-- A supply no gauge has answered on has no document in force. -/
theorem new_inForce (doubles : Doubles) {disk : Disk} (hmounted : disk.file = disk.lasting) :
    InForce doubles (.new disk) where
  watched := rfl
  loaded := nofun
  mounted := fun _ => hmounted

/-- The curves and their file alone say what is in force. -/
theorem InForce.of_curves (hforce : s.InForce doubles) (hdisk : s'.disk = s.disk)
    (hstored : s'.stored = s.stored) (hcurves : s'.curves = s.curves) : s'.InForce doubles := by
  have hdocument : s'.document = s.document := by
    unfold State.document
    rw [hstored]
  refine ⟨?_, ?_, ?_⟩
  · rw [hcurves, hdocument]
    exact hforce.watched
  · rw [hdocument, hdisk]
    exact hforce.loaded
  · rw [hdocument, hdisk]
    exact hforce.mounted

/-- Putting a document in force keeps it so, unless its save fails once the file is replaced. -/
theorem InForce.replace (hforce : s.InForce doubles) {document : Document} {fails : Option SaveFault}
    (hwhole : s.Whole doubles document fails) : (s.replace document fails).1.InForce doubles := by
  unfold State.replace
  split
  · exact hforce
  · rename_i stored hstored
    have hdocument : s.document = some stored.document := by
      unfold State.document
      rw [hstored]
      rfl
    have hloaded := hforce.loaded stored.document hdocument
    set next : Stored := { stored with document := document }
    dsimp only
    rcases fails with _ | fault
    · -- The file and the document in force are the same from here on.
      refine ⟨rfl, ?_, nofun⟩
      rintro held hheld lost
      cases hheld
      rw [Disk.cut_load rfl, Disk.load_written rfl]
    · have hkept : ∀ lost, (((s.disk.save next (some fault)).1.cut lost).load doubles).document =
          stored.document := by
        intro lost
        unfold Disk.save
        dsimp only
        split_ifs with hrenamed
        · cases lost with
          | true => exact hloaded true
          | false =>
              -- The file was replaced by what it held.
              have hsame := hwhole fault rfl hrenamed stored hstored
              rw [Disk.load_written rfl]
              change next.document = _
              rw [← hloaded false, Disk.cut_false_load, hsame]
        · exact hloaded lost
      have herror : ∃ disk err, s.disk.save next (some fault) = (disk, .error err) := by
        unfold Disk.save
        dsimp only
        split_ifs
        · exact ⟨_, _, rfl⟩
        · exact ⟨_, _, rfl⟩
      obtain ⟨disk, err, hsave⟩ := herror
      rw [hsave] at hkept ⊢
      refine ⟨hforce.watched, ?_, ?_⟩
      · intro held hheld lost
        change s.document = some held at hheld
        rw [hdocument] at hheld
        cases hheld
        exact hkept lost
      · intro hnone
        change s.document = none at hnone
        rw [hdocument] at hnone
        cases hnone

/-- A document not put in force leaves what is, unless its save fails once the file is replaced. -/
theorem replace_unmoved {document : Document} {fails : Option SaveFault}
    (hwhole : s.Whole doubles document fails) {err : Unchanged}
    (herror : (s.replace document fails).2 = .error err) :
    s.Unmoved doubles (s.replace document fails).1 := by
  unfold State.replace at herror ⊢
  split at herror
  · exact ⟨rfl, rfl, rfl⟩
  · rename_i stored hstored
    dsimp only at herror ⊢
    rcases hsave : s.disk.save { stored with document := document } fails with ⟨disk, result⟩
    rw [hsave] at herror
    rcases Disk.save_cases hsave with ⟨-, rfl, -⟩ |
      ⟨fault, hfails, rfl, ⟨hrenamed, hfile⟩ | ⟨-, rfl⟩⟩
    · cases herror
    · refine ⟨rfl, rfl, ?_⟩
      have hsame := hwhole fault hfails hrenamed stored hstored
      change disk.load doubles = s.disk.load doubles
      rw [Disk.load_written hfile, hsame]
    · exact ⟨rfl, rfl, rfl⟩

variable {fails : Option SaveFault}

/-- A save that fails only before the file is replaced puts any document in force whole. -/
theorem whole_of_before (hbefore : ∀ fault ∈ fails, fault.step.renamed = false)
    (document : Document) : s.Whole doubles document fails := by
  intro fault hfault hrenamed
  rw [hbefore fault hfault] at hrenamed
  cases hrenamed

/-- Putting a refined document in force keeps it so. -/
theorem InForce.refine (hforce : s.InForce doubles)
    (hbefore : ∀ fault ∈ fails, fault.step.renamed = false) (which : Learn.Which)
    (refined : Except Invalid Document) : (s.refine which refined fails).InForce doubles := by
  unfold State.refine
  split
  · exact hforce
  · split
    · exact hforce
    · exact hforce.replace (whole_of_before hbefore _)

theorem InForce.learnFromCharge (hforce : s.InForce doubles)
    (hbefore : ∀ fault ∈ fails, fault.step.renamed = false) (now : Duration) (charge : Charge) :
    (s.learnFromCharge doubles now charge fails).InForce doubles := by
  unfold State.learnFromCharge
  split
  · exact hforce
  · dsimp only
    split
    · exact hforce.refine hbefore _ _
    · exact hforce

theorem InForce.learnFromRun (hforce : s.InForce doubles)
    (hbefore : ∀ fault ∈ fails, fault.step.renamed = false) :
    (s.learnFromRun doubles fails).InForce doubles := by
  have hrun : InForce doubles { s with run := none } := hforce.of_curves rfl rfl rfl
  unfold State.learnFromRun
  split
  · dsimp only
    split
    · exact hrun.refine hbefore _ _
    · exact hrun
  · exact hrun

theorem InForce.manage (hforce : s.InForce doubles) : (s.manage doubles).InForce doubles := by
  unfold State.manage
  split
  · exact hforce
  · rename_i hstored
    refine ⟨rfl, ?_, nofun⟩
    rintro document hdocument lost
    cases hdocument
    have hmounted := hforce.mounted (by rw [State.document, hstored]; rfl)
    exact congrArg Stored.document (Disk.cut_load hmounted lost)

theorem InForce.chargeFinished (hforce : s.InForce doubles) {saves : Saves}
    (hbefore : ∀ fault ∈ saves.curve, fault.step.renamed = false) (now : Duration) (gauge : Gauge) :
    (s.chargeFinished doubles now gauge saves).InForce doubles := by
  obtain ⟨disk, stored, hdocument, hdisk, hfinished⟩ :=
    s.chargeFinished_eq doubles now gauge saves
  have hsaved : ∀ charge, InForce doubles { s with disk := disk, stored := stored, charge := charge } := by
    intro charge
    refine ⟨?_, ?_, ?_⟩
    · exact hforce.watched.trans hdocument.symm
    · intro held hheld lost
      change stored.map Stored.document = some held at hheld
      have hloaded := hforce.loaded held (hdocument ▸ hheld)
      rcases hdisk with rfl | ⟨next, rfl, rfl⟩
      · exact hloaded lost
      · exact Disk.save_loads hloaded (Option.some.inj hheld) saves.full lost
    · intro hnone
      change stored.map Stored.document = none at hnone
      rcases hdisk with rfl | ⟨next, rfl, rfl⟩
      · exact hforce.mounted (hdocument ▸ hnone)
      · cases hnone
  rw [hfinished]
  split
  · exact (hsaved none).learnFromCharge hbefore now _
  · exact hsaved s.charge

theorem InForce.observe (hforce : s.InForce doubles) {saves : Saves}
    (hbefore : ∀ fault ∈ saves.curve, fault.step.renamed = false) (look : Look) (now : Duration)
    (atMillis : ℕ) (uptime : Option Duration) :
    (s.observe doubles look now atMillis uptime saves).1.InForce doubles := by
  rcases hgauge : look.gauge with unanswered | gauge
  · obtain ⟨seen, hobserve⟩ := observe_error doubles now hgauge s atMillis uptime saves
    rw [hobserve]
    exact hforce.of_curves rfl rfl rfl
  · obtain ⟨hdisk, hstored, hcurves⟩ := observe_looked doubles now hgauge s atMillis uptime saves
    refine InForce.of_curves ?_ hdisk hstored hcurves
    have hmanaged := hforce.manage
    unfold State.observeFull
    split
    · split
      · refine InForce.chargeFinished ?_ hbefore now gauge
        exact hmanaged.of_curves rfl rfl rfl
      · exact hmanaged.of_curves rfl rfl rfl
    · exact hmanaged.of_curves rfl rfl rfl
    · exact hmanaged

/-- Whatever is called keeps in force what is, where no save that puts a document in force fails once
the file is replaced. -/
theorem InForce.called (hforce : s.InForce doubles) {calling : Calling}
    (hlasts : s.Lasts doubles calling) : (s.called doubles calling).InForce doubles := by
  cases calling with
  | cut change lost =>
      apply new_inForce
      cases lost with
      | false => rfl
      | true => rfl
  | ended change =>
      cases change with
      | load document fails => exact hforce.replace hlasts
      | reset fails => exact hforce.replace hlasts
      | shutdown fails => exact (hforce.learnFromRun hlasts).of_curves rfl rfl rfl
      | look look now atMillis uptime saves => exact hforce.observe hlasts look now atMillis uptime

end State

/-- In the runs in which no save that puts a document in force fails once the file is replaced, the
document in force is always the one on the curve streams and the one a restart loads; and a load or a
reset that fails leaves all three. -/
theorem supplying_inForce {doubles : Doubles} {contents : Contents} {s : State}
    (hreach : ((supplying doubles contents).guarded (State.Lasts doubles)).Reachable s) :
    s.InForce doubles ∧
      (∀ document fails err, s.Lasts doubles (.ended (.load document fails)) →
        (s.load document fails).2 = .error err → s.Unmoved doubles (s.load document fails).1) ∧
      ∀ fails err, s.Lasts doubles (.ended (.reset fails)) →
        (s.reset fails).2 = .error err → s.Unmoved doubles (s.reset fails).1 := by
  refine ⟨?_, fun _ _ _ hlasts herror => State.replace_unmoved hlasts herror,
    fun _ _ hlasts herror => State.replace_unmoved hlasts herror⟩
  refine hreach.invariant ?_ ?_
  · rintro s rfl
    exact State.new_inForce doubles rfl
  · rintro s calling s' - hforce ⟨hlasts, rfl⟩
    exact hforce.called hlasts

/-! ## A load that fails once the file is replaced -/

/-- A supply whose gauge has answered, on a disk with no curve file. -/
def managed : State :=
  State.called .decimal (.new { file := .absent, lasting := .absent })
    (.ended (.look { gauge := .ok { volts := 4, charge := 90 }, external := none } 0 0 none
      ⟨none, none⟩))

/-- The directory of the curve file could not be synced. -/
def unsynced : SaveFault where
  step := .syncDirectory
  err := "Input/output error (os error 5)"

/-- A load on it that succeeds puts its document in force. -/
theorem supplying_managed :
    ((supplying .decimal .absent).guarded (State.Lasts .decimal)).Reachable
        (managed.load Learn.countedOut none).1 ∧
      (managed.load Learn.countedOut none).1.document = some Learn.countedOut ∧
      (managed.load Learn.countedOut none).1.InForce .decimal := by
  have hmanaged : ((supplying .decimal .absent).guarded (State.Lasts .decimal)).Reachable managed := by
    refine .next (.start rfl) ⟨?_, rfl⟩
    intro fault hfault
    cases hfault
  have hreach : ((supplying .decimal .absent).guarded (State.Lasts .decimal)).Reachable
      (managed.load Learn.countedOut none).1 := by
    refine .next (a := .ended (.load Learn.countedOut none)) hmanaged ⟨?_, rfl⟩
    intro fault hfault
    cases hfault
  exact ⟨hreach, rfl, (supplying_inForce hreach).1⟩

/-- A load whose directory cannot be synced fails, and leaves its document to be loaded at a restart
though it is not in force. -/
theorem supplying_parted :
    (supplying .decimal .absent).Reachable managed ∧
      (managed.load Learn.countedOut (some unsynced)).2 = .error (.save (.io unsynced.err)) ∧
      (supplying .decimal .absent).Reachable (managed.load Learn.countedOut (some unsynced)).1 ∧
      ¬(managed.load Learn.countedOut (some unsynced)).1.InForce .decimal ∧
      ¬managed.Unmoved .decimal (managed.load Learn.countedOut (some unsynced)).1 := by
  have hmanaged : (supplying .decimal .absent).Reachable managed := .next (.start rfl) rfl
  have hreach : (supplying .decimal .absent).Reachable
      (managed.load Learn.countedOut (some unsynced)).1 :=
    .next (a := .ended (.load Learn.countedOut (some unsynced))) hmanaged rfl
  have hload : ((managed.load Learn.countedOut (some unsynced)).1.disk.load .decimal).document =
      Learn.countedOut := by
    rw [Disk.load_written rfl]
  have hother : Learn.countedOut ≠ .shipped := by
    intro hsame
    have hlearnt := congrArg (fun document => document.discharging.learntFrom) hsame
    revert hlearnt
    decide
  refine ⟨hmanaged, rfl, hreach, fun hforce => hother ?_, fun hunmoved => hother ?_⟩
  · rw [← hload, ← Disk.cut_false_load]
    exact hforce.loaded .shipped rfl false
  · rw [← hload, hunmoved.load]
    rfl

end Bliti.Facts.Power
