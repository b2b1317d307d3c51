import Bliti.Provision.Engine.Tidy
import Bliti.Provision.Steps.Eeprom

/-!
# Provisioning - a step's work ends with the step

What holds between two stretches holds from the start on, and with it: at most one step's
work can change the board, only while the model shows that step being carried out, and
none goes on while done-states are read or another step is begun.

Main results:

- Theorem `apart_of_tidy`: a step's work ends with it in every run that leaves none behind.
-/

namespace Bliti.Provision.Engine

open Channel.Messages (Answer)

variable {φ Date L : Type}

/-! ## The start -/

section Start

variable {model : Model φ Date} {stored : Stored}

/-- Steps passed leave the run under way, with its prompts and its steps. -/
theorem passes_kept (passed : List Nat) (model : Model φ Date) :
    (passed.foldl Model.pass model).state = model.state ∧
      (passed.foldl Model.pass model).prompts = model.prompts ∧
      (passed.foldl Model.pass model).steps.length = model.steps.length := by
  induction passed generalizing model with
  | nil => exact ⟨rfl, rfl, rfl⟩
  | cons index rest ih =>
      obtain ⟨hstate, hprompts, hlength⟩ := ih (model.pass index)
      exact ⟨hstate, hprompts, hlength.trans (List.length_modify _ _ _)⟩

/-- A run begun has the steps of its device. -/
theorem beginRun_length (model : Model φ Date) (chosen : List Nat) :
    (model.beginRun chosen).steps.length = model.steps.length := by
  have hkeeps : ∀ (places : List Nat) (start : Model φ Date),
      (places.foldl (fun model index => model.setStep index fun entry =>
        { entry with state := .pending }) start).steps.length = start.steps.length := by
    intro places
    induction places with
    | nil => exact fun start => rfl
    | cons place rest ih =>
        exact fun start => (ih _).trans (List.length_modify _ _ _)
  exact (hkeeps chosen model.clearRun).trans (List.length_map _)

/-- A run kept that is held is under way or failed, with no prompt open; one that matches no
steps leaves the device idle. -/
theorem adopt_cases (hidle : model.state = .idle) (hempty : model.prompts = []) :
    (adopt model stored).2.prompts = [] ∧
      ((adopt model stored).1 = true →
        (adopt model stored).2.state = .running ∨
          ((adopt model stored).2.state = .failed ∧
            ∃ entry ∈ (adopt model stored).2.steps, entry.state = .failed)) ∧
      ((adopt model stored).1 = false → (adopt model stored).2.state = .idle) := by
  unfold adopt
  split
  · rename_i chosen passed _ _
    simp only
    split
    · exact ⟨hempty, fun h => by (cases h), fun _ => hidle⟩
    · obtain ⟨hrunning, -, hprompts⟩ := model.beginRun_begun chosen
      obtain ⟨hstate, hopen, hlength⟩ := passes_kept passed (model.beginRun chosen)
      split
      · rename_i index reason hfailed
        split
        · refine ⟨hopen.trans hprompts, fun _ => Or.inr ⟨rfl, ?_⟩, fun h => by cases h⟩
          obtain ⟨kept, -, hkept⟩ := Option.map_eq_some_iff.mp hfailed
          have hfound : model.indexOf kept.step = some index := congrArg Prod.fst hkept
          rw [Model.indexOf, List.findIdx?_eq_some_iff_getElem] at hfound
          obtain ⟨hlt, -⟩ := hfound
          apply Model.fail_failed
          rwa [hlength, beginRun_length]
        · exact ⟨rfl, fun h => by (cases h), fun _ => rfl⟩
      · exact ⟨hopen.trans hprompts, fun _ => Or.inl (hstate.trans hrunning), fun h => by cases h⟩
  · exact ⟨hempty, fun h => by (cases h), fun _ => hidle⟩

/-- A provisioner whose model is all there is, but for a task of its run. -/
def fresh (model : Model φ Date) (published : Snapshot φ Date) (medium : Option Stored)
    (drives : List (Drive φ L)) : Engine φ Date L where
  model := model
  published := published
  medium := medium
  disk := none
  handle := none
  drives := drives
  pool := []
  savers := []
  calls := []
  determinations := []
  delivered := []
  channels := 0
  told := none

/-- Such a provisioner is in good order where no prompt is open, a run that failed shows the step
that did, and a task carries out the run under way. -/
theorem Orderly.of_fresh {published : Snapshot φ Date} {medium : Option Stored}
    {drives : List (Drive φ L)} (hprompts : model.prompts = [])
    (hfailed : model.state = .failed → ∃ entry ∈ model.steps, entry.state = .failed)
    (hdrives : drives = [] ∨
      (drives = [{ generation := model.generation, phase := .top }] ∧ model.state = .running)) :
    Orderly (fresh model published medium drives) := by
  have hfree : model.HeldBy none := by
    intro prompt hmem
    rw [hprompts] at hmem
    cases hmem
  have hone : ∀ (task : Nat) (drive : Drive φ L), drives[task]? = some drive →
      drive = { generation := model.generation, phase := .top } ∧ model.state = .running := by
    intro task drive hget
    rcases hdrives with rfl | ⟨rfl, hrunning⟩
    · simp at hget
    · exact ⟨List.mem_singleton.mp (List.mem_of_getElem? hget), hrunning⟩
  refine {
    one := fun generation => ?_
    ahead := fun generation hlt => ?_
    begun := fun hmem => by cases hmem
    shows := fun task drive hget hsame => ?_
    stuck := fun task drive hget hended => ?_
    awaited := fun task drive hget channel hwaits => ?_
    free := fun _ => hfree
    failed := hfailed
    pooled := fun work pooled hwork => by simp [fresh] at hwork
    single := fun work pooled work' pooled' hwork => by simp [fresh] at hwork
    reading := fun found quiet hmem => by cases hmem
    told := fun found quiet hsome => by cases hsome }
  · rcases hdrives with rfl | ⟨rfl, -⟩
    · exact Nat.zero_le 1
    · exact List.countP_le_length
  · have hlt' : model.generation < generation := hlt
    rcases hdrives with rfl | ⟨rfl, -⟩
    · rfl
    · have hne : model.generation ≠ generation := by omega
      simp [tasks, fresh, hne]
  · obtain ⟨rfl, hrunning⟩ := hone task drive hget
    exact ⟨hrunning, hfree⟩
  · obtain ⟨rfl, -⟩ := hone task drive hget
    exact absurd rfl hended
  · obtain ⟨rfl, -⟩ := hone task drive hget
    exact absurd hwaits (not_waits rfl channel)

variable [BEq φ] [BEq Date]

/-- A provisioner starts in good order, whatever the medium holds. -/
theorem Orderly.start (device : Device φ Date L) (medium loaded : Option Stored)
    (cleared : Bool) : Orderly (Engine.start device medium loaded cleared) := by
  unfold Engine.start
  cases loaded with
  | none =>
      have hfresh : Orderly (fresh (initial device) (initial device).snapshot medium
          ([] : List (Drive φ L))) :=
        Orderly.of_fresh rfl (fun hstate => by cases hstate) (Or.inl rfl)
      exact hfresh.asked_for
  | some stored =>
      have hcases : (adopt (initial device) stored).2.prompts = [] ∧ _ ∧ _ := adopt_cases rfl rfl
      cases hadopt : adopt (initial device) stored with
      | mk adopted model =>
          rw [hadopt] at hcases
          obtain ⟨hempty, hheld, hcleared⟩ := hcases
          simp only at hempty hheld hcleared
          obtain ⟨published, hpublish⟩ := publish_eq
            (fresh model (initial device).snapshot medium ([] : List (Drive φ L)))
          have hrun : model.run = model.state := by
            simp [Model.run, hempty]
          unfold fresh at hpublish
          simp only [hadopt, hpublish]
          split
          · rename_i hadopted
            split
            · refine Orderly.of_fresh hempty (fun hstate => ?_) (Or.inl rfl)
              rcases hheld hadopted with hrunning | ⟨-, hfailed⟩
              · rw [hrunning] at hstate
                cases hstate
              · exact hfailed
            · rename_i hnot
              have hrunning : model.state = .running := by
                rcases hheld hadopted with hrunning | ⟨hfailed, -⟩
                · exact hrunning
                · exact absurd (hrun.trans hfailed) hnot
              have hfresh : Orderly (fresh model published medium
                  [({ generation := model.generation, phase := .top } : Drive φ L)]) :=
                Orderly.of_fresh hempty (fun hstate => by rw [hrunning] at hstate; cases hstate)
                  (Or.inr ⟨rfl, hrunning⟩)
              exact hfresh.aside _ _ _ (some 0) _
          · rename_i hadopted
            have hidle := hcleared (by simpa using hadopted)
            apply Orderly.asked_for
            exact Orderly.of_fresh hempty (fun hstate => by rw [hidle] at hstate; cases hstate)
              (Or.inl rfl)

end Start

/-! ## A step's work -/

/-- A step's work ends with the step: at most one step's work can change the board, of the run
under way and with the model showing the step running or waiting; none of a step that has
returned; none while another step is begun; and none while done-states are read. -/
structure Apart (s : Engine φ Date L) : Prop where
  one : ∀ work ∈ s.works, ∀ work' ∈ s.works, work = work'
  shown : ∀ work ∈ s.works, work.1 = s.model.generation ∧
    ∃ entry, s.model.steps[work.2]? = some entry ∧
      (s.model.stepState work.2 entry = .running ∨ s.model.stepState work.2 entry = .waiting)
  returned : ∀ drive ∈ s.drives, ∀ index outcome,
    (drive.phase = .returned index outcome ∨ drive.phase = .settling index outcome) →
      (drive.generation, index) ∉ s.works
  begun : ∀ drive ∈ s.drives, ∀ index saver, drive.phase = .recordingStart index saver →
    s.works = []
  read : s.determinations.any Reading = true → s.works = []

section Works

variable {s : Engine φ Date L}

/-- The work that can go on is that of a step being carried out in the run under way, or work in
the pool. -/
theorem Orderly.work_origin (h : Orderly s) {work : Nat × Nat} (hmem : work ∈ s.works) :
    (∃ (task : Nat) (drive : Drive φ L) (carry : Carry φ L), s.drives[task]? = some drive ∧
        drive.generation = s.model.generation ∧ drive.phase = .carrying carry ∧
        work = (s.model.generation, carry.index)) ∨
      ∃ (place : Nat) (pooled : Pooled), s.pool[place]? = some pooled ∧ pooled.going = true ∧
        work = (s.model.generation, pooled.index) := by
  rcases List.mem_append.mp hmem with hdrive | hpool
  · obtain ⟨drive, hdrive, hwork⟩ := List.mem_filterMap.mp hdrive
    obtain ⟨task, hget⟩ := List.mem_iff_getElem?.mp hdrive
    unfold workOf at hwork
    split at hwork
    · rename_i carry hphase
      split at hwork
      · rename_i hcan
        have hcurrent := h.current_of_canGoOn hget hphase hcan
        refine Or.inl ⟨task, drive, carry, hget, hcurrent, hphase, ?_⟩
        rw [← hcurrent]
        exact (Option.some.inj hwork).symm
      · cases hwork
    · cases hwork
  · obtain ⟨pooled, hpooled, hwork⟩ := List.mem_filterMap.mp hpool
    obtain ⟨place, hget⟩ := List.mem_iff_getElem?.mp hpooled
    unfold pooledOf at hwork
    split at hwork
    · rename_i hgoing
      obtain ⟨-, -, drive, hdrive, hcurrent, -⟩ := h.pooled place pooled hget hgoing
      rw [hdrive, Option.map_some] at hwork
      refine Or.inr ⟨place, pooled, hget, hgoing, ?_⟩
      rw [← hcurrent]
      exact (Option.some.inj hwork).symm
    · cases hwork

/-- While some work can go on, the task of the run under way carries that step out, or was aborted
as it did. -/
theorem Orderly.work_phase (h : Orderly s) {work : Nat × Nat} (hmem : work ∈ s.works) {task : Nat}
    {drive : Drive φ L} (hget : s.drives[task]? = some drive)
    (hcurrent : drive.generation = s.model.generation) :
    drive.phase = .ended ∨ ∃ carry, drive.phase = .carrying carry ∧ carry.index = work.2 := by
  rcases h.work_origin hmem with ⟨other, drive', carry, hother, hsame, hphase, rfl⟩ |
    ⟨place, pooled, hpool, hgoing, rfl⟩
  · have htask := h.only hget hcurrent hother hsame
    rw [htask, hget] at hother
    obtain rfl := Option.some.inj hother
    exact Or.inr ⟨carry, hphase, rfl⟩
  · rcases (h.task_of_going hget hcurrent hpool hgoing).2 with hended | ⟨carry, hcarry, hindex, -⟩
    · exact Or.inl hended
    · exact Or.inr ⟨carry, hcarry, hindex⟩

/-- Work that can go on is of a step of the run under way, shown running. -/
theorem Orderly.work_shown (h : Orderly s) {work : Nat × Nat} (hmem : work ∈ s.works) :
    work.1 = s.model.generation ∧ s.model.state = .running ∧ s.model.Shown work.2 := by
  rcases h.work_origin hmem with ⟨task, drive, carry, hget, hcurrent, hphase, rfl⟩ |
    ⟨place, pooled, hpool, hgoing, rfl⟩
  · have hshows := h.shows task drive hget hcurrent
    rw [hphase] at hshows
    exact ⟨rfl, hshows.1, hshows.2.2⟩
  · obtain ⟨hrunning, hshown, -⟩ := h.pooled place pooled hpool hgoing
    exact ⟨rfl, hrunning, hshown⟩

/-- At most one step's work can go on. -/
theorem Orderly.work_eq (h : Orderly s) {work work' : Nat × Nat} (hmem : work ∈ s.works)
    (hmem' : work' ∈ s.works) : work = work' := by
  rcases h.work_origin hmem with ⟨task, drive, carry, hget, hcurrent, hphase, hwork⟩ |
    ⟨place, pooled, hpool, hgoing, hwork⟩
  · rcases h.work_phase hmem' hget hcurrent with hended | ⟨carry', hcarry, hindex⟩
    · rw [hphase] at hended
      cases hended
    · rw [hphase] at hcarry
      obtain rfl := Phase.carrying.inj hcarry
      rw [hwork]
      exact Prod.ext (h.work_shown hmem').1.symm hindex
  · rcases h.work_origin hmem' with ⟨task, drive, carry, hget, hcurrent, hphase, hwork'⟩ |
      ⟨place', pooled', hpool', hgoing', hwork'⟩
    · rcases h.work_phase hmem hget hcurrent with hended | ⟨carry', hcarry, hindex⟩
      · rw [hphase] at hended
        cases hended
      · rw [hphase] at hcarry
        obtain rfl := Phase.carrying.inj hcarry
        rw [hwork']
        exact Prod.ext (h.work_shown hmem).1 hindex.symm
    · obtain rfl := h.single place pooled place' pooled' hpool hgoing hpool' hgoing'
      rw [hpool] at hpool'
      obtain rfl := Option.some.inj hpool'
      rw [hwork, hwork']

/-- In good order a step's work ends with the step. -/
theorem Orderly.apart (h : Orderly s) : Apart s := by
  refine {
    one := fun work hmem work' hmem' => h.work_eq hmem hmem'
    shown := fun work hmem => ?_
    returned := fun drive hdrive index outcome hphase hmem => ?_
    begun := fun drive hdrive index saver hphase => ?_
    read := fun hany => ?_ }
  · obtain ⟨hcurrent, hrunning, entry, hget, hstate⟩ := h.work_shown hmem
    refine ⟨hcurrent, entry, hget, ?_⟩
    unfold Model.stepState
    split
    · exact Or.inr rfl
    · exact Or.inl hstate
  · obtain ⟨task, hget⟩ := List.mem_iff_getElem?.mp hdrive
    have hcurrent := (h.work_shown hmem).1
    rcases h.work_phase hmem hget hcurrent with hended | ⟨carry, hcarry, -⟩
    · rcases hphase with hphase | hphase <;> rw [hphase] at hended <;> cases hended
    · rcases hphase with hphase | hphase <;> rw [hphase] at hcarry <;> cases hcarry
  · obtain ⟨task, hget⟩ := List.mem_iff_getElem?.mp hdrive
    apply List.eq_nil_iff_forall_not_mem.mpr
    intro work hmem
    by_cases hcurrent : drive.generation = s.model.generation
    · rcases h.work_phase hmem hget hcurrent with hended | ⟨carry, hcarry, -⟩
      · rw [hphase] at hended
        cases hended
      · rw [hphase] at hcarry
        cases hcarry
    · have hstuck := (h.stuck task drive hget hcurrent).1
      rw [hphase] at hstuck
      exact hstuck.elim
  · obtain ⟨held, hmem, hreading⟩ := List.any_eq_true.mp hany
    cases held with
    | reading found quiet => exact h.works_of_atRest (h.reading found quiet hmem).1
    | queued => cases hreading
    | ended => cases hreading

variable [BEq φ] [BEq Date] {device : Device φ Date L}

/-- What holds between two stretches holds of every run that leaves no step's work behind. -/
theorem orderly_of_tidy (hreach : ((system device).guarded Tidy).Reachable s) : Orderly s := by
  apply hreach.invariant
  · rintro _ ⟨medium, loaded, cleared, -, rfl⟩
    exact Orderly.start device medium loaded cleared
  · rintro _ move _ - horderly ⟨htidy, htake⟩
    exact horderly.take htidy htake

/-- In every run that leaves no step's work behind, a step's work ends with the step. -/
theorem apart_of_tidy (hreach : ((system device).guarded Tidy).Reachable s) : Apart s :=
  (orderly_of_tidy hreach).apart

end Works

/-! ## A run that writes the EEPROM -/

section Writing

/-- A device with the step that writes the EEPROM, on a board whose EEPROM is blank, by how many
tries at the write fail. -/
def eepromDevice (fails : Option Nat) : Device Nat Nat Steps.Eeprom.At where
  steps := [Steps.Eeprom.step {
    placed := some { major := 4, minor := 0 }
    image := none
    held := .ok .blank
    headBlank := true
    fails := fails }]
  built := 0
  kept := true

/-- The start of a run of the step. -/
def starting : Move Nat :=
  .ask { act := "start", steps := some ["eeprom"], prompt := none, value := none }

/-- The stretches from the start accepted to a try at the write. -/
def writing : List (Move Nat) :=
  [.call 0 true, .call 0 true, .drive 0 true, .drive 0 true, .save 0 none, .save 0 none,
    .drive 0 true] ++
  ([0, 1, 2, 3].flatMap fun read =>
    [.work 0 .offload, .finishWork read, .work 0 .joined]) ++
  [.work 0 (.ask (.notice "id-wp" Steps.Eeprom.noticeText)), .work 0 .offload]

/-- A stop of the run, its task aborted, and a determination asked for earlier that begins. -/
def stopping : List (Move Nat) :=
  [.ask { act := "stop", steps := none, prompt := none, value := none }, .call 1 true,
    .determine 0 none]

/-- A run that tries the write leaves no step's work behind, and the one step's work is the try. -/
theorem apart_of_tidy_writing :
    ∃ s : Engine Nat Nat Steps.Eeprom.At, s.works = [(1, 0), (1, 0)] ∧ Apart s := by
  have hrun : (((Engine.take (eepromDevice none) (Engine.start (eepromDevice none) none none true)
      starting).bind fun s => Transition.System.run (Engine.take (eepromDevice none)) s writing).map
        Engine.works) = some [(1, 0), (1, 0)] := by
    decide +kernel
  obtain ⟨s, hs, hworks⟩ := Option.map_eq_some_iff.mp hrun
  obtain ⟨started, hstart, hrest⟩ := Option.bind_eq_some_iff.mp hs
  have hfirst : ((system (eepromDevice none)).guarded Tidy).Reachable started := by
    refine .next (.start ⟨none, none, true, Or.inl rfl, rfl⟩) ⟨?_, hstart⟩
    intro kind hkind _
    obtain rfl := Option.some.inj hkind
    refine ⟨fun hstop => ?_, fun _ => rfl⟩
    cases hstop
  have hreach : ((system (eepromDevice none)).guarded Tidy).Reachable s := by
    apply hfirst.of_run _ hrest
    intro move hmem before after htake
    have hplain : ∀ move ∈ writing, Plain move = true := by decide
    exact ⟨tidy_of_plain (hplain move hmem), htake⟩
  exact ⟨s, hworks, apart_of_tidy hreach⟩

/-- A run stopped while the EEPROM is written goes on writing it: the device is idle and its
done-states are being read while the step's work still goes on. -/
theorem not_apart_stopped :
    ∃ s : Engine Nat Nat Steps.Eeprom.At, (system (eepromDevice none)).Reachable s ∧
      s.model.run = .idle ∧ s.determinations.any Reading = true ∧ s.works = [(1, 0)] ∧
      ¬ Apart s := by
  have hrun : ((Transition.System.run (Engine.take (eepromDevice none))
      (Engine.start (eepromDevice none) none none true) (starting :: writing ++ stopping)).map fun s =>
        (s.model.run, s.determinations.any Reading, s.works)) = some (.idle, true, [(1, 0)]) := by
    decide +kernel
  obtain ⟨s, hs, hshown⟩ := Option.map_eq_some_iff.mp hrun
  obtain ⟨hidle, hrest⟩ := Prod.mk.inj hshown
  obtain ⟨hreading, hworks⟩ := Prod.mk.inj hrest
  refine ⟨s, ?_, hidle, hreading, hworks, fun hapart => ?_⟩
  · have hinit : (system (eepromDevice none)).Reachable (Engine.start (eepromDevice none) none none true) :=
      .start ⟨none, none, true, Or.inl rfl, rfl⟩
    exact hinit.of_run (fun _ _ _ _ htake => htake) hs
  · have hnone := hapart.read hreading
    rw [hworks] at hnone
    cases hnone

end Writing

end Bliti.Provision.Engine
