import Bliti.Provision.Engine.Apart
import Bliti.Provision.Engine.Undone

/-!
# Provisioning - where the done-states published come from

The done-states are changed by a determination that finds the device at rest and by
nothing else, and whatever is changed of the model is published at once.

Main results:

- Theorem `rested_of_tidy`: in a run that leaves no step's work behind, no step was being
  carried out during that determination.
-/

namespace Bliti.Provision

open Channel.Messages (Answer)
open Channel.Report (DoneState PromptKind StepReport)

variable {φ Date L : Type}

/-! ## The done-states of a model -/

namespace Model

variable {model : Model φ Date}

/-- The done-states of a model. -/
def dones (model : Model φ Date) : List Done :=
  model.steps.map Entry.done

/-- A change to a model that leaves its done-states alone. -/
def Leaves (model after : Model φ Date) : Prop :=
  after.dones = model.dones ∧ after.checked = model.checked

theorem Leaves.trans {after last : Model φ Date} (h : model.Leaves after)
    (h' : after.Leaves last) : model.Leaves last :=
  ⟨h'.1.trans h.1, h'.2.trans h.2⟩

/-- A change to one step leaves the done-states alone where it does that step's. -/
theorem setStep_leaves (model : Model φ Date) (index : Nat) {change : Entry φ → Entry φ}
    (hkeeps : ∀ entry, (change entry).done = entry.done) :
    model.Leaves (model.setStep index change) := by
  refine ⟨?_, rfl⟩
  unfold dones setStep
  apply List.ext_getElem?
  intro i
  simp only [List.getElem?_map, List.getElem?_modify]
  cases model.steps[i]? with
  | none => rfl
  | some entry =>
      split
      · exact congrArg some (hkeeps entry)
      · rfl

/-- Several changes leave the done-states alone where each does. -/
theorem foldl_leaves {α : Type} {change : Model φ Date → α → Model φ Date}
    (hkeeps : ∀ model a, Leaves model (change model a)) (l : List α) (model : Model φ Date) :
    model.Leaves (l.foldl change model) := by
  induction l generalizing model with
  | nil => exact ⟨rfl, rfl⟩
  | cons a rest ih => exact (hkeeps model a).trans (ih (change model a))

/-- Holding no run leaves the done-states alone. -/
theorem clearRun_leaves (model : Model φ Date) : model.Leaves model.clearRun := by
  refine ⟨?_, rfl⟩
  simp [dones, clearRun]

/-- A run begun leaves the done-states alone. -/
theorem beginRun_leaves (model : Model φ Date) (chosen : List Nat) :
    model.Leaves (model.beginRun chosen) := by
  have hmark : ∀ (model : Model φ Date) (index : Nat),
      model.Leaves (model.setStep index fun entry => { entry with state := .pending }) :=
    fun model index => model.setStep_leaves index fun _ => rfl
  exact model.clearRun_leaves.trans (foldl_leaves hmark chosen model.clearRun)

/-- A run taken up again leaves the done-states alone. -/
theorem retry_leaves (model : Model φ Date) : model.Leaves model.retry := by
  unfold retry
  split
  · exact ⟨rfl, rfl⟩
  · rename_i index _
    have hagain : model.Leaves (model.setStep index fun entry =>
        { entry with state := .pending, reason := none }) :=
      model.setStep_leaves index fun _ => rfl
    have hforget : ∀ (model : Model φ Date) (key : String), model.Leaves (model.forget key) :=
      fun model key => ⟨rfl, rfl⟩
    exact hagain.trans (foldl_leaves hforget _ _)

/-- A step begun leaves the done-states alone. -/
theorem beginNext_leaves (model : Model φ Date) : model.Leaves model.beginNext.2 := by
  unfold beginNext
  split
  · exact ⟨rfl, rfl⟩
  · rename_i index _
    exact model.setStep_leaves index fun _ => rfl

/-- A step that passes leaves the done-states alone. -/
theorem pass_leaves (model : Model φ Date) (index : Nat) : model.Leaves (model.pass index) :=
  model.setStep_leaves index fun _ => rfl

/-- A run that fails leaves the done-states alone. -/
theorem fail_leaves (model : Model φ Date) (index : Nat) (reason : String) :
    model.Leaves (model.fail index reason) :=
  model.setStep_leaves index fun _ => rfl

/-- An answer leaves the done-states alone. -/
theorem answer_leaves {id : Option String} {value : Option (Answer φ)} {waiter : Option Nat}
    {given : Answer φ} {after : Model φ Date}
    (hanswer : model.answer id value = .ok (waiter, given, after)) : model.Leaves after := by
  simp only [answer] at hanswer
  split at hanswer
  · cases hanswer
  · split at hanswer
    · cases hanswer
    · split at hanswer
      · cases hanswer
      · split at hanswer
        · cases hanswer
        · simp only [Except.ok.injEq, Prod.mk.injEq] at hanswer
          obtain ⟨-, -, rfl⟩ := hanswer
          exact ⟨rfl, rfl⟩

/-- A run kept that is held leaves the done-states alone. -/
theorem adopt_leaves (model : Model φ Date) (stored : Stored) :
    model.Leaves (adopt model stored).2 := by
  unfold adopt
  split
  · rename_i chosen passed _ _
    have hbegun : model.Leaves (passed.foldl pass (model.beginRun chosen)) :=
      (model.beginRun_leaves chosen).trans
        (foldl_leaves (fun model index => model.pass_leaves index) passed _)
    simp only
    split
    · exact ⟨rfl, rfl⟩
    · split
      · split
        · exact hbegun.trans (fail_leaves _ _ _)
        · exact hbegun.trans (clearRun_leaves _)
      · exact hbegun
  · exact ⟨rfl, rfl⟩

end Model

/-! ## What is published -/

/-- What a snapshot tells of the done-states. -/
def Snapshot.told (snapshot : Snapshot φ Date) : Bool × Bool × List (DoneState × Option String) :=
  (snapshot.checked, snapshot.provisioned, snapshot.steps.map fun step => (step.done, step.why))

section Equal

variable [BEq φ] [BEq Date]

/-- Steps reported alike are reported with the same done-states. -/
theorem dones_of_beq {steps steps' : List (StepReport φ)} (hbeq : (steps == steps') = true) :
    (steps.map fun step => (step.done, step.why)) =
      steps'.map fun step => (step.done, step.why) := by
  induction steps generalizing steps' with
  | nil =>
      cases steps' with
      | nil => rfl
      | cons step rest => cases hbeq
  | cons step rest ih =>
      cases steps' with
      | nil => cases hbeq
      | cons step' rest' =>
          rw [List.cons_beq_cons, Bool.and_eq_true] at hbeq
          obtain ⟨hstep, hrest⟩ := hbeq
          have hdone : step.done = step'.done ∧ step.why = step'.why := by
            simp only [BEq.beq, instBEqStepReport.beq, Bool.and_eq_true] at hstep
            obtain ⟨-, -, hdone, hwhy, -⟩ := hstep
            exact ⟨eq_of_beq hdone, eq_of_beq hwhy⟩
          rw [List.map_cons, List.map_cons, ih hrest, hdone.1, hdone.2]

/-- Snapshots that are alike tell the same of the done-states. -/
theorem Snapshot.told_of_beq {snapshot snapshot' : Snapshot φ Date}
    (hbeq : (snapshot == snapshot') = true) : snapshot.told = snapshot'.told := by
  simp only [BEq.beq, instBEqSnapshot.beq, Bool.and_eq_true] at hbeq
  obtain ⟨-, -, -, hchecked, hprovisioned, hsteps, -⟩ := hbeq
  have hchecked' : snapshot.checked = snapshot'.checked := eq_of_beq hchecked
  have hprovisioned' : snapshot.provisioned = snapshot'.provisioned := eq_of_beq hprovisioned
  unfold Snapshot.told
  rw [hchecked', hprovisioned', dones_of_beq hsteps]

end Equal

namespace Engine

/-! ## Stretches that leave the done-states alone -/

/-- What is published tells of the done-states of the model. -/
def Agrees (s : Engine φ Date L) : Prop :=
  s.published.told = s.model.snapshot.told

/-- A stretch that leaves the done-states alone, and no determination further than it was. -/
structure Leaves (s s' : Engine φ Date L) : Prop where
  told : s'.told = s.told
  model : s.model.Leaves s'.model
  reading : ∀ found quiet, .reading found quiet ∈ s'.determinations →
    ∃ before, .reading found before ∈ s.determinations
  agrees : Agrees s → Agrees s'

namespace Leaves

variable {s s' s'' : Engine φ Date L}

theorem trans (h : Leaves s s') (h' : Leaves s' s'') : Leaves s s'' where
  told := h'.told.trans h.told
  model := h.model.trans h'.model
  reading := by
    intro found quiet hmem
    obtain ⟨before, hbefore⟩ := h'.reading found quiet hmem
    exact h.reading found before hbefore
  agrees := fun hagrees => h'.agrees (h.agrees hagrees)

/-- What changes neither the model nor what is published leaves the done-states alone. -/
theorem of_eq (hmodel : s'.model = s.model) (hpublished : s'.published = s.published)
    (htold : s'.told = s.told) (hdeterminations : s'.determinations = s.determinations) :
    Leaves s s' where
  told := htold
  model := by rw [hmodel]; exact ⟨rfl, rfl⟩
  reading := by rw [hdeterminations]; exact fun _ quiet hmem => ⟨quiet, hmem⟩
  agrees := by
    unfold Agrees
    rw [hmodel, hpublished]
    exact id

/-- Asking for a determination leaves the done-states alone. -/
theorem asked (s : Engine φ Date L) : Leaves s s.determineSoon where
  told := rfl
  model := ⟨rfl, rfl⟩
  reading := by
    intro found quiet hmem
    rcases List.mem_append.mp hmem with hbefore | hnew
    · exact ⟨quiet, hbefore⟩
    · cases List.mem_singleton.mp hnew
  agrees := id

variable [BEq φ] [BEq Date]

/-- What is published after publishing tells of the done-states of the model. -/
theorem agrees_publish (s : Engine φ Date L) : Agrees s.publish := by
  unfold Agrees publish
  split
  · rename_i hbeq
    exact Snapshot.told_of_beq hbeq
  · rfl

/-- Publishing a change to the model that leaves the done-states alone does so too. -/
theorem publish {model : Model φ Date} {delivered : List (Nat × Answer φ)}
    (hmodel : s.model.Leaves model) :
    Leaves s (Engine.publish { s with model := model, delivered := delivered }) := by
  obtain ⟨published, hpublish⟩ := publish_eq { s with model := model, delivered := delivered }
  refine ⟨?_, ?_, ?_, fun _ => agrees_publish _⟩
  · rw [hpublish]
  · rw [hpublish]
    exact hmodel
  · rw [hpublish]
    exact fun _ quiet hmem => ⟨quiet, hmem⟩

/-- A change made for a run leaves the done-states alone where it does the model's. -/
theorem mutate {generation : Nat} {change : Model φ Date → Model φ Date}
    (hkeeps : s.model.Leaves (change s.model)) (hmutate : s.mutate generation change = some s') :
    Leaves s s' := by
  unfold Engine.mutate at hmutate
  split at hmutate
  · obtain rfl := Option.some.inj hmutate
    exact publish hkeeps
  · cases hmutate

/-- A change made for a run, if it has not ended, leaves the done-states alone where it does the
model's. -/
theorem tryMutate {generation : Nat} {change : Model φ Date → Model φ Date}
    (hkeeps : s.model.Leaves (change s.model)) : Leaves s (s.tryMutate generation change) := by
  unfold Engine.tryMutate
  cases hmutate : s.mutate generation change with
  | none => exact of_eq rfl rfl rfl rfl
  | some changed => exact mutate hkeeps hmutate

/-- A prompt that closes, if its run has not ended, leaves alone what those before it did. -/
theorem closed (s t : Engine φ Date L) (generation : Nat) (id : String) (h : Leaves s t) :
    Leaves s (t.tryMutate generation fun model => model.close id) :=
  h.trans (tryMutate ⟨rfl, rfl⟩)

/-- Dropping notices leaves the done-states alone. -/
theorem dropNotices (s : Engine φ Date L) (generation : Nat) (notices : List String) :
    Leaves s (s.dropNotices generation notices) :=
  dropNotices_kept (closed s) (of_eq rfl rfl rfl rfl) generation notices

/-- A task aborted leaves the done-states alone. -/
theorem abort (s : Engine φ Date L) (task : Nat) : Leaves s (s.abort task) :=
  abort_kept (fun _ h => h.trans (of_eq rfl rfl rfl rfl))
    (fun _ _ h => h.trans (of_eq rfl rfl rfl rfl)) (closed s) (of_eq rfl rfl rfl rfl) task

/-- An act asked for leaves the done-states alone. -/
theorem ask {device : Device φ Date L} (s : Engine φ Date L) (asked : Act φ) :
    Leaves s (s.ask device asked) := by
  unfold Engine.ask
  split
  · exact of_eq rfl rfl rfl rfl
  · rename_i decided hdecide
    have hkeeps : s.model.Leaves decided.model := by
      obtain ⟨kind, -, -, hcases⟩ := decide_cases hdecide
      rcases hcases with ⟨-, -, places, rfl⟩ | ⟨-, rfl⟩ | ⟨-, waiter, value, answered, hanswer, rfl⟩ |
        ⟨-, rfl⟩
      · exact s.model.beginRun_leaves places
      · exact s.model.retry_leaves
      · exact Model.answer_leaves hanswer
      · exact s.model.clearRun_leaves
    have hchanged : Leaves s (Engine.publish { s with
        model := decided.model, delivered := s.delivered ++ decided.sent.toList }) :=
      publish hkeeps
    simp only
    split
    · exact hchanged
    · exact hchanged.trans (of_eq rfl rfl rfl rfl)
    · exact hchanged.trans (of_eq rfl rfl rfl rfl)

/-- What is left of an act leaves the done-states alone. -/
theorem call {device : Device φ Date L} {index : Nat} {cleared : Bool}
    (hcall : s.call device index cleared = some s') : Leaves s s' := by
  unfold Engine.call at hcall
  obtain ⟨left, -, hcall⟩ := Option.bind_eq_some_iff.mp hcall
  cases left with
  | spawning generation =>
      obtain rfl := Option.some.inj hcall
      exact of_eq rfl rfl rfl rfl
  | storing task =>
      obtain rfl := Option.some.inj hcall
      exact of_eq rfl rfl rfl rfl
  | aborting generation =>
      obtain rfl := Option.some.inj hcall
      cases s.handle with
      | none => exact of_eq rfl rfl rfl rfl
      | some task =>
          have hdropped : Leaves s { s with handle := none } := of_eq rfl rfl rfl rfl
          exact (hdropped.trans (abort _ task)).trans (of_eq rfl rfl rfl rfl)
  | forgetting generation =>
      obtain ⟨⟨taken, current⟩, htaken, hcall⟩ := Option.bind_eq_some_iff.mp hcall
      obtain rfl := Option.some.inj hcall
      obtain ⟨disk, rfl⟩ := takeDisk_eq_some htaken
      exact of_eq rfl rfl rfl rfl
  | clearing =>
      obtain rfl := Option.some.inj hcall
      exact of_eq rfl rfl rfl rfl
  | determining =>
      obtain rfl := Option.some.inj hcall
      exact (asked s).trans (of_eq rfl rfl rfl rfl)
  | ended => cases hcall

/-- A task that carries a run out leaves the done-states alone. -/
theorem drive {device : Device φ Date L} {task : Nat} {cleared : Bool}
    (hdrive : s.drive device task cleared = some s') : Leaves s s' := by
  unfold Engine.drive at hdrive
  obtain ⟨drive, hget, hdrive⟩ := Option.bind_eq_some_iff.mp hdrive
  simp only at hdrive
  have hphase : ∀ (s : Engine φ Date L) (phase : Phase φ L), Leaves s (s.setPhase task phase) :=
    fun _ _ => of_eq rfl rfl rfl rfl
  have hrecord : ∀ (s : Engine φ Date L) (generation : Nat) (phase : Phase φ L),
      Leaves s ((s.record generation).setPhase task phase) :=
    fun _ _ _ => of_eq rfl rfl rfl rfl
  split at hdrive
  · obtain rfl := Option.some.inj hdrive
    exact hphase s _
  · split at hdrive
    · obtain rfl := Option.some.inj hdrive
      exact hphase s _
    · rename_i begun hmutate
      have hbegun : Leaves s begun := mutate s.model.beginNext_leaves hmutate
      split at hdrive
      · obtain rfl := Option.some.inj hdrive
        exact hbegun.trans (hphase begun _)
      · split at hdrive
        · obtain rfl := Option.some.inj hdrive
          exact hbegun.trans (hrecord begun _ _)
        · obtain ⟨carry, -, rfl⟩ := Option.map_eq_some_iff.mp hdrive
          exact hbegun.trans (hphase begun _)
  · cases hdrive
  · obtain ⟨held, -, hdrive⟩ := Option.bind_eq_some_iff.mp hdrive
    split at hdrive
    · obtain ⟨carry, -, rfl⟩ := Option.map_eq_some_iff.mp hdrive
      exact hphase s _
    · obtain rfl := Option.some.inj hdrive
      exact hphase s _
    · cases hdrive
  · cases hdrive
  · rename_i index outcome _
    obtain rfl := Option.some.inj hdrive
    have hreleased : Leaves s (s.tryMutate drive.generation fun model => model.release index) :=
      tryMutate ⟨rfl, rfl⟩
    exact hreleased.trans (hphase _ _)
  · split at hdrive
    · obtain rfl := Option.some.inj hdrive
      exact hphase s _
    · rename_i passed hmutate
      have hpassed : Leaves s passed :=
        mutate (s.model.pass_leaves _) hmutate
      split at hdrive <;> obtain rfl := Option.some.inj hdrive
      · exact hpassed.trans (hrecord passed _ _)
      · exact hpassed.trans (hphase passed _)
  · split at hdrive
    · obtain rfl := Option.some.inj hdrive
      exact hphase s _
    · rename_i failed hmutate
      have hfailed : Leaves s failed := mutate (s.model.fail_leaves _ _) hmutate
      split at hdrive <;> obtain rfl := Option.some.inj hdrive
      · exact hfailed.trans (hrecord failed _ _)
      · exact hfailed.trans (hphase failed _)
  · obtain ⟨held, -, hdrive⟩ := Option.bind_eq_some_iff.mp hdrive
    split at hdrive
    · obtain rfl := Option.some.inj hdrive
      exact hphase s _
    · cases hdrive
  · obtain ⟨held, -, hdrive⟩ := Option.bind_eq_some_iff.mp hdrive
    split at hdrive
    · obtain rfl := Option.some.inj hdrive
      exact hphase s _
    · cases hdrive
  · split at hdrive
    · obtain rfl := Option.some.inj hdrive
      exact hphase s _
    · rename_i finished hmutate
      have hfinished : Leaves s finished := mutate ⟨rfl, rfl⟩ hmutate
      obtain rfl := Option.some.inj hdrive
      exact hfinished.trans (hphase finished _)
  · obtain ⟨⟨taken, current⟩, htaken, hdrive⟩ := Option.bind_eq_some_iff.mp hdrive
    obtain rfl := Option.some.inj hdrive
    obtain ⟨disk, rfl⟩ := takeDisk_eq_some htaken
    exact of_eq rfl rfl rfl rfl
  · obtain rfl := Option.some.inj hdrive
    exact of_eq rfl rfl rfl rfl
  · obtain rfl := Option.some.inj hdrive
    exact (asked s).trans (hphase _ _)
  · cases hdrive

/-- What a step asks of the run leaves the done-states alone. -/
theorem asks (s : Engine φ Date L) (generation : Nat) (carry : Carry φ L) (asked : Ask φ) :
    Leaves s (s.asks generation carry asked).1 := by
  cases asked with
  | progress fraction => exact tryMutate (s.model.setStep_leaves carry.index fun _ => rfl)
  | result result => exact tryMutate (s.model.setStep_leaves carry.index fun _ => rfl)
  | need key kind text =>
      simp only [Engine.asks]
      split
      · exact of_eq rfl rfl rfl rfl
      · rename_i asking hmutate
        obtain ⟨-, -, hsteps, hchecked⟩ := s.model.need_rest carry.index key kind text s.channels
        have hneeded : Leaves s asking :=
          mutate ⟨congrArg (List.map Entry.done) hsteps, hchecked⟩ hmutate
        exact hneeded.trans (of_eq rfl rfl rfl rfl)
  | askLater question =>
      obtain ⟨-, -, hsteps, hchecked⟩ := s.model.askLater_rest carry.index question
      exact tryMutate ⟨congrArg (List.map Entry.done) hsteps, hchecked⟩
  | takeText key default =>
      simp only [Engine.asks]
      split
      · exact of_eq rfl rfl rfl rfl
      · rename_i taken hmutate
        refine mutate ?_ hmutate
        split <;> exact ⟨rfl, rfl⟩
  | forget key => exact tryMutate ⟨rfl, rfl⟩
  | notice key text =>
      simp only [Engine.asks]
      split
      · exact of_eq rfl rfl rfl rfl
      · rename_i noticed hmutate
        exact mutate ⟨rfl, rfl⟩ hmutate
  | close id =>
      simp only [Engine.asks]
      split
      · exact tryMutate ⟨rfl, rfl⟩
      · exact of_eq rfl rfl rfl rfl

/-- What a step being carried out does next leaves the done-states alone. -/
theorem work {device : Device φ Date L} {task : Nat} {done : Work φ}
    (hwork : s.work device task done = some s') : Leaves s s' := by
  have hphase : ∀ (s : Engine φ Date L) (phase : Phase φ L), Leaves s (s.setPhase task phase) :=
    fun _ _ => of_eq rfl rfl rfl rfl
  obtain ⟨drive, carry, body, -, -, -, hworks⟩ := work_goes hwork
  cases hworks with
  | asks asked hnothing => exact (asks s _ _ asked).trans (hphase _ _)
  | inPlace hnothing => exact hphase s _
  | offload hnothing => exact of_eq rfl rfl rfl rfl
  | joined hawaiting hpool hstopped => exact hphase s _
  | limit => exact hphase s _
  | ends outcome hnothing => exact (hphase s _).trans (dropNotices _ _ _)

/-- Every stretch but a determination's leaves the done-states alone. -/
theorem go {device : Device φ Date L} {move : Move φ} (hgo : s.go device move = some s')
    (hnot : ∀ index read, move ≠ .determine index read) : Leaves s s' := by
  cases move with
  | ask asked =>
      obtain rfl := Option.some.inj hgo
      exact ask s asked
  | call index cleared => exact call hgo
  | drive task cleared => exact drive hgo
  | askAhead task question =>
      obtain ⟨drive, -, hask⟩ := Option.bind_eq_some_iff.mp hgo
      split at hask
      · rename_i index _ _
        obtain rfl := Option.some.inj hask
        obtain ⟨-, -, hsteps, hchecked⟩ := s.model.askLater_rest index question
        exact tryMutate ⟨congrArg (List.map Entry.done) hsteps, hchecked⟩
      · cases hask
  | askedAhead task =>
      obtain ⟨drive, index, rest, -, -, rfl⟩ := askedAhead_cases hgo
      exact of_eq rfl rfl rfl rfl
  | work task done => exact work hgo
  | resume task =>
      obtain ⟨drive, carry, given, body, -, -, -, -, rfl⟩ := resume_cases hgo
      exact of_eq rfl rfl rfl rfl
  | finishWork work =>
      obtain ⟨pooled, -, -, rfl⟩ := finishWork_cases hgo
      exact of_eq rfl rfl rfl rfl
  | save saver failed =>
      obtain ⟨held, -, hheld⟩ := Option.bind_eq_some_iff.mp hgo
      split at hheld
      · split at hheld
        · cases hheld
        · split at hheld <;> obtain rfl := Option.some.inj hheld <;> exact of_eq rfl rfl rfl rfl
      · obtain rfl := Option.some.inj hheld
        exact of_eq rfl rfl rfl rfl
      · cases hheld
  | attach =>
      obtain rfl := Option.some.inj hgo
      exact asked s
  | determine index read => exact absurd rfl (hnot index read)

end Leaves

/-! ## Where they come from -/

/-- The done-states of the model are those the determination last told of found, and what is
published tells of them. -/
structure Told (device : Device φ Date L) (s : Engine φ Date L) : Prop where
  steps : s.model.steps.length = device.steps.length
  reading : ∀ found quiet, .reading found quiet ∈ s.determinations →
    found.length ≤ device.steps.length
  found : s.model.checked = true → ∃ found quiet, s.told = some (found, quiet) ∧
    found.length = device.steps.length ∧ s.model.dones = undone device.steps found
  agrees : Agrees s

namespace Told

variable {s s' : Engine φ Date L} {device : Device φ Date L}

/-- A stretch that leaves the done-states alone keeps where they come from. -/
theorem leaves (h : Told device s) (hleaves : Leaves s s') : Told device s' where
  steps := by
    have hlength := congrArg List.length hleaves.model.1
    simp only [Model.dones, List.length_map] at hlength
    exact hlength.trans h.steps
  reading := by
    intro found quiet hmem
    obtain ⟨before, hbefore⟩ := hleaves.reading found quiet hmem
    exact h.reading found before hbefore
  found := by
    intro hchecked
    rw [hleaves.model.2] at hchecked
    obtain ⟨found, quiet, htold, hlength, hdones⟩ := h.found hchecked
    exact ⟨found, quiet, hleaves.told.trans htold, hlength, hleaves.model.1.trans hdones⟩
  agrees := hleaves.agrees h.agrees

/-- The done-states found are those of the model they are put in, where it has as many steps. -/
theorem dones_determined {model : Model φ Date} {found : List Done}
    (hlength : found.length = model.steps.length) :
    (determined model found).dones = found := by
  have hdrop : model.steps.drop found.length = [] := by
    rw [hlength]
    exact List.drop_length
  simp only [Model.dones, determined, hdrop, List.append_nil, List.map_map]
  apply List.ext_getElem
  · simp [hlength]
  · intro i hleft hright
    simp

/-- The determinations going on keep where the done-states come from. -/
theorem determinations (h : Told device s) {determinations : List Determination}
    (hreading : ∀ found quiet, Determination.reading found quiet ∈ determinations →
      found.length ≤ device.steps.length) :
    Told device { s with determinations := determinations } :=
  ⟨h.steps, hreading, h.found, h.agrees⟩

variable [BEq φ] [BEq Date]

/-- What a determination comes to keeps where the done-states come from. -/
theorem settle (h : Told device s) {found : List Done} {quiet : Bool}
    (hlength : found.length = device.steps.length) : Told device (s.settle device found quiet) := by
  unfold Engine.settle
  split
  · have hundone : (undone device.steps found).length = s.model.steps.length := by
      rw [undone_length, hlength, h.steps]
    have hdones := dones_determined hundone
    obtain ⟨published, hpublish⟩ := publish_eq { s with
      model := determined s.model (undone device.steps found), told := some (found, quiet) }
    refine {
      steps := ?_
      reading := ?_
      found := fun _ => ⟨found, quiet, ?_, hlength, ?_⟩
      agrees := Leaves.agrees_publish _ }
    · rw [hpublish]
      have hcount := congrArg List.length hdones
      simp only [Model.dones, List.length_map] at hcount
      exact hcount.trans (hundone.trans h.steps)
    · rw [hpublish]
      exact h.reading
    · rw [hpublish]
    · rw [hpublish]
      exact hdones
  · exact h

/-- A determination keeps where the done-states come from. -/
theorem determine (h : Told device s) {index : Nat} {read : Option Done}
    (hdetermine : s.determine device index read = some s') : Told device s' := by
  obtain ⟨held, left, t, hget, hgoes, rfl⟩ := determine_goes hdetermine
  cases hgoes with
  | looks hidle =>
      apply h.determinations
      intro found quiet hmem
      rcases List.mem_or_eq_of_mem_set hmem with hold | hnew
      · exact h.reading found quiet hold
      · split at hnew
        · rw [(Determination.reading.inj hnew).1]
          exact Nat.zero_le _
        · cases hnew
  | reads done hless =>
      apply h.determinations
      intro found' quiet' hmem
      rcases List.mem_or_eq_of_mem_set hmem with hold | hnew
      · exact h.reading found' quiet' hold
      · rw [(Determination.reading.inj hnew).1, List.length_append]
        exact hless
  | settles hall =>
      rename_i found quiet
      have hle := h.reading found quiet (List.mem_of_getElem? hget)
      have hsettled : Told device (s.settle device found quiet) := h.settle (by omega)
      apply hsettled.determinations
      intro found' quiet' hmem
      rcases List.mem_or_eq_of_mem_set hmem with hold | hnew
      · exact hsettled.reading found' quiet' hold
      · cases hnew

/-- Every stretch keeps where the done-states come from. -/
theorem take (h : Told device s) {move : Move φ} (htake : Engine.take device s move = some s') :
    Told device s' := by
  obtain ⟨gone, hgo, rfl⟩ := Option.map_eq_some_iff.mp htake
  have hgone : Told device gone := by
    cases move with
    | determine index read => exact h.determine hgo
    | _ => exact h.leaves (Leaves.go hgo (fun _ _ hsame => by cases hsame))
  apply hgone.determinations
  intro found quiet hmem
  obtain ⟨before, hbefore, hafter⟩ := List.mem_map.mp hmem
  cases before with
  | reading found' quiet' =>
      rw [← (Determination.reading.inj hafter).1]
      exact hgone.reading found' quiet' hbefore
  | queued => cases hafter
  | ended => cases hafter

/-- At the start no done-state has been determined. -/
theorem start (device : Device φ Date L) (medium loaded : Option Stored) (cleared : Bool) :
    Told device (Engine.start device medium loaded cleared) := by
  have hfresh : Told device (fresh (initial device) (initial device).snapshot medium
      ([] : List (Drive φ L))) := {
    steps := by simp [fresh, initial, Model.new]
    reading := fun _ _ hmem => by cases hmem
    found := fun hchecked => by cases hchecked
    agrees := rfl }
  unfold Engine.start
  cases loaded with
  | none => exact hfresh.leaves (Leaves.asked _)
  | some stored =>
      cases hadopt : adopt (initial device) stored with
      | mk adopted model =>
          have hmodel : (initial device).Leaves model := by
            have hleaves := (initial device).adopt_leaves stored
            rwa [hadopt] at hleaves
          have hheld : Told device (publish { fresh (initial device) (initial device).snapshot
              medium ([] : List (Drive φ L)) with model := model, delivered := [] }) :=
            hfresh.leaves (Leaves.publish hmodel)
          simp only [hadopt]
          split
          · split
            · exact hheld
            · exact hheld.leaves (.of_eq rfl rfl rfl rfl)
          · apply hheld.leaves
            refine ⟨rfl, ⟨rfl, rfl⟩, fun found quiet hmem => ?_, id⟩
            rcases List.mem_append.mp hmem with hbefore | hnew
            · exact ⟨quiet, hbefore⟩
            · cases List.mem_singleton.mp hnew

end Told

/-- In every run the done-states are those the determination last told of found, and what is
published tells of them. -/
theorem told_of_reachable {s : Engine φ Date L} {device : Device φ Date L} [BEq φ] [BEq Date]
    (hreach : (system device).Reachable s) : Told device s := by
  apply hreach.invariant
  · rintro _ ⟨medium, loaded, cleared, -, rfl⟩
    exact Told.start device medium loaded cleared
  · exact fun _ move _ _ htold htake => htold.take htake

/-! ## Done-states of a board at rest -/

/-- What is reported of each entry by its place, where only the entry matters. -/
theorem map_zipIdx_of_fst {α β : Type} (l : List α) (f : α → β) (g : α × Nat → β)
    (hsame : ∀ a i, g (a, i) = f a) : l.zipIdx.map g = l.map f := by
  have hcomp : g = f ∘ Prod.fst := funext fun pair => hsame pair.1 pair.2
  rw [hcomp, ← List.map_map, List.zipIdx_map_fst]

/-- The done-states published come from one determination, of every step, during the whole of which
no step was being carried out. -/
structure Rested (device : Device φ Date L) (s : Engine φ Date L) : Prop where
  found : s.published.checked = true → ∃ found, s.told = some (found, true) ∧
    found.length = device.steps.length ∧
    (s.published.steps.map fun step => (step.done, step.why)) =
      (undone device.steps found).map fun done => (done.state, done.why)
  provisioned : s.published.provisioned = s.model.provisioned

/-- In every run that leaves no step's work behind, the done-states published come from one
determination during the whole of which no step was being carried out. -/
theorem rested_of_tidy {s : Engine φ Date L} {device : Device φ Date L} [BEq φ] [BEq Date]
    (hreach : ((system device).guarded Tidy).Reachable s) : Rested device s := by
  have htold : Told device s := told_of_reachable hreach.unguarded
  have horderly : Orderly s := orderly_of_tidy hreach
  obtain ⟨hchecked, hrest⟩ := Prod.mk.inj htold.agrees
  obtain ⟨hprovisioned, hsteps⟩ := Prod.mk.inj hrest
  refine ⟨fun hpublished => ?_, hprovisioned⟩
  rw [hpublished] at hchecked
  obtain ⟨found, quiet, hsome, hlength, hdones⟩ := htold.found hchecked.symm
  obtain rfl := horderly.told found quiet hsome
  refine ⟨found, hsome, hlength, ?_⟩
  rw [← hdones, hsteps]
  simp only [Model.snapshot, Model.dones, List.map_map]
  exact map_zipIdx_of_fst s.model.steps (fun entry => (entry.done.state, entry.done.why)) _
    (fun _ _ => rfl)

/-- What is found of a blank EEPROM. -/
def blank : Done where
  state := .notDone
  why := some "holds nothing, being blank"

/-- A determination from its beginning to what it comes to, the EEPROM found blank. -/
def determining : List (Move Nat) :=
  [.determine 0 none, .determine 0 (some blank), .determine 0 none]

/-- A determination with no run under way gives the done-states published. -/
theorem rested_of_tidy_idle :
    ∃ s : Engine Nat Nat Steps.Eeprom.At, s.told = some ([blank], true) ∧
      Rested (eepromDevice none) s := by
  have hrun : ((Transition.System.run (Engine.take (eepromDevice none))
      (Engine.start (eepromDevice none) none none true) determining).map Engine.told) =
        some (some ([blank], true)) := by
    decide
  obtain ⟨s, hs, htold⟩ := Option.map_eq_some_iff.mp hrun
  have hinit : ((system (eepromDevice none)).guarded Tidy).Reachable
      (Engine.start (eepromDevice none) none none true) :=
    .start ⟨none, none, true, Or.inl rfl, rfl⟩
  have hreach : ((system (eepromDevice none)).guarded Tidy).Reachable s := by
    apply hinit.of_run _ hs
    intro move hmem before after htake
    have hplain : ∀ move ∈ determining, Plain move = true := by decide
    exact ⟨tidy_of_plain (hplain move hmem), htake⟩
  exact ⟨s, htold, rested_of_tidy hreach⟩

/-- The stretches from a try at the write begun to the run finished. -/
def passing : List (Move Nat) :=
  [.finishWork 4, .work 0 .joined, .work 0 (.ask (.close "id-wp")), .work 0 (.ends (.ok ())),
    .drive 0 true, .drive 0 true, .save 1 none, .save 1 none] ++ List.replicate 6 (.drive 0 true)

/-- A run started while done-states are determined may finish before they are published: what is
then published is what the board held before the run wrote it. -/
theorem not_rested_started :
    ∃ s : Engine Nat Nat Steps.Eeprom.At, (system (eepromDevice (some 0))).Reachable s ∧
      s.model.run = .finished ∧ s.published.checked = true ∧ s.told = some ([blank], false) ∧
      ¬ Rested (eepromDevice (some 0)) s := by
  have hrun : ((Transition.System.run (Engine.take (eepromDevice (some 0)))
      (Engine.start (eepromDevice (some 0)) none none true)
      ([.determine 0 none, .determine 0 (some blank)] ++ starting :: writing ++ passing ++
        [.determine 0 none])).map fun s =>
        (s.model.run, s.published.checked, s.told)) =
          some (.finished, true, some ([blank], false)) := by
    decide +kernel
  obtain ⟨s, hs, hshown⟩ := Option.map_eq_some_iff.mp hrun
  obtain ⟨hfinished, hrest⟩ := Prod.mk.inj hshown
  obtain ⟨hchecked, htold⟩ := Prod.mk.inj hrest
  refine ⟨s, ?_, hfinished, hchecked, htold, fun hrested => ?_⟩
  · have hinit : (system (eepromDevice (some 0))).Reachable
        (Engine.start (eepromDevice (some 0)) none none true) :=
      .start ⟨none, none, true, Or.inl rfl, rfl⟩
    exact hinit.of_run (fun _ _ _ _ htake => htake) hs
  · obtain ⟨found, hfound, -⟩ := hrested.found hchecked
    rw [htold] at hfound
    cases hfound

end Engine

end Bliti.Provision
