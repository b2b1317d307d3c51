import Bliti.Provision.Engine
import Bliti.Provision.Prompts

/-!
# Provisioning - what a stretch comes to

What each part of what goes on can come to, said once: an act accepted, the next part of
a task that carries a run out, what a step asks of its run, and a task aborted.  What is
to hold between two stretches is then shown of these.
-/

namespace Bliti.Provision.Engine

open Channel.Messages (Answer)

variable {φ Date L : Type} {s s' : Engine φ Date L} {device : Device φ Date L}

/-! ## What is published -/

section Published

variable [BEq φ] [BEq Date]

/-- Publishing changes nothing but what is published. -/
theorem publish_eq (s : Engine φ Date L) :
    ∃ published, s.publish = { s with published := published } := by
  unfold publish
  split
  · exact ⟨s.published, rfl⟩
  · exact ⟨s.model.snapshot, rfl⟩

/-- A change made for a run that has not ended is made to the model. -/
theorem mutate_eq_some {generation : Nat} {change : Model φ Date → Model φ Date}
    {s' : Engine φ Date L} (hmutate : s.mutate generation change = some s') :
    s.model.generation = generation ∧
      ∃ published, s' = { s with model := change s.model, published := published } := by
  unfold mutate at hmutate
  split at hmutate
  · rename_i hcurrent
    obtain ⟨published, heq⟩ := publish_eq { s with model := change s.model }
    exact ⟨hcurrent, published, (Option.some.inj hmutate).symm.trans heq⟩
  · cases hmutate

/-- No change is made for a run that has ended. -/
theorem mutate_eq_none {generation : Nat} {change : Model φ Date → Model φ Date}
    (hmutate : s.mutate generation change = none) : s.model.generation ≠ generation := by
  intro hcurrent
  simp [mutate, hcurrent] at hmutate

/-- A change made for a run is made to the model where the run has not ended. -/
theorem tryMutate_cases (s : Engine φ Date L) (generation : Nat)
    (change : Model φ Date → Model φ Date) :
    (s.model.generation = generation ∧ ∃ published,
        s.tryMutate generation change =
          { s with model := change s.model, published := published }) ∨
      (s.model.generation ≠ generation ∧ s.tryMutate generation change = s) := by
  unfold tryMutate
  cases hmutate : s.mutate generation change with
  | none => exact Or.inr ⟨mutate_eq_none hmutate, rfl⟩
  | some changed =>
      obtain ⟨hcurrent, published, heq⟩ := mutate_eq_some hmutate
      exact Or.inl ⟨hcurrent, published, heq⟩

end Published

/-- A task moved on is the one at its place. -/
theorem setPhase_eq {task : Nat} {drive : Drive φ L} (hget : s.drives[task]? = some drive)
    (phase : Phase φ L) :
    s.setPhase task phase =
      { s with drives := s.drives.set task { drive with phase := phase } } := by
  simp [setPhase, List.modify_eq_set_getElem?, hget]

/-! ## What an act comes to -/

/-- What an accepted act comes to: a run begun or taken up again, a prompt answered, or a run
ended. -/
theorem decide_cases {kept : Bool} {model : Model φ Date} {asked : Act φ}
    {decided : Decided φ Date} (hdecide : decide kept model asked = .ok decided) :
    ∃ kind, Kind.read asked.act = some kind ∧ kind.acceptedIn model.run = true ∧
      ((kind = .start ∧ kept = true ∧ ∃ places, decided =
          { model := model.beginRun places, sent := none,
            next := .drive (model.beginRun places).generation }) ∨
        (kind = .retry ∧ decided =
          { model := model.retry, sent := none, next := .drive model.retry.generation }) ∨
        (kind = .answer ∧ ∃ waiter value answered,
          model.answer asked.prompt asked.value = .ok (waiter, value, answered) ∧ decided =
          { model := answered, sent := waiter.map fun channel => (channel, value),
            next := .nothing }) ∨
        ((kind = .stop ∨ kind = .acknowledge) ∧ decided =
          { model := { model.clearRun with generation := model.clearRun.generation + 1 },
            sent := none, next := .abort (model.clearRun.generation + 1) })) := by
  unfold decide at hdecide
  split at hdecide
  · cases hdecide
  · rename_i kind hkind
    split at hdecide
    · rename_i haccepted
      refine ⟨kind, hkind, haccepted, ?_⟩
      cases kind with
      | start =>
          simp only at hdecide
          split at hdecide
          · rename_i hkept
            split at hdecide
            · cases hdecide
            · cases hplaces : placesOf model (asked.steps.getD []) with
              | error refusal => simp_all
              | ok places =>
                  refine Or.inl ⟨rfl, hkept, inOrder places, ?_⟩
                  simp_all
          · cases hdecide
      | retry => exact Or.inr (Or.inl ⟨rfl, (Except.ok.inj hdecide).symm⟩)
      | answer =>
          simp only at hdecide
          split at hdecide
          · rename_i waiter value answered hanswer
            exact Or.inr (Or.inr (Or.inl
              ⟨rfl, waiter, value, answered, hanswer, (Except.ok.inj hdecide).symm⟩))
          · cases hdecide
      | stop =>
          exact Or.inr (Or.inr (Or.inr ⟨Or.inl rfl, (Except.ok.inj hdecide).symm⟩))
      | acknowledge =>
          exact Or.inr (Or.inr (Or.inr ⟨Or.inr rfl, (Except.ok.inj hdecide).symm⟩))
    · cases hdecide

/-- Taking the medium changes nothing but who holds it. -/
theorem takeDisk_eq_some {generation : Nat} {holder : Holder} {taken : Engine φ Date L}
    {current : Bool} (htaken : s.takeDisk generation holder = some (taken, current)) :
    ∃ disk, taken = { s with disk := disk } := by
  unfold takeDisk at htaken
  split at htaken
  · cases htaken
  · split at htaken
    · exact ⟨some holder, (congrArg Prod.fst (Option.some.inj htaken)).symm⟩
    · exact ⟨s.disk, (congrArg Prod.fst (Option.some.inj htaken)).symm⟩

/-- A step begun is carried out from its start, awaiting nothing. -/
theorem carry_eq_some {index : Nat} {carry : Carry φ L}
    (hcarry : Engine.carry device index = some carry) :
    carry.index = index ∧ carry.awaiting = .nothing := by
  obtain ⟨step, -, rfl⟩ := Option.map_eq_some_iff.mp hcarry
  exact ⟨rfl, rfl⟩

/-! ## What is kept beside a run -/

/-- What is kept beside a run may change: what is published, the medium and who holds it, the
threads that keep the run, the task an act would abort, and determinations not under way. -/
structure Beside (s s' : Engine φ Date L) : Prop where
  model : s'.model = s.model
  drives : s'.drives = s.drives
  pool : s'.pool = s.pool
  calls : s'.calls = s.calls
  delivered : s'.delivered = s.delivered
  channels : s'.channels = s.channels
  told : s'.told = s.told
  reading : ∀ found quiet, .reading found quiet ∈ s'.determinations →
    .reading found quiet ∈ s.determinations

/-- What is published, the medium and the threads that keep the run are beside the run. -/
theorem Beside.aside (s : Engine φ Date L) (published : Snapshot φ Date) (medium : Option Stored)
    (disk : Option Holder) (handle : Option Nat) (savers : List Saver) :
    Beside s { s with
      published := published, medium := medium, disk := disk, handle := handle,
      savers := savers } :=
  ⟨rfl, rfl, rfl, rfl, rfl, rfl, rfl, fun _ _ hmem => hmem⟩

theorem Beside.refl (s : Engine φ Date L) : Beside s s :=
  .aside s s.published s.medium s.disk s.handle s.savers

/-- A determination asked for is beside the run. -/
theorem Beside.soon (s : Engine φ Date L) : Beside s s.determineSoon where
  model := rfl
  drives := rfl
  pool := rfl
  calls := rfl
  delivered := rfl
  channels := rfl
  told := rfl
  reading := by
    intro found quiet hmem
    rcases List.mem_append.mp hmem with hbefore | hnew
    · exact hbefore
    · cases List.mem_singleton.mp hnew

theorem save_beside {saver : Nat} {failed : Option String}
    (hsave : s.save saver failed = some s') : Beside s s' := by
  unfold Engine.save at hsave
  obtain ⟨held, -, hsave⟩ := Option.bind_eq_some_iff.mp hsave
  split at hsave
  · split at hsave
    · cases hsave
    · split at hsave <;> obtain rfl := Option.some.inj hsave <;> exact .aside s _ _ _ _ _
  · obtain rfl := Option.some.inj hsave
    exact .aside s _ _ _ _ _
  · cases hsave

/-! ## The next part of a task -/

/-- Where the task of a run goes on to, and what it makes of the model. -/
inductive Goes (model : Model φ Date) (generation : Nat) :
    Phase φ L → Model φ Date → Phase φ L → Prop
  | looks {due : List Nat} : Goes model generation .top model (.asking due)
  | overs {phase : Phase φ L} (hended : model.generation ≠ generation) :
      Goes model generation phase model .ended
  | last (hcurrent : model.generation = generation) (hnext : model.beginNext.1 = none) :
      Goes model generation (.asking []) model.beginNext.2 .finishing
  | begins {index saver : Nat} (hcurrent : model.generation = generation)
      (hnext : model.beginNext.1 = some index) :
      Goes model generation (.asking []) model.beginNext.2 (.recordingStart index saver)
  | beginsUnkept {index : Nat} {carry : Carry φ L} (hcurrent : model.generation = generation)
      (hnext : model.beginNext.1 = some index) (hindex : carry.index = index)
      (hnothing : carry.awaiting = .nothing) :
      Goes model generation (.asking []) model.beginNext.2 (.carrying carry)
  | carries {index saver : Nat} {carry : Carry φ L} (hindex : carry.index = index)
      (hnothing : carry.awaiting = .nothing) :
      Goes model generation (.recordingStart index saver) model (.carrying carry)
  | unkept {index saver : Nat} {reason : String} :
      Goes model generation (.recordingStart index saver) model (.settling index (.error reason))
  | releases {index : Nat} {outcome : Except String Unit}
      (hcurrent : model.generation = generation) :
      Goes model generation (.returned index outcome) (model.release index)
        (.settling index outcome)
  | returns {index : Nat} {outcome : Except String Unit} (hended : model.generation ≠ generation) :
      Goes model generation (.returned index outcome) model (.settling index outcome)
  | passes {index : Nat} {phase : Phase φ L} (hcurrent : model.generation = generation)
      (hphase : phase = .top ∨ ∃ saver, phase = .recordingPass saver) :
      Goes model generation (.settling index (.ok ())) (model.pass index) phase
  | fails {index : Nat} {reason : String} {phase : Phase φ L}
      (hcurrent : model.generation = generation)
      (hphase : phase = .ended ∨ ∃ saver, phase = .recordingFail saver) :
      Goes model generation (.settling index (.error reason)) (model.fail index reason) phase
  | passed {saver : Nat} : Goes model generation (.recordingPass saver) model .top
  | failed {saver : Nat} : Goes model generation (.recordingFail saver) model .ended
  | finishes {phase : Phase φ L} (hcurrent : model.generation = generation)
      (hphase : phase = .forgetting ∨ phase = .determining) :
      Goes model generation .finishing model.finish phase
  | forgets {phase : Phase φ L} (hphase : phase = .clearing ∨ phase = .determining) :
      Goes model generation .forgetting model phase
  | clears : Goes model generation .clearing model .determining
  | determines : Goes model generation .determining model .ended

/-- A task moved on to where its run goes, the model of the run changed as it goes there and
beside them only what is kept beside the run. -/
def MovesOn (s : Engine φ Date L) (task : Nat) (s' : Engine φ Date L) : Prop :=
  ∃ (t : Engine φ Date L) (drive : Drive φ L) (model : Model φ Date) (phase : Phase φ L),
    Beside s t ∧ t.drives[task]? = some drive ∧
      Goes t.model drive.generation drive.phase model phase ∧
      s' = { t with
        model := model, drives := t.drives.set task { drive with phase := phase } }

section Moves

variable {task generation : Nat} {before : Phase φ L}

/-- A task set on to where its run goes with its model as it is has moved on. -/
theorem Beside.movesOn {t : Engine φ Date L} {phase : Phase φ L} (hbeside : Beside s t)
    (hget : s.drives[task]? = some ⟨generation, before⟩)
    (hgoes : Goes s.model generation before s.model phase) :
    MovesOn s task (t.setPhase task phase) := by
  have hthere : t.drives[task]? = some ⟨generation, before⟩ := by
    rw [hbeside.drives, hget]
  rw [← hbeside.model] at hgoes
  exact ⟨t, _, _, _, hbeside, hthere, hgoes, setPhase_eq hthere phase⟩

/-- A task set on to where its run goes with its model changed, and what is published and the
threads that keep the run beside it, has moved on. -/
theorem movesOn_changed {model : Model φ Date} {phase : Phase φ L}
    (hget : s.drives[task]? = some ⟨generation, before⟩)
    (hgoes : Goes s.model generation before model phase) (published : Snapshot φ Date)
    (savers : List Saver) :
    MovesOn s task
      ({ s with model := model, published := published, savers := savers }.setPhase task phase) :=
  ⟨{ s with published := published, savers := savers }, _, model, phase,
    .aside s published s.medium s.disk s.handle savers, hget, hgoes,
    setPhase_eq (by exact hget) phase⟩

variable [BEq φ] [BEq Date]

/-- A task whose run has ended ends as it is to change its model. -/
theorem movesOn_over {change : Model φ Date → Model φ Date}
    (hget : s.drives[task]? = some ⟨generation, before⟩)
    (hmutate : s.mutate generation change = none) : MovesOn s task (s.setPhase task .ended) :=
  (Beside.refl s).movesOn hget (.overs (mutate_eq_none hmutate))

/-- A task that has asked everything ahead begins the next step, or finishes. -/
theorem drive_asking {cleared : Bool}
    (hget : s.drives[task]? = some ⟨generation, .asking []⟩)
    (hdrive : s.drive device task cleared = some s') : MovesOn s task s' := by
  simp only [Engine.drive, hget, Option.bind_eq_bind, Option.bind_some] at hdrive
  cases hmutate : s.mutate generation fun model => model.beginNext.2 with
  | none =>
      simp only [hmutate, Option.some.injEq] at hdrive
      rw [← hdrive]
      exact movesOn_over hget hmutate
  | some begun =>
      obtain ⟨hcurrent, published, rfl⟩ := mutate_eq_some hmutate
      simp only [hmutate] at hdrive
      cases hnext : s.model.beginNext.1 with
      | none =>
          simp only [hnext, Option.some.injEq] at hdrive
          rw [← hdrive]
          exact movesOn_changed hget (.last hcurrent hnext) published s.savers
      | some index =>
          simp only [hnext] at hdrive
          split at hdrive
          · obtain rfl := Option.some.inj hdrive
            exact movesOn_changed hget (.begins hcurrent hnext) published _
          · obtain ⟨carry, hcarry, rfl⟩ := Option.map_eq_some_iff.mp hdrive
            obtain ⟨hindex, hnothing⟩ := carry_eq_some hcarry
            exact movesOn_changed hget (.beginsUnkept hcurrent hnext hindex hnothing) published
              s.savers

/-- A task whose step settled passes or fails it. -/
theorem drive_settling {index : Nat} {outcome : Except String Unit} {cleared : Bool}
    (hget : s.drives[task]? = some ⟨generation, .settling index outcome⟩)
    (hdrive : s.drive device task cleared = some s') : MovesOn s task s' := by
  cases outcome with
  | ok done =>
      simp only [Engine.drive, hget, Option.bind_eq_bind, Option.bind_some] at hdrive
      cases hmutate : s.mutate generation fun model => model.pass index with
      | none =>
          simp only [hmutate, Option.some.injEq] at hdrive
          rw [← hdrive]
          exact movesOn_over hget hmutate
      | some passed =>
          obtain ⟨hcurrent, published, rfl⟩ := mutate_eq_some hmutate
          simp only [hmutate] at hdrive
          split at hdrive
          · obtain rfl := Option.some.inj hdrive
            exact movesOn_changed hget (.passes hcurrent (.inr ⟨_, rfl⟩)) published _
          · obtain rfl := Option.some.inj hdrive
            exact movesOn_changed hget (.passes hcurrent (.inl rfl)) published s.savers
  | error reason =>
      simp only [Engine.drive, hget, Option.bind_eq_bind, Option.bind_some] at hdrive
      cases hmutate : s.mutate generation fun model => model.fail index reason with
      | none =>
          simp only [hmutate, Option.some.injEq] at hdrive
          rw [← hdrive]
          exact movesOn_over hget hmutate
      | some failed =>
          obtain ⟨hcurrent, published, rfl⟩ := mutate_eq_some hmutate
          simp only [hmutate] at hdrive
          split at hdrive
          · obtain rfl := Option.some.inj hdrive
            exact movesOn_changed hget (.fails hcurrent (.inr ⟨_, rfl⟩)) published _
          · obtain rfl := Option.some.inj hdrive
            exact movesOn_changed hget (.fails hcurrent (.inl rfl)) published s.savers

/-- A task that waits for its run to be kept goes on once the thread that keeps it is done. -/
theorem drive_recording {cleared : Bool} (hget : s.drives[task]? = some ⟨generation, before⟩)
    (hrecording : (∃ index saver, before = .recordingStart index saver) ∨
      (∃ saver, before = .recordingPass saver) ∨ ∃ saver, before = .recordingFail saver)
    (hdrive : s.drive device task cleared = some s') : MovesOn s task s' := by
  rcases hrecording with ⟨index, saver, rfl⟩ | ⟨saver, rfl⟩ | ⟨saver, rfl⟩
  · simp only [Engine.drive, hget, Option.bind_eq_bind, Option.bind_some] at hdrive
    obtain ⟨held, -, hdrive⟩ := Option.bind_eq_some_iff.mp hdrive
    split at hdrive
    · obtain ⟨carry, hcarry, rfl⟩ := Option.map_eq_some_iff.mp hdrive
      obtain ⟨hindex, hnothing⟩ := carry_eq_some hcarry
      exact (Beside.refl s).movesOn hget (.carries hindex hnothing)
    · obtain rfl := Option.some.inj hdrive
      exact (Beside.refl s).movesOn hget .unkept
    · cases hdrive
  · simp only [Engine.drive, hget, Option.bind_eq_bind, Option.bind_some] at hdrive
    obtain ⟨held, -, hdrive⟩ := Option.bind_eq_some_iff.mp hdrive
    split at hdrive
    · obtain rfl := Option.some.inj hdrive
      exact (Beside.refl s).movesOn hget .passed
    · cases hdrive
  · simp only [Engine.drive, hget, Option.bind_eq_bind, Option.bind_some] at hdrive
    obtain ⟨held, -, hdrive⟩ := Option.bind_eq_some_iff.mp hdrive
    split at hdrive
    · obtain rfl := Option.some.inj hdrive
      exact (Beside.refl s).movesOn hget .failed
    · cases hdrive

/-- A task whose steps are all done finishes the run. -/
theorem drive_finishing {cleared : Bool}
    (hget : s.drives[task]? = some ⟨generation, .finishing⟩)
    (hdrive : s.drive device task cleared = some s') : MovesOn s task s' := by
  simp only [Engine.drive, hget, Option.bind_eq_bind, Option.bind_some] at hdrive
  cases hmutate : s.mutate generation Model.finish with
  | none =>
      simp only [hmutate, Option.some.injEq] at hdrive
      rw [← hdrive]
      exact movesOn_over hget hmutate
  | some finished =>
      obtain ⟨hcurrent, published, rfl⟩ := mutate_eq_some hmutate
      simp only [hmutate, Option.some.injEq] at hdrive
      rw [← hdrive]
      refine movesOn_changed hget (.finishes hcurrent ?_) published s.savers
      split
      · exact .inl rfl
      · exact .inr rfl

/-- A task that forgets its run takes the medium to do so. -/
theorem drive_forgetting {cleared : Bool}
    (hget : s.drives[task]? = some ⟨generation, .forgetting⟩)
    (hdrive : s.drive device task cleared = some s') : MovesOn s task s' := by
  simp only [Engine.drive, hget, Option.bind_eq_bind, Option.bind_some] at hdrive
  obtain ⟨⟨taken, current⟩, htaken, hdrive⟩ := Option.bind_eq_some_iff.mp hdrive
  obtain rfl := Option.some.inj hdrive
  obtain ⟨disk, rfl⟩ := takeDisk_eq_some htaken
  refine (Beside.aside s s.published s.medium disk s.handle s.savers).movesOn hget (.forgets ?_)
  split
  · exact .inl rfl
  · exact .inr rfl

/-- The next part of a task moves the task on. -/
theorem drive_goes {cleared : Bool} (hdrive : s.drive device task cleared = some s') :
    MovesOn s task s' := by
  have hsome : ∃ drive, s.drives[task]? = some drive := by
    unfold Engine.drive at hdrive
    obtain ⟨drive, hget, -⟩ := Option.bind_eq_some_iff.mp hdrive
    exact ⟨drive, hget⟩
  obtain ⟨⟨generation, before⟩, hget⟩ := hsome
  have hparts := hdrive
  simp only [Engine.drive, hget, Option.bind_eq_bind, Option.bind_some] at hparts
  cases before with
  | top =>
      obtain rfl := Option.some.inj hparts
      exact (Beside.refl s).movesOn hget .looks
  | asking due =>
      cases due with
      | nil => exact drive_asking hget hdrive
      | cons index rest => cases hparts
  | recordingStart index saver => exact drive_recording hget (.inl ⟨index, saver, rfl⟩) hdrive
  | carrying carry => cases hparts
  | returned index outcome =>
      obtain rfl := Option.some.inj hparts
      rcases s.tryMutate_cases generation fun model => model.release index with
        ⟨hcurrent, published, hreleased⟩ | ⟨hended, hsame⟩
      · rw [hreleased]
        exact movesOn_changed hget (.releases hcurrent) published s.savers
      · rw [hsame]
        exact (Beside.refl s).movesOn hget (.returns hended)
  | settling index outcome => exact drive_settling hget hdrive
  | recordingPass saver => exact drive_recording hget (.inr (.inl ⟨saver, rfl⟩)) hdrive
  | recordingFail saver => exact drive_recording hget (.inr (.inr ⟨saver, rfl⟩)) hdrive
  | finishing => exact drive_finishing hget hdrive
  | forgetting => exact drive_forgetting hget hdrive
  | clearing =>
      obtain rfl := Option.some.inj hparts
      exact (Beside.aside s s.published _ none s.handle s.savers).movesOn hget .clears
  | determining =>
      obtain rfl := Option.some.inj hparts
      exact (Beside.soon s).movesOn hget .determines
  | ended => cases hparts

end Moves

/-! ## What a step asks ahead, what it is given, and work in the pool -/

/-- A step having asked ahead leaves its task the steps that are still to. -/
theorem askedAhead_cases {task : Nat} (hasked : s.askedAhead task = some s') :
    ∃ (drive : Drive φ L) (index : Nat) (rest : List Nat),
      s.drives[task]? = some drive ∧ drive.phase = .asking (index :: rest) ∧
        s' = s.setPhase task (.asking rest) := by
  unfold askedAhead at hasked
  obtain ⟨drive, hget, hasked⟩ := Option.bind_eq_some_iff.mp hasked
  split at hasked
  · rename_i index rest hphase
    exact ⟨drive, index, rest, hget, hphase, (Option.some.inj hasked).symm⟩
  · cases hasked

/-- A step given what it waits on goes on awaiting nothing. -/
theorem resume_cases {task : Nat} (hresume : s.resume device task = some s') :
    ∃ (drive : Drive φ L) (carry : Carry φ L) (given : Work φ) (body : L),
      s.drives[task]? = some drive ∧ drive.phase = .carrying carry ∧
        s.given carry.awaiting = some given ∧
        (∃ step, device.steps[carry.index]? = some step ∧ step.next carry.body given = some body) ∧
        s' = s.setPhase task (.carrying { carry with body := body, awaiting := .nothing }) := by
  unfold resume at hresume
  obtain ⟨drive, hget, hdrive⟩ := Option.bind_eq_some_iff.mp hresume
  split at hdrive
  · rename_i carry hphase
    obtain ⟨step, hstep, hgives⟩ := Option.bind_eq_some_iff.mp hdrive
    obtain ⟨given, hgiven, hbody⟩ := Option.bind_eq_some_iff.mp hgives
    obtain ⟨body, hnext, hdone⟩ := Option.bind_eq_some_iff.mp hbody
    exact ⟨drive, carry, given, body, hget, hphase, hgiven, ⟨step, hstep, hnext⟩,
      (Option.some.inj hdone).symm⟩
  · cases hdrive

/-- Work in the pool that comes to its end was going on. -/
theorem finishWork_cases {work : Nat} (hfinish : s.finishWork work = some s') :
    ∃ pooled : Pooled, s.pool[work]? = some pooled ∧ pooled.going = true ∧
      s' = { s with pool := s.pool.set work { pooled with going := false } } := by
  unfold finishWork at hfinish
  obtain ⟨pooled, hget, hfinish⟩ := Option.bind_eq_some_iff.mp hfinish
  split at hfinish
  · rename_i hgoing
    exact ⟨pooled, hget, hgoing, (Option.some.inj hfinish).symm⟩
  · cases hfinish

section Parts

variable [BEq φ] [BEq Date]

/-- The steps asking ahead leave their task where it is, and change the model of a run that has not
ended. -/
theorem askAhead_cases {task : Nat} {question : Question}
    (hask : s.askAhead task question = some s') :
    ∃ (drive : Drive φ L) (index : Nat) (rest : List Nat),
      s.drives[task]? = some drive ∧ drive.phase = .asking (index :: rest) ∧
        ((drive.generation = s.model.generation ∧ ∃ published, s' = { s with
            model := s.model.askLater index question, published := published,
            drives := s.drives.set task { drive with phase := .asking (index :: rest) } }) ∨
          s' = s) := by
  unfold Engine.askAhead at hask
  obtain ⟨drive, hget, hask⟩ := Option.bind_eq_some_iff.mp hask
  split at hask
  · rename_i index rest hphase
    refine ⟨drive, index, rest, hget, hphase, ?_⟩
    obtain rfl := Option.some.inj hask
    have hdrive : s.drives.set task { drive with phase := .asking (index :: rest) } = s.drives := by
      obtain ⟨hlt, hat⟩ := List.getElem?_eq_some_iff.mp hget
      rw [← hphase, ← hat]
      exact List.set_getElem_self hlt
    rcases s.tryMutate_cases drive.generation fun model => model.askLater index question with
      ⟨hcurrent, published, hasked⟩ | ⟨-, hsame⟩
    · exact Or.inl ⟨hcurrent.symm, published, by rw [hasked, hdrive]⟩
    · exact Or.inr hsame
  · cases hask

/-! ## What a step does next -/

/-- Where a step being carried out takes its run by what it does, its body moved on. -/
inductive Works (s : Engine φ Date L) (task : Nat) (drive : Drive φ L) (carry : Carry φ L)
    (body : L) : Work φ → Engine φ Date L → Prop where
  | asks (asked : Ask φ) (hnothing : carry.awaiting = .nothing) :
      Works s task drive carry body (.ask asked)
        ((s.asks drive.generation { carry with body := body } asked).1.setPhase task
          (.carrying (s.asks drive.generation { carry with body := body } asked).2))
  | inPlace (hnothing : carry.awaiting = .nothing) :
      Works s task drive carry body .inPlace
        (s.setPhase task (.carrying { carry with body := body }))
  | offload (hnothing : carry.awaiting = .nothing) :
      Works s task drive carry body .offload
        ((s.handOver task carry.index).setPhase task
          (.carrying { carry with body := body, awaiting := .pool s.pool.length }))
  | joined {work : Nat} {pooled : Pooled} (hawaiting : carry.awaiting = .pool work)
      (hpool : s.pool[work]? = some pooled) (hstopped : pooled.going = false) :
      Works s task drive carry body .joined
        (s.setPhase task (.carrying { carry with body := body, awaiting := .nothing }))
  | limit :
      Works s task drive carry body .limit
        (s.setPhase task (.carrying { carry with body := body, awaiting := .nothing }))
  | ends (outcome : Except String Unit) (hnothing : carry.awaiting = .nothing) :
      Works s task drive carry body (.ends outcome)
        ((s.setPhase task (.returned carry.index outcome)).dropNotices drive.generation
          carry.notices)

/-- What a step does next, it does as it is carried out. -/
theorem work_goes {task : Nat} {done : Work φ} (hwork : s.work device task done = some s') :
    ∃ (drive : Drive φ L) (carry : Carry φ L) (body : L), s.drives[task]? = some drive ∧
      drive.phase = .carrying carry ∧
      (∃ step, device.steps[carry.index]? = some step ∧ step.next carry.body done = some body) ∧
      Works s task drive carry body done s' := by
  unfold work at hwork
  obtain ⟨drive, hget, hdrive⟩ := Option.bind_eq_some_iff.mp hwork
  clear hwork
  split at hdrive
  · rename_i carry hphase
    obtain ⟨step, hstep, hbody⟩ := Option.bind_eq_some_iff.mp hdrive
    clear hdrive
    obtain ⟨body, hnext, hdone⟩ := Option.bind_eq_some_iff.mp hbody
    clear hbody
    refine ⟨drive, carry, body, hget, hphase, ⟨step, hstep, hnext⟩, ?_⟩
    simp only at hdone
    split at hdone
    · rename_i asked hnothing
      obtain rfl := Option.some.inj hdone
      exact .asks asked hnothing
    · rename_i hnothing
      obtain rfl := Option.some.inj hdone
      exact .inPlace hnothing
    · rename_i hnothing
      obtain rfl := Option.some.inj hdone
      exact .offload hnothing
    · rename_i work hawaiting
      obtain ⟨pooled, hpool, hover⟩ := Option.bind_eq_some_iff.mp hdone
      split at hover
      · cases hover
      · rename_i hstopped
        obtain rfl := Option.some.inj hover
        exact .joined hawaiting hpool (Bool.eq_false_iff.mpr hstopped)
    · obtain rfl := Option.some.inj hdone
      exact .limit
    · rename_i outcome hnothing
      obtain rfl := Option.some.inj hdone
      exact .ends outcome hnothing
    · cases hdone
  · cases hdrive

/-! ## The parts of a determination -/

/-- Where the next part of a determination leads, and what it is left at. -/
inductive Determines (device : Device φ Date L) (s : Engine φ Date L) :
    Determination → Option Done → Engine φ Date L → Determination → Prop where
  | looks (hidle : s.determinations.any Reading = false) :
      Determines device s .queued none s (if s.model.atRest then .reading [] true else .ended)
  | reads {found : List Done} {quiet : Bool} (done : Done)
      (hless : found.length < device.steps.length) :
      Determines device s (.reading found quiet) (some done) s (.reading (found ++ [done]) quiet)
  | settles {found : List Done} {quiet : Bool} (hall : device.steps.length ≤ found.length) :
      Determines device s (.reading found quiet) none (s.settle device found quiet) .ended

/-- The next part of a determination leads where it is to and leaves the determination there. -/
theorem determine_goes {index : Nat} {read : Option Done}
    (hdetermine : s.determine device index read = some s') :
    ∃ (held left : Determination) (t : Engine φ Date L), s.determinations[index]? = some held ∧
      Determines device s held read t left ∧ s' = t.setDetermination index left := by
  unfold determine at hdetermine
  obtain ⟨held, hget, hnext⟩ := Option.bind_eq_some_iff.mp hdetermine
  clear hdetermine
  split at hnext
  · split at hnext
    · cases hnext
    · rename_i hidle
      exact ⟨_, _, _, hget, .looks (Bool.eq_false_iff.mpr hidle), (Option.some.inj hnext).symm⟩
  · split at hnext
    · rename_i done hless
      exact ⟨_, _, _, hget, .reads done hless, (Option.some.inj hnext).symm⟩
    · cases hnext
  · split at hnext
    · cases hnext
    · rename_i hall
      exact ⟨_, _, _, hget, .settles (Nat.le_of_not_lt hall), (Option.some.inj hnext).symm⟩
  · cases hnext

/-! ## A task aborted, and what is left of an act -/

/-- What the closing of prompts keeps to, dropping the notices a step holds does. -/
theorem dropNotices_kept {P : Engine φ Date L → Prop}
    (hclose : ∀ s generation id, P s → P (s.tryMutate generation fun model => model.close id))
    (h : P s) (generation : Nat) (notices : List String) :
    P (s.dropNotices generation notices) := by
  unfold dropNotices
  induction notices generalizing s with
  | nil => exact h
  | cons id rest ih => exact ih (hclose s generation id h)

/-- What a task's end, the medium released and the closing of prompts keep to, a task aborted
does. -/
theorem abort_kept {P : Engine φ Date L → Prop}
    (hdisk : ∀ s, P s → P { s with disk := none })
    (hover : ∀ s task, P s → P (s.setPhase task .ended))
    (hclose : ∀ s generation id, P s → P (s.tryMutate generation fun model => model.close id))
    (h : P s) (task : Nat) : P (s.abort task) := by
  have hreleased : P (if s.disk = some (.drive task) then { s with disk := none } else s) := by
    split
    · exact hdisk s h
    · exact h
  unfold abort
  simp only
  split
  · rename_i generation carry _
    exact dropNotices_kept hclose (hover _ task hreleased) generation carry.notices
  · exact hover _ task hreleased

/-- Prompts that close change nothing of the acts. -/
theorem tryMutate_calls (s : Engine φ Date L) (generation : Nat)
    (change : Model φ Date → Model φ Date) : (s.tryMutate generation change).calls = s.calls := by
  rcases s.tryMutate_cases generation change with ⟨-, published, hchanged⟩ | ⟨-, hsame⟩
  · rw [hchanged]
  · rw [hsame]

/-- A task aborted changes nothing of the acts. -/
theorem abort_calls (s : Engine φ Date L) (task : Nat) : (s.abort task).calls = s.calls := by
  have hclose : ∀ (t : Engine φ Date L) generation id, t.calls = s.calls →
      (t.tryMutate generation fun model => model.close id).calls = s.calls :=
    fun t generation id hcalls => (t.tryMutate_calls generation _).trans hcalls
  exact abort_kept (fun _ hcalls => hcalls) (fun _ _ hcalls => hcalls) hclose rfl task

/-- What is kept to as a task is spawned, as an act moves on, as a task is aborted and beside the
run, what is left of an act keeps to. -/
theorem call_kept {P : Engine φ Date L → Prop}
    (hbeside : ∀ s t, Beside s t → P s → P t)
    (habort : ∀ s task, P s → P (s.abort task))
    (hspawn : ∀ s index generation after, s.calls[index]? = some (.spawning generation) →
      (∀ other, after ≠ .spawning other) → P s → P ((s.spawn generation).setCall index after))
    (hset : ∀ s index before after, s.calls[index]? = some before →
      (∀ other, after ≠ .spawning other) → P s → P (s.setCall index after))
    (h : P s) {index : Nat} {cleared : Bool}
    (hcall : s.call device index cleared = some s') : P s' := by
  unfold Engine.call at hcall
  obtain ⟨left, hget, hcall⟩ := Option.bind_eq_some_iff.mp hcall
  cases left with
  | spawning generation =>
      obtain rfl := Option.some.inj hcall
      exact hspawn s index generation _ hget (fun _ hsame => by cases hsame) h
  | storing task =>
      obtain rfl := Option.some.inj hcall
      apply hset { s with handle := some task } index _ _ hget (fun _ hsame => by cases hsame)
      exact hbeside s _ (.aside s s.published s.medium s.disk (some task) s.savers) h
  | aborting generation =>
      obtain rfl := Option.some.inj hcall
      have hleft : ∀ other, (if device.kept then Call.forgetting generation else .determining) ≠
          .spawning other := by
        intro other hsame
        split at hsame <;> cases hsame
      cases hhandle : s.handle with
      | none => exact hset s index _ _ hget hleft h
      | some task =>
          have hdropped : P { s with handle := none } :=
            hbeside s _ (.aside s s.published s.medium s.disk none s.savers) h
          apply hset _ index (.aborting generation) _ _ hleft (habort _ task hdropped)
          rw [abort_calls]
          exact hget
  | forgetting generation =>
      obtain ⟨⟨taken, current⟩, htaken, hcall⟩ := Option.bind_eq_some_iff.mp hcall
      obtain rfl := Option.some.inj hcall
      obtain ⟨disk, rfl⟩ := takeDisk_eq_some htaken
      have hleft : ∀ other, (if current then Call.clearing else .determining) ≠
          .spawning other := by
        intro other hsame
        split at hsame <;> cases hsame
      apply hset { s with disk := disk } index _ _ hget hleft
      exact hbeside s _ (.aside s s.published s.medium disk s.handle s.savers) h
  | clearing =>
      obtain rfl := Option.some.inj hcall
      apply hset (s.clearDisk cleared) index _ _ hget (fun _ hsame => by cases hsame)
      exact hbeside s _ (.aside s s.published _ none s.handle s.savers) h
  | determining =>
      obtain rfl := Option.some.inj hcall
      apply hset s.determineSoon index _ _ hget (fun _ hsame => by cases hsame)
      exact hbeside s _ (.soon s) h
  | ended => cases hcall

end Parts

/-! ## What a step asks -/

/-- What a step makes of the model of its run by what it asks: the run is the same, only the step
comes to hold it up, the step is shown as it was, and only a channel given out since comes to be
waited on. -/
structure Amends (step : Nat) (model : Model φ Date) (channels : Nat) (after : Model φ Date)
    (channels' : Nat) : Prop where
  state : after.state = model.state
  generation : after.generation = model.generation
  le : channels ≤ channels'
  held : model.HeldBy (some step) → after.HeldBy (some step)
  shown : model.Shown step → after.Shown step
  awaits : ∀ channel, after.Awaits channel → model.Awaits channel ∨ channels ≤ channel

namespace Amends

/-- Prompts that close amend a model, with the rest of it as it was. -/
theorem of_sublist {model after : Model φ Date} {step channels : Nat}
    (hstate : after.state = model.state) (hgeneration : after.generation = model.generation)
    (hsteps : after.steps = model.steps) (hless : after.prompts.Sublist model.prompts) :
    Amends step model channels after channels where
  state := hstate
  generation := hgeneration
  le := Nat.le_refl channels
  held := fun hheld => hheld.of_sublist hless
  shown := fun hshown => by rwa [Model.Shown, hsteps]
  awaits := fun _ hopen => .inl (hopen.of_sublist hless)

/-- A change to a step that leaves its state amends a model. -/
theorem of_setStep (model : Model φ Date) (step channels : Nat) (change : Entry φ → Entry φ)
    (hkeeps : ∀ entry, (change entry).state = entry.state) :
    Amends step model channels (model.setStep step change) channels where
  state := rfl
  generation := rfl
  le := Nat.le_refl channels
  held := fun hheld => hheld
  shown := fun hshown => hshown.setStep hkeeps
  awaits := fun _ hopen => .inl hopen

/-- A step that needs an answer amends a model, a channel given out to it. -/
theorem need (model : Model φ Date) (step channels : Nat) (key : String)
    (kind : Channel.Report.PromptKind) (text : String) :
    Amends step model channels (model.need step key kind text channels).2 (channels + 1) := by
  obtain ⟨hstate, hgeneration, hsteps, -⟩ := model.need_rest step key kind text channels
  refine ⟨hstate, hgeneration, Nat.le_succ channels, Model.need_held, fun hshown => ?_,
    fun channel hopen => ?_⟩
  · rwa [Model.Shown, hsteps]
  · rcases Model.need_awaits hopen with hold | rfl
    · exact .inl hold
    · exact .inr (Nat.le_refl _)

/-- A step that asks for something ahead amends a model. -/
theorem askLater (model : Model φ Date) (step channels : Nat) (question : Question) :
    Amends step model channels (model.askLater step question) channels := by
  obtain ⟨hstate, hgeneration, hsteps, -⟩ := model.askLater_rest step question
  refine ⟨hstate, hgeneration, Nat.le_refl channels, Model.askLater_held, fun hshown => ?_,
    fun _ hopen => .inl (Model.askLater_awaits hopen)⟩
  rwa [Model.Shown, hsteps]

/-- A step that asks an operator to do something amends a model. -/
theorem notice (model : Model φ Date) (step channels : Nat) (key text : String) :
    Amends step model channels (model.notice step key text) channels where
  state := rfl
  generation := rfl
  le := Nat.le_refl channels
  held := Model.notice_held
  shown := fun hshown => hshown
  awaits := fun _ hopen => .inl (Model.notice_awaits hopen)

end Amends

/-- A notice a step asks for is under a key no open prompt has. -/
def Unopened (model : Model φ Date) (asked : Ask φ) : Prop :=
  ∀ key text, asked = .notice key text → ∀ prompt ∈ model.prompts, prompt.key ≠ key

section Asks

variable [BEq φ] [BEq Date]

/-- What a step asks of its run, while it is under way, amends the model, and the prompts differ
as they did but for a notice. -/
theorem asks_amends {generation : Nat} (hcurrent : s.model.generation = generation)
    (carry : Carry φ L) (hnothing : carry.awaiting = .nothing) (asked : Ask φ) :
    ∃ (model : Model φ Date) (published : Snapshot φ Date) (channels : Nat) (next : Carry φ L),
      s.asks generation carry asked =
        ({ s with model := model, published := published, channels := channels }, next) ∧
      Amends carry.index s.model s.channels model channels ∧
      (Unopened s.model asked → s.model.Listed s.channels → model.Listed channels) ∧
      next.index = carry.index ∧
      ∀ channel, next.awaiting = .answer (.wait channel) → channel < channels := by
  have hmutate : ∀ change : Model φ Date → Model φ Date, ∃ published,
      s.mutate generation change =
        some { s with model := change s.model, published := published } := by
    intro change
    obtain ⟨published, hpublish⟩ := publish_eq { s with model := change s.model }
    exact ⟨published, by rw [mutate, if_pos hcurrent, hpublish]⟩
  have hchange : ∀ change : Model φ Date → Model φ Date, ∃ published,
      s.tryMutate generation change =
        { s with model := change s.model, published := published } := by
    intro change
    obtain ⟨published, hchanged⟩ := hmutate change
    exact ⟨published, by rw [tryMutate, hchanged, Option.getD_some]⟩
  have hawaiting : ∀ channel channels : Nat, carry.awaiting = .answer (.wait channel) →
      channel < channels := by
    intro channel channels hwaits
    rw [hnothing] at hwaits
    cases hwaits
  cases asked with
  | progress fraction =>
      obtain ⟨published, hchanged⟩ := hchange fun model =>
        model.setStep carry.index fun entry => { entry with progress := some fraction }
      have hamends := Amends.of_setStep s.model carry.index s.channels
        (fun entry : Entry φ => { entry with progress := some fraction }) (fun _ => rfl)
      exact ⟨_, published, s.channels, carry, by simp only [Engine.asks, hchanged], hamends,
        fun _ hlisted => hlisted.of_prompts rfl, rfl, fun _ => hawaiting _ _⟩
  | result result =>
      obtain ⟨published, hchanged⟩ := hchange fun model =>
        model.setStep carry.index fun entry => { entry with result := some result }
      have hamends := Amends.of_setStep s.model carry.index s.channels
        (fun entry : Entry φ => { entry with result := some result }) (fun _ => rfl)
      exact ⟨_, published, s.channels, carry, by simp only [Engine.asks, hchanged], hamends,
        fun _ hlisted => hlisted.of_prompts rfl, rfl, fun _ => hawaiting _ _⟩
  | need key kind text =>
      obtain ⟨published, hchanged⟩ := hmutate fun _ =>
        (s.model.need carry.index key kind text s.channels).2
      refine ⟨(s.model.need carry.index key kind text s.channels).2, published, s.channels + 1,
        { carry with
          awaiting := .answer (s.model.need carry.index key kind text s.channels).1 },
        by simp only [Engine.asks, hchanged], .need s.model carry.index s.channels key kind text,
        fun _ hlisted => hlisted.need carry.index key kind text, rfl, fun channel hwaits => ?_⟩
      rw [Model.need_wait (Awaiting.answer.inj hwaits)]
      exact Nat.lt_succ_self _
  | askLater question =>
      obtain ⟨published, hchanged⟩ := hchange fun model => model.askLater carry.index question
      exact ⟨s.model.askLater carry.index question, published, s.channels, carry,
        by simp only [Engine.asks, hchanged], .askLater s.model carry.index s.channels question,
        fun _ hlisted => hlisted.askLater carry.index question, rfl, fun _ => hawaiting _ _⟩
  | takeText key default =>
      obtain ⟨published, hchanged⟩ := hmutate fun model =>
        if (model.held key).isNone && default.isSome then model.closeKey key else model
      have hless : (if (s.model.held key).isNone && default.isSome then s.model.closeKey key
          else s.model).prompts.Sublist s.model.prompts := by
        split
        · exact s.model.closeKey_sublist key
        · exact List.Sublist.refl _
      have hamends : Amends carry.index s.model s.channels
          (if (s.model.held key).isNone && default.isSome then s.model.closeKey key else s.model)
          s.channels := by
        apply Amends.of_sublist _ _ _ hless <;> split <;> rfl
      refine ⟨_, published, s.channels,
        { carry with awaiting := .text ((s.model.held key).elim default Model.asText) }, ?_,
        hamends, fun _ hlisted => hlisted.of_sublist hless, rfl, fun _ hwaits => by cases hwaits⟩
      cases hheld : s.model.held key <;> simp only [Engine.asks, hchanged, hheld, Option.elim]
  | forget key =>
      obtain ⟨published, hchanged⟩ := hchange fun model => model.forget key
      exact ⟨s.model.forget key, published, s.channels, carry,
        by simp only [Engine.asks, hchanged], .of_sublist rfl rfl rfl (List.Sublist.refl _),
        fun _ hlisted => hlisted.of_prompts rfl, rfl, fun _ => hawaiting _ _⟩
  | notice key text =>
      obtain ⟨published, hchanged⟩ := hmutate fun model => model.notice carry.index key text
      exact ⟨s.model.notice carry.index key text, published, s.channels,
        { carry with notices := carry.notices ++ [key] },
        by simp only [Engine.asks, hchanged], .notice s.model carry.index s.channels key text,
        fun hfresh hlisted => hlisted.notice carry.index text (hfresh key text rfl), rfl,
        fun _ => hawaiting _ _⟩
  | close id =>
      obtain ⟨published, hchanged⟩ := hchange fun model => model.close id
      simp only [Engine.asks, hchanged]
      split
      · exact ⟨s.model.close id, published, s.channels,
          { carry with notices := carry.notices.erase id }, rfl,
          .of_sublist rfl rfl rfl (s.model.close_sublist id),
          fun _ hlisted => hlisted.of_sublist (s.model.close_sublist id), rfl,
          fun _ => hawaiting _ _⟩
      · exact ⟨s.model, s.published, s.channels, carry, rfl,
          .of_sublist rfl rfl rfl (List.Sublist.refl _), fun _ hlisted => hlisted, rfl,
          fun _ => hawaiting _ _⟩

end Asks

end Bliti.Provision.Engine
