import Bliti.Provision.Engine.Orderly

/-!
# Provisioning - runs that leave no step's work behind

A stop is accepted while the step being carried out may have work in hand, a step may
drop what it awaits at a time limit, and a start may be accepted while done-states are
being determined.  Where none of these happens, what holds between two stretches is
kept by every stretch.
-/

namespace Bliti.Provision.Engine

open Channel.Messages (Answer)

variable {φ Date L : Type} {s s' : Engine φ Date L} {device : Device φ Date L}

/-! ## The guard -/

/-- The stretches that leave no step's work behind: a stop is accepted only while no step's work
can go on, a start only while no determination is under way, and a time limit passes only in the
run under way, with no work of the step going on in the pool. -/
def Tidy (s : Engine φ Date L) : Move φ → Prop
  | .ask asked =>
      ∀ kind, Kind.read asked.act = some kind → kind.acceptedIn s.model.run = true →
        (kind = .stop → s.works = []) ∧ (kind = .start → s.determinations.any Reading = false)
  | .work task .limit =>
      ∀ drive, s.drives[task]? = some drive → ∀ carry, drive.phase = .carrying carry →
        drive.generation = s.model.generation ∧
          ∀ work pooled, carry.awaiting = .pool work → s.pool[work]? = some pooled →
            pooled.going = false
  | _ => True

/-- The stretches nothing is asked of: those of no act and of no time limit. -/
def Plain (move : Move φ) : Bool :=
  match move with
  | .ask _ => false
  | .work _ .limit => false
  | _ => true

/-- A stretch of no act and of no time limit leaves no step's work behind. -/
theorem tidy_of_plain {move : Move φ} (hplain : Plain move = true) : Tidy s move := by
  unfold Plain at hplain
  split at hplain
  · cases hplain
  · cases hplain
  · rename_i hask hlimit
    unfold Tidy
    split
    · exact absurd rfl (hask _)
    · exact absurd rfl (hlimit _)
    · trivial

/-! ## Phases -/

/-- A step given what it waits on can go on. -/
theorem canGoOn_of_given {carry : Carry φ L} {given : Work φ}
    (hgiven : s.given carry.awaiting = some given) : s.canGoOn carry = true := by
  unfold canGoOn
  unfold Engine.given at hgiven
  split at hgiven
  · rename_i hawaiting
    simp [hawaiting]
  · rename_i channel hawaiting
    obtain ⟨answer, hanswer, -⟩ := Option.map_eq_some_iff.mp hgiven
    simp [hawaiting, hanswer]
  · rename_i hawaiting
    simp [hawaiting]
  · cases hgiven

section Phases

variable {phase : Phase φ L}

/-- The step a task is carrying out. -/
def carryOf : Phase φ L → Option (Carry φ L)
  | .carrying carry => some carry
  | _ => none

/-- A task that carries no step out waits for no answer. -/
theorem not_waits (hnone : carryOf phase = none) (channel : Nat) : ¬ Waits channel phase := by
  rintro ⟨carry, rfl, -⟩
  cases hnone

/-- A task that is neither carrying a step out nor over has no work in the pool. -/
theorem not_pools {before : Phase φ L} (hphase : before = phase) (hnone : carryOf phase = none)
    (hended : phase ≠ .ended) (work index : Nat) : ¬ Pools work index before := by
  rw [hphase]
  rintro (hover | ⟨carry, rfl, -⟩)
  · exact hended hover
  · cases hnone

/-- A step that does not await the pool has no work in it. -/
theorem not_pools_of_awaiting {carry : Carry φ L} (hawaiting : ∀ work, carry.awaiting ≠ .pool work)
    (work index : Nat) : ¬ Pools work index (.carrying carry) := by
  rintro (hover | ⟨waiting, hwaiting, -, hpool⟩)
  · cases hover
  · obtain rfl := Phase.carrying.inj hwaiting
    exact hawaiting work hpool

/-- A step that awaits no answer waits on no channel. -/
theorem not_waits_of_awaiting {carry : Carry φ L}
    (hawaiting : ∀ channel, carry.awaiting ≠ .answer (.wait channel)) (channel : Nat) :
    ¬ Waits channel (.carrying carry) := by
  rintro ⟨waiting, hwaiting, hanswer⟩
  obtain rfl := Phase.carrying.inj hwaiting
  exact hawaiting channel hanswer

end Phases

/-! ## Stretches -/

namespace Orderly

/-- The task of the run under way moves on with the run still under way. -/
theorem goes_on (h : Orderly s) {task : Nat} {drive : Drive φ L} {phase : Phase φ L}
    (hget : s.drives[task]? = some drive) (hcurrent : drive.generation = s.model.generation)
    (hrunning : s.model.state = .running)
    (hquiet : ∀ work index, ¬ Pools work index drive.phase) {model : Model φ Date}
    {published : Snapshot φ Date} {savers : List Saver}
    (hstate : model.state = s.model.state)
    (hgeneration : model.generation = s.model.generation) (hshows : Shows model phase)
    (hawaits : ∀ channel, model.Awaits channel → s.model.Awaits channel)
    (hnone : ∀ channel, ¬ Waits channel phase) :
    Orderly { s with
      model := model, published := published, savers := savers,
      drives := s.drives.set task { drive with phase := phase } } := by
  have hstill : model.state = .running := hstate.trans hrunning
  apply h.advance hget hcurrent hrunning hquiet hgeneration (Nat.le_refl _) hshows
  · exact fun hnot => absurd hstill hnot
  · intro hfailed
    rw [hstill] at hfailed
    cases hfailed
  · exact fun channel hopen => Or.inl (hawaits channel hopen)
  · exact fun channel hwaits => absurd hwaits (hnone channel)

/-- A task may come to its end at any place. -/
theorem overs (h : Orderly s) (task : Nat) : Orderly (s.setPhase task .ended) := by
  cases hget : s.drives[task]? with
  | none =>
      have hsame : s.setPhase task .ended = s := by
        simp [setPhase, List.modify_eq_set_getElem?, hget]
      rwa [hsame]
  | some drive =>
      refine h.moves hget (fun _ => trivial) ?_ ?_ ?_
      · exact fun _ => ⟨trivial, fun channel hwaits => absurd hwaits (not_waits rfl channel)⟩
      · exact fun channel hwaits => absurd hwaits (not_waits rfl channel)
      · exact fun _ _ _ _ _ => Or.inl rfl

/-- A task with no work in the pool moves on, to where it carries no step out. -/
theorem walks (h : Orderly s) {task : Nat} {drive : Drive φ L} {phase : Phase φ L}
    (hget : s.drives[task]? = some drive)
    (hquiet : ∀ work index, ¬ Pools work index drive.phase) (hnone : carryOf phase = none)
    (hidles : s.Idles phase)
    (hshows : drive.generation = s.model.generation → Shows s.model phase) :
    Orderly (s.setPhase task phase) := by
  refine h.moves hget hshows ?_ ?_ ?_
  · exact fun _ => ⟨hidles, fun channel hwaits => absurd hwaits (not_waits hnone channel)⟩
  · exact fun channel hwaits => absurd hwaits (not_waits hnone channel)
  · intro work pooled hwork hgoing htask
    obtain ⟨-, -, other, hother, -, hpools⟩ := h.pooled work pooled hwork hgoing
    rw [htask, hget] at hother
    obtain rfl := Option.some.inj hother
    exact absurd hpools (hquiet work pooled.index)

/-- A determination may be asked for at any time. -/
theorem asked_for (h : Orderly s) : Orderly s.determineSoon :=
  h.beside (.soon s)

/-- A step having asked ahead is kept to what holds. -/
theorem askedAhead (h : Orderly s) {task : Nat} (hasked : s.askedAhead task = some s') :
    Orderly s' := by
  obtain ⟨drive, index, rest, hget, hphase, rfl⟩ := askedAhead_cases hasked
  have hshows := h.shows task drive hget
  rw [hphase] at hshows
  exact h.walks hget (not_pools hphase rfl (by simp)) rfl trivial hshows

/-- Work in the pool that comes to its end is kept to what holds. -/
theorem finishWork (h : Orderly s) {work : Nat} (hfinish : s.finishWork work = some s') :
    Orderly s' := by
  obtain ⟨pooled, -, -, rfl⟩ := finishWork_cases hfinish
  exact h.finishes

/-- A step that can go on is of the run under way. -/
theorem current_of_canGoOn (h : Orderly s) {task : Nat} {drive : Drive φ L} {carry : Carry φ L}
    (hget : s.drives[task]? = some drive) (hphase : drive.phase = .carrying carry)
    (hcan : s.canGoOn carry = true) : drive.generation = s.model.generation := by
  by_contra hended
  have hstuck := (h.stuck task drive hget hended).1
  rw [hphase] at hstuck
  have hcannot : s.canGoOn carry = false := hstuck
  rw [hcan] at hcannot
  cases hcannot

/-- The step being carried out, awaiting nothing, goes on with a change to the model. -/
theorem carries_on (h : Orderly s) {task : Nat} {drive : Drive φ L} {carry next : Carry φ L}
    (hget : s.drives[task]? = some drive) (hphase : drive.phase = .carrying carry)
    (hcurrent : drive.generation = s.model.generation) (hnothing : carry.awaiting = .nothing)
    {model : Model φ Date} {published : Snapshot φ Date} (hstate : model.state = s.model.state)
    (hgeneration : model.generation = s.model.generation)
    (hheld : model.HeldBy (some carry.index)) (hshown : model.Shown carry.index)
    (hawaits : ∀ channel, model.Awaits channel → s.model.Awaits channel)
    (hindex : next.index = carry.index)
    (hnone : ∀ channel, next.awaiting ≠ .answer (.wait channel)) :
    Orderly (Engine.setPhase { s with model := model, published := published } task
      (.carrying next)) := by
  have hshows := h.shows task drive hget hcurrent
  rw [hphase] at hshows
  rw [setPhase_eq (by exact hget)]
  apply h.goes_on hget hcurrent hshows.1 _ hstate hgeneration _ hawaits
    (not_waits_of_awaiting hnone)
  · rw [hphase]
    apply not_pools_of_awaiting
    simp [hnothing]
  · refine ⟨hstate.trans hshows.1, ?_, ?_⟩
    · rwa [hindex]
    · rwa [hindex]

/-- The step being carried out awaits nothing more, with no work going on in the pool. -/
theorem rests (h : Orderly s) {task : Nat} {drive : Drive φ L} {carry next : Carry φ L}
    (hget : s.drives[task]? = some drive) (hphase : drive.phase = .carrying carry)
    (hindex : next.index = carry.index) (hcurrent : drive.generation = s.model.generation)
    (hstopped : ∀ work pooled, s.pool[work]? = some pooled → carry.awaiting = .pool work →
      pooled.going = false) (hnothing : next.awaiting = .nothing) :
    Orderly (s.setPhase task (.carrying next)) := by
  have hshows := h.shows task drive hget hcurrent
  rw [hphase] at hshows
  refine h.moves hget ?_ ?_ ?_ ?_
  · intro _
    rw [Shows, hindex]
    exact hshows
  · exact fun hended => absurd hcurrent hended
  · exact fun channel hwaits => absurd hwaits (not_waits_of_awaiting (by simp [hnothing]) channel)
  · intro work pooled hpool hgoing htask
    obtain ⟨-, hpools⟩ := h.task_of_going hget hcurrent hpool hgoing
    rw [hphase] at hpools
    rcases hpools with hover | ⟨waiting, hwaiting, -, hawaiting⟩
    · cases hover
    · obtain rfl := Phase.carrying.inj hwaiting
      rw [hstopped work pooled hpool hawaiting] at hgoing
      cases hgoing

/-- A step given what it waits on is kept to what holds. -/
theorem resume (h : Orderly s) {task : Nat} (hresume : s.resume device task = some s') :
    Orderly s' := by
  obtain ⟨drive, carry, given, body, hget, hphase, hgiven, -, rfl⟩ := resume_cases hresume
  have hpool : ∀ work, carry.awaiting ≠ .pool work := by
    intro work hawaiting
    rw [hawaiting] at hgiven
    cases hgiven
  refine h.rests hget hphase rfl ?_
    (fun work _ _ hawaiting => absurd hawaiting (hpool work)) rfl
  exact h.current_of_canGoOn hget hphase (canGoOn_of_given hgiven)

/-- A change to the steps of a device at rest is kept to what holds. -/
theorem judges (h : Orderly s) (hrest : s.model.atRest = true) {model : Model φ Date}
    {published : Snapshot φ Date} {found : List Done} (hstate : model.state = s.model.state)
    (hgeneration : model.generation = s.model.generation)
    (hprompts : model.prompts = s.model.prompts) :
    Orderly { s with model := model, published := published, told := some (found, true) } := by
  have hidle := Model.ne_running_of_atRest hrest
  refine {
    one := h.one
    ahead := fun generation hlt => h.ahead generation (by rwa [← hgeneration])
    begun := fun hmem => absurd (h.begun (by rwa [hgeneration] at hmem)).1 hidle
    shows := fun task drive hget hsame => ?_
    stuck := fun task drive hget hended => ?_
    awaited := h.awaited
    free := fun _ => (h.free hidle).of_prompts hprompts
    failed := fun hfailed => ?_
    pooled := fun work pooled hwork hgoing => ?_
    single := h.single
    reading := fun found quiet hmem => ⟨?_, (h.reading found quiet hmem).2⟩
    told := fun found' quiet hsome => (Prod.mk.inj (Option.some.inj hsome)).2.symm }
  · rw [hgeneration] at hsame
    exact (h.shows task drive hget hsame).of_stopped hidle (by rwa [hstate])
  · rw [hgeneration] at hended
    refine (h.stuck task drive hget hended).keep (fun _ _ hlookup => hlookup) ?_
    intro channel _ hclosed hopen
    rw [Model.Awaits, hprompts] at hopen
    exact hclosed hopen
  · rw [hstate] at hfailed
    simp [Model.atRest, hfailed] at hrest
  · rw [h.none_going hidle hwork] at hgoing
    cases hgoing
  · rwa [Model.atRest, hstate]

variable [BEq φ] [BEq Date]

/-- An act asked for is kept to what holds. -/
theorem ask (h : Orderly s) {asked : Act φ} (htidy : Tidy s (.ask asked)) :
    Orderly (s.ask device asked) := by
  unfold Engine.ask
  split
  · exact h
  · rename_i decided hdecide
    obtain ⟨kind, hkind, haccepted, hcases⟩ := decide_cases hdecide
    obtain ⟨hstop, hstart⟩ := htidy kind hkind haccepted
    obtain ⟨published, hpublish⟩ := publish_eq { s with
      model := decided.model, delivered := s.delivered ++ decided.sent.toList }
    rw [hpublish]
    rcases hcases with ⟨rfl, -, places, rfl⟩ | ⟨rfl, rfl⟩ |
      ⟨rfl, waiter, value, answered, hanswer, rfl⟩ | ⟨hends, rfl⟩
    · have hrest : s.model.run = .idle ∨ s.model.run = .finished := by
        simpa [Kind.acceptedIn] using haccepted
      have hstate : s.model.state ≠ .running := by
        intro hrunning
        simp only [Model.run, hrunning, true_and] at hrest
        split at hrest <;> rcases hrest with hrun | hrun <;> cases hrun
      have hnone : ∀ found quiet, Determination.reading found quiet ∉ s.determinations := by
        intro found quiet hmem
        have hany := hstart rfl
        rw [List.any_eq_false] at hany
        exact hany _ hmem rfl
      obtain ⟨hrunning, hgeneration, hprompts⟩ := s.model.beginRun_begun places
      simp only [Option.toList_none, List.append_nil]
      exact h.begins hstate hnone hrunning hgeneration (by rw [hprompts]; exact List.nil_sublist _)
    · have hfailed : s.model.state = .failed := by
        have hrun : s.model.run = .failed := by simpa [Kind.acceptedIn] using haccepted
        rcases s.model.run_cases with hsame | ⟨hwaiting, -⟩
        · exact hsame.symm.trans hrun
        · rw [hrun] at hwaiting
          cases hwaiting
      have hstate : s.model.state ≠ .running := by
        rw [hfailed]
        decide
      have hnone : ∀ found quiet, Determination.reading found quiet ∉ s.determinations := by
        intro found quiet hmem
        have hrest := (h.reading found quiet hmem).1
        simp [Model.atRest, hfailed] at hrest
      obtain ⟨hrunning, hgeneration, hprompts⟩ := Model.retry_begun (h.failed hfailed)
      simp only [Option.toList_none, List.append_nil]
      exact h.begins hstate hnone hrunning hgeneration (by rw [hprompts])
    · obtain ⟨hwaiter, hless, hstate, hgeneration, hsteps⟩ := Model.answer_ok hanswer
      apply h.closes hless hstate hgeneration hsteps
      intro channel sent hmem
      cases waiter with
      | none => cases hmem
      | some waiting =>
          have hsame : channel = waiting ∧ sent = value := by simpa using hmem
          exact hwaiter channel (by rw [hsame.1])
    · have hrun : ¬ Ready s.model := by
        rintro ⟨hrunning, hfree⟩
        rw [hfree.run_eq, hrunning] at haccepted
        rcases hends with rfl | rfl <;> cases haccepted
      have hquiet : s.works = [] := by
        rcases hends with rfl | rfl
        · exact hstop rfl
        · have hfinished : s.model.run = .finished := by
            simpa [Kind.acceptedIn] using haccepted
          apply h.works_of_atRest
          rcases s.model.run_cases with hsame | ⟨hwaiting, -⟩
          · simp [Model.atRest, ← hsame, hfinished]
          · rw [hfinished] at hwaiting
            cases hwaiting
      simp only [Option.toList_none, List.append_nil]
      refine h.ends hquiet ?_ rfl rfl rfl
      intro task drive hget hsame index saver hphase
      have hshows := h.shows task drive hget hsame
      rw [hphase] at hshows
      exact hrun hshows.1

/-- Prompts closed by their id are kept to what holds. -/
theorem closed (h : Orderly s) (generation : Nat) (id : String) :
    Orderly (s.tryMutate generation fun model => model.close id) := by
  rcases s.tryMutate_cases generation fun model => model.close id with
    ⟨-, published, hclosed⟩ | ⟨-, hsame⟩
  · have hcloses : Orderly { s with
        model := s.model.close id, published := published, delivered := s.delivered ++ [] } :=
      h.closes (s.model.close_sublist id) rfl rfl rfl (fun _ _ hmem => by cases hmem)
    rw [hclosed]
    simpa using hcloses
  · rwa [hsame]

/-- Dropping the notices a step holds is kept to what holds. -/
theorem drops (h : Orderly s) (generation : Nat) (notices : List String) :
    Orderly (s.dropNotices generation notices) :=
  dropNotices_kept (fun _ generation id h => h.closed generation id) h generation notices

/-- A task aborted does nothing more, and what it held is dropped. -/
theorem aborts (h : Orderly s) (task : Nat) : Orderly (s.abort task) :=
  abort_kept (fun _ h => h.aside _ _ _ _ _) (fun _ task h => h.overs task)
    (fun _ generation id h => h.closed generation id) h task

/-- What is left of an act is kept to what holds. -/
theorem call (h : Orderly s) {index : Nat} {cleared : Bool}
    (hcall : s.call device index cleared = some s') : Orderly s' :=
  call_kept (fun _ _ hbeside h => h.beside hbeside) (fun _ task h => h.aborts task)
    (fun _ _ _ _ hget hafter h => h.spawns hget hafter)
    (fun _ _ _ _ hget hafter h => h.calls_set hget hafter) h hcall

/-- The task that carries a run out is kept to what holds. -/
theorem drive (h : Orderly s) {task : Nat} {cleared : Bool}
    (hdrive : s.drive device task cleared = some s') : Orderly s' := by
  obtain ⟨t, drive, model, phase, hbeside, hget, hgoes, rfl⟩ := drive_goes hdrive
  have h := h.beside hbeside
  have hshows := h.shows task drive hget
  have hstuck := h.stuck task drive hget
  have hover : Orderly { t with drives := t.drives.set task { drive with phase := .ended } } := by
    have hovers := h.overs task
    rwa [setPhase_eq hget] at hovers
  have hwalks : ∀ {before phase : Phase φ L}, drive.phase = before → carryOf before = none →
      before ≠ .ended → carryOf phase = none → t.Idles phase →
      (drive.generation = t.model.generation → Shows t.model phase) →
      Orderly { t with drives := t.drives.set task { drive with phase := phase } } := by
    intro before phase hphase hbefore hended hnone hidles hshown
    have hwalk := h.walks hget (not_pools hphase hbefore hended) hnone hidles hshown
    rwa [setPhase_eq hget] at hwalk
  generalize hphase : drive.phase = before at hgoes hshows hstuck
  cases hgoes with
  | looks => exact hwalks hphase rfl (by simp) rfl trivial hshows
  | overs hended => exact hover
  | last hcurrent hnext =>
      have hready := hshows hcurrent.symm
      exact h.goes_on hget hcurrent.symm hready.1 (not_pools hphase rfl (by simp))
        Model.beginNext_state Model.beginNext_generation hready.beginNext
        (fun _ hopen => Model.beginNext_awaits hopen) (not_waits rfl)
  | begins hcurrent hnext =>
      have hready := hshows hcurrent.symm
      exact h.goes_on hget hcurrent.symm hready.1 (not_pools hphase rfl (by simp))
        Model.beginNext_state Model.beginNext_generation
        ⟨hready.beginNext, Model.beginNext_shown hnext⟩
        (fun _ hopen => Model.beginNext_awaits hopen) (not_waits rfl)
  | beginsUnkept hcurrent hnext hindex hnothing =>
      have hready := hshows hcurrent.symm
      obtain ⟨hbegun, hfree⟩ := hready.beginNext
      subst hindex
      exact h.goes_on hget hcurrent.symm hready.1 (not_pools hphase rfl (by simp))
        Model.beginNext_state Model.beginNext_generation
        ⟨hbegun, hfree.of_none, Model.beginNext_shown hnext⟩
        (fun _ hopen => Model.beginNext_awaits hopen)
        (not_waits_of_awaiting (by simp [hnothing]))
  | carries hindex hnothing =>
      have hcurrent : drive.generation = t.model.generation := by
        by_contra hended
        exact (hstuck hended).1
      obtain ⟨⟨hrunning, hfree⟩, hshown⟩ := hshows hcurrent
      subst hindex
      exact h.goes_on hget hcurrent hrunning (not_pools hphase rfl (by simp)) rfl rfl
        ⟨hrunning, hfree.of_none, hshown⟩ (fun _ hopen => hopen)
        (not_waits_of_awaiting (by simp [hnothing]))
  | unkept => exact hwalks hphase rfl (by simp) rfl trivial hshows
  | releases hcurrent =>
      obtain ⟨hrunning, hheld, hshown⟩ := hshows hcurrent.symm
      exact h.goes_on hget hcurrent.symm hrunning (not_pools hphase rfl (by simp)) rfl rfl
        ⟨⟨hrunning, Model.release_free hheld⟩, hshown⟩ (fun _ => Model.release_awaits)
        (not_waits rfl)
  | returns hended =>
      exact hwalks hphase rfl (by simp) rfl trivial fun hcurrent => absurd hcurrent.symm hended
  | passes hcurrent hto =>
      obtain ⟨hready, -⟩ := hshows hcurrent.symm
      rcases hto with rfl | ⟨saver, rfl⟩ <;>
        exact h.goes_on hget hcurrent.symm hready.1 (not_pools hphase rfl (by simp)) rfl rfl hready
          (fun _ hopen => hopen) (not_waits rfl)
  | @fails index reason _ hcurrent hto =>
      obtain ⟨⟨hrunning, hfree⟩, hshown⟩ := hshows hcurrent.symm
      have hfails : ∀ {phase}, carryOf phase = none → Shows (t.model.fail index reason) phase →
          Orderly { t with
            model := t.model.fail index reason
            drives := t.drives.set task { drive with phase := phase } } := by
        intro phase hnone hshows
        refine h.advance hget hcurrent.symm hrunning (not_pools hphase rfl (by simp)) rfl
          (Nat.le_refl _) hshows (fun _ => hfree) (fun _ => Model.fail_failed hshown.lt_length)
          (fun _ hopen => Or.inl hopen) ?_
        exact fun channel hwaits => absurd hwaits (not_waits hnone channel)
      rcases hto with rfl | ⟨saver, rfl⟩
      · exact hfails rfl trivial
      · exact hfails rfl (fun hstate => by cases hstate)
  | passed => exact hwalks hphase rfl (by simp) rfl trivial hshows
  | failed => exact hover
  | finishes hcurrent hto =>
      obtain ⟨hrunning, -⟩ := hshows hcurrent.symm
      have hfinishes : ∀ {phase}, carryOf phase = none → Shows t.model.finish phase →
          Orderly { t with
            model := t.model.finish
            drives := t.drives.set task { drive with phase := phase } } := by
        intro phase hnone hshows
        refine h.advance hget hcurrent.symm hrunning (not_pools hphase rfl (by simp)) rfl
          (Nat.le_refl _) hshows ?_ ?_ ?_ ?_
        · exact fun _ prompt hmem => by cases hmem
        · exact fun hstate => by cases hstate
        · exact fun channel ⟨prompt, hmem, _⟩ => by cases hmem
        · exact fun channel hwaits => absurd hwaits (not_waits hnone channel)
      rcases hto with rfl | rfl <;> exact hfinishes rfl (fun hstate => by cases hstate)
  | forgets hto =>
      rcases hto with rfl | rfl <;> exact hwalks hphase rfl (by simp) rfl trivial hshows
  | clears => exact hwalks hphase rfl (by simp) rfl trivial hshows
  | determines => exact hover

/-- The steps asking ahead are kept to what holds. -/
theorem askAhead (h : Orderly s) {task : Nat} {question : Question}
    (hask : s.askAhead task question = some s') : Orderly s' := by
  obtain ⟨drive, index, rest, hget, hphase, ⟨hcurrent, published, rfl⟩ | rfl⟩ :=
    askAhead_cases hask
  · have hshows := h.shows task drive hget hcurrent
    rw [hphase] at hshows
    obtain ⟨hstate, hgeneration, -, -⟩ := s.model.askLater_rest index question
    exact h.goes_on hget hcurrent hshows.1 (not_pools hphase rfl (by simp)) hstate hgeneration
      ⟨hstate.trans hshows.1, Model.askLater_held hshows.2⟩ (fun _ => Model.askLater_awaits)
      (not_waits rfl)
  · exact h

/-- What a step asks of the run is kept to what holds. -/
theorem asks (h : Orderly s) {task : Nat} {drive : Drive φ L} {carry : Carry φ L} {body : L}
    (hget : s.drives[task]? = some drive) (hphase : drive.phase = .carrying carry)
    (hnothing : carry.awaiting = .nothing) (asked : Ask φ) :
    let asking := s.asks drive.generation { carry with body := body } asked
    Orderly (asking.1.setPhase task (.carrying asking.2)) := by
  have hcurrent : drive.generation = s.model.generation :=
    h.current_of_canGoOn hget hphase (by simp [canGoOn, hnothing])
  have hshows := h.shows task drive hget hcurrent
  rw [hphase] at hshows
  obtain ⟨hrunning, hheld, hshown⟩ := hshows
  obtain ⟨model, published, channels, next, hasks, hamends, -, hindex, hwaits⟩ :=
    asks_amends (s := s) hcurrent.symm { carry with body := body } hnothing asked
  have hstill : model.state = .running := hamends.state.trans hrunning
  simp only [hasks]
  rw [setPhase_eq (by exact hget)]
  refine h.advance hget hcurrent hrunning ?_ hamends.generation hamends.le ?_ ?_ ?_
    hamends.awaits ?_
  · rw [hphase]
    exact not_pools_of_awaiting (by simp [hnothing])
  · rw [Shows, hindex]
    exact ⟨hstill, hamends.held hheld, hamends.shown hshown⟩
  · exact fun hnot => absurd hstill hnot
  · intro hfailed
    rw [hstill] at hfailed
    cases hfailed
  · rintro channel ⟨waiting, hwaiting, hanswer⟩
    obtain rfl := Phase.carrying.inj hwaiting
    exact hwaits channel hanswer

/-- What a step being carried out does next is kept to what holds. -/
theorem work (h : Orderly s) {task : Nat} {done : Work φ} (htidy : Tidy s (.work task done))
    (hwork : s.work device task done = some s') : Orderly s' := by
  obtain ⟨drive, carry, body, hget, hphase, -, hworks⟩ := work_goes hwork
  cases hworks with
  | asks asked hnothing => exact h.asks hget hphase hnothing asked
  | inPlace hnothing =>
      have hcurrent := h.current_of_canGoOn hget hphase (by simp [canGoOn, hnothing])
      obtain ⟨-, hheld, hshown⟩ : Carries s.model carry.index := by
        have hshows := h.shows task drive hget hcurrent
        rwa [hphase] at hshows
      exact h.carries_on hget hphase hcurrent hnothing rfl rfl hheld hshown
        (fun _ hopen => hopen) rfl (by simp [hnothing])
  | offload hnothing =>
      have hcurrent := h.current_of_canGoOn hget hphase (by simp [canGoOn, hnothing])
      exact h.offloads hget hcurrent hphase hnothing
  | joined hawaiting hpool hstopped =>
      refine h.rests hget hphase rfl ?_ ?_ rfl
      · exact h.current_of_canGoOn hget hphase (by simp [canGoOn, hawaiting])
      · intro other pooled' hother hsame
        rw [hawaiting] at hsame
        obtain rfl := Awaiting.pool.inj hsame
        rw [hpool] at hother
        obtain rfl := Option.some.inj hother
        exact hstopped
  | limit =>
      obtain ⟨hcurrent, hstopped⟩ := htidy drive hget carry hphase
      exact h.rests hget hphase rfl hcurrent (fun work pooled hpool hsame =>
        hstopped work pooled hsame hpool) rfl
  | ends outcome hnothing =>
      have hcurrent := h.current_of_canGoOn hget hphase (by simp [canGoOn, hnothing])
      have hshows := h.shows task drive hget hcurrent
      rw [hphase] at hshows
      have hreturned : Orderly (s.setPhase task (.returned carry.index outcome)) := by
        refine h.walks hget ?_ rfl trivial (fun _ => hshows)
        rw [hphase]
        exact not_pools_of_awaiting (by simp [hnothing])
      exact hreturned.drops drive.generation carry.notices

/-- What a determination comes to is kept to what holds. -/
theorem settle (h : Orderly s) {found : List Done} {quiet : Bool} (hquiet : quiet = true) :
    Orderly (s.settle device found quiet) := by
  unfold Engine.settle
  split
  · rename_i hrest
    obtain ⟨published, hpublish⟩ := publish_eq { s with
      model := determined s.model (undone device.steps found), told := some (found, quiet) }
    subst hquiet
    refine Eq.subst hpublish.symm ?_
    exact h.judges hrest rfl rfl rfl
  · exact h

/-- A determination is kept to what holds. -/
theorem determine (h : Orderly s) {index : Nat} {read : Option Done}
    (hdetermine : s.determine device index read = some s') : Orderly s' := by
  obtain ⟨held, left, t, hget, hgoes, rfl⟩ := determine_goes hdetermine
  -- A determination under way is one of those before, or the one that went on.
  cases hgoes with
  | looks hidle =>
      apply h.determines
      intro found quiet hmem
      rcases List.mem_or_eq_of_mem_set hmem with hold | hnew
      · exact h.reading found quiet hold
      · split at hnew
        · rename_i hrest
          exact ⟨hrest, (Determination.reading.inj hnew).2⟩
        · cases hnew
  | reads done hless =>
      rename_i found quiet
      apply h.determines
      intro found' quiet' hmem
      rcases List.mem_or_eq_of_mem_set hmem with hold | hnew
      · exact h.reading found' quiet' hold
      · obtain ⟨-, rfl⟩ := Determination.reading.inj hnew
        exact h.reading found quiet' (List.mem_of_getElem? hget)
  | settles hall =>
      rename_i found quiet
      have hquiet := (h.reading found quiet (List.mem_of_getElem? hget)).2
      have hsettled : Orderly (s.settle device found quiet) := h.settle hquiet
      apply hsettled.determines
      intro found' quiet' hmem
      rcases List.mem_or_eq_of_mem_set hmem with hold | hnew
      · exact hsettled.reading found' quiet' hold
      · cases hnew

/-- What holds between two stretches is kept by a tidy one. -/
theorem take (h : Orderly s) {move : Move φ} (htidy : Tidy s move)
    (htake : Engine.take device s move = some s') : Orderly s' := by
  obtain ⟨gone, hgo, rfl⟩ := Option.map_eq_some_iff.mp htake
  apply observes
  cases move with
  | ask asked =>
      obtain rfl := Option.some.inj hgo
      exact h.ask htidy
  | call index cleared => exact h.call hgo
  | drive task cleared => exact h.drive hgo
  | askAhead task question => exact h.askAhead hgo
  | askedAhead task => exact h.askedAhead hgo
  | work task done => exact h.work htidy hgo
  | resume task => exact h.resume hgo
  | finishWork work => exact h.finishWork hgo
  | save saver failed => exact h.beside (save_beside hgo)
  | attach =>
      obtain rfl := Option.some.inj hgo
      exact h.asked_for
  | determine index read => exact h.determine hgo

end Orderly

end Bliti.Provision.Engine
