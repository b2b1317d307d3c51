import Bliti.Library.Roster
import Bliti.Provision.Engine.Stretch

/-!
# Provisioning - what holds of the engine between two stretches

Each run has at most one task, and what the model shows of the run under way is what its
task is doing.  The tasks of runs that have ended do nothing more, and work in the pool
is work of the step the model shows running.  Each of these is kept by every change the
engine makes, of a kind given here once.
-/

namespace Bliti.Provision.Engine

open Channel.Messages (Answer)

variable {φ Date L : Type} {s s' : Engine φ Date L}

/-! ## Tasks and what the model shows of them -/

/-- How many tasks carry a run out or are about to. -/
def tasks (s : Engine φ Date L) (generation : Nat) : Nat :=
  s.drives.countP (fun drive => drive.generation = generation) +
    s.calls.countP (fun call => call = .spawning generation)

/-- A run is under way and nothing holds it up. -/
def Ready (model : Model φ Date) : Prop :=
  model.state = .running ∧ model.HeldBy none

/-- A step is being carried out, and only it may hold the run up. -/
def Carries (model : Model φ Date) (index : Nat) : Prop :=
  model.state = .running ∧ model.HeldBy (some index) ∧ model.Shown index

/-- What the model shows while the task that carries its run out is at a place. -/
def Shows (model : Model φ Date) : Phase φ L → Prop
  | .top | .asking _ | .recordingPass _ | .finishing => Ready model
  | .recordingStart index _ | .settling index _ => Ready model ∧ model.Shown index
  | .carrying carry => Carries model carry.index
  | .returned index _ => Carries model index
  | .recordingFail _ | .forgetting | .clearing | .determining => model.state ≠ .running
  | .ended => True

/-- A task waits for an answer on a channel. -/
def Waits (channel : Nat) (phase : Phase φ L) : Prop :=
  ∃ carry, phase = .carrying carry ∧ carry.awaiting = .answer (.wait channel)

/-- A task does nothing of a step, nor begins one. -/
def Idles (s : Engine φ Date L) : Phase φ L → Prop
  | .recordingStart _ _ => False
  | .carrying carry => s.canGoOn carry = false
  | _ => True

/-- A task does nothing of a step, nor can what it waits on come. -/
def Stuck (s : Engine φ Date L) (phase : Phase φ L) : Prop :=
  s.Idles phase ∧ ∀ channel, Waits channel phase → ¬ s.model.Awaits channel

/-- The task of work in the pool waits on it, or was aborted. -/
def Pools (work index : Nat) (phase : Phase φ L) : Prop :=
  phase = .ended ∨
    ∃ carry, phase = .carrying carry ∧ carry.index = index ∧ carry.awaiting = .pool work

/-- What holds between two stretches. -/
structure Orderly (s : Engine φ Date L) : Prop where
  one : ∀ generation, s.tasks generation ≤ 1
  ahead : ∀ generation, s.model.generation < generation → s.tasks generation = 0
  begun : .spawning s.model.generation ∈ s.calls → Ready s.model
  shows : ∀ (task : Nat) (drive : Drive φ L), s.drives[task]? = some drive →
    drive.generation = s.model.generation → Shows s.model drive.phase
  stuck : ∀ (task : Nat) (drive : Drive φ L), s.drives[task]? = some drive →
    drive.generation ≠ s.model.generation → s.Stuck drive.phase
  awaited : ∀ (task : Nat) (drive : Drive φ L), s.drives[task]? = some drive →
    ∀ channel, Waits channel drive.phase → channel < s.channels
  free : s.model.state ≠ .running → s.model.HeldBy none
  failed : s.model.state = .failed → ∃ entry ∈ s.model.steps, entry.state = .failed
  pooled : ∀ (work : Nat) (pooled : Pooled), s.pool[work]? = some pooled →
    pooled.going = true → s.model.state = .running ∧ s.model.Shown pooled.index ∧
      ∃ drive, s.drives[pooled.task]? = some drive ∧
        drive.generation = s.model.generation ∧ Pools work pooled.index drive.phase
  single : ∀ (work : Nat) (pooled : Pooled) (work' : Nat) (pooled' : Pooled),
    s.pool[work]? = some pooled → pooled.going = true → s.pool[work']? = some pooled' →
    pooled'.going = true → work = work'
  reading : ∀ found quiet, .reading found quiet ∈ s.determinations →
    s.model.atRest = true ∧ quiet = true
  told : ∀ found quiet, s.told = some (found, quiet) → quiet = true

/-- A run stays ready as its next step begins. -/
theorem Ready.beginNext {model : Model φ Date} (hready : Ready model) :
    Ready model.beginNext.2 :=
  ⟨Model.beginNext_state.trans hready.1, hready.2.of_prompts Model.beginNext_prompts⟩

/-- What the model shows of a task it shows after prompts close. -/
theorem Shows.of_sublist {model after : Model φ Date} {phase : Phase φ L}
    (hshows : Shows model phase) (hless : after.prompts.Sublist model.prompts)
    (hstate : after.state = model.state) (hsteps : after.steps = model.steps) :
    Shows after phase := by
  have hheld : ∀ holder, model.HeldBy holder → after.HeldBy holder :=
    fun holder hheld => hheld.of_sublist hless
  have hshown : ∀ index, model.Shown index → after.Shown index := by
    intro index hshown
    rwa [Model.Shown, hsteps]
  have hready : Ready model → Ready after :=
    fun hready => ⟨hstate.trans hready.1, hheld none hready.2⟩
  have hcarries : ∀ index, Carries model index → Carries after index :=
    fun index hcarries =>
      ⟨hstate.trans hcarries.1, hheld (some index) hcarries.2.1, hshown index hcarries.2.2⟩
  cases phase with
  | top | asking due | recordingPass saver | finishing => exact hready hshows
  | recordingStart index saver | settling index outcome =>
      exact ⟨hready hshows.1, hshown index hshows.2⟩
  | carrying carry => exact hcarries carry.index hshows
  | returned index outcome => exact hcarries index hshows
  | recordingFail saver | forgetting | clearing | determining =>
      exact fun hrunning => hshows (hstate.symm.trans hrunning)
  | ended => trivial

/-- What the model shows of a task while no run is under way it shows whatever its steps are. -/
theorem Shows.of_stopped {model after : Model φ Date} {phase : Phase φ L}
    (hshows : Shows model phase) (hstate : model.state ≠ .running)
    (hafter : after.state ≠ .running) : Shows after phase := by
  cases phase with
  | top | asking due | recordingPass saver | finishing => exact absurd hshows.1 hstate
  | recordingStart index saver | settling index outcome => exact absurd hshows.1.1 hstate
  | carrying carry => exact absurd hshows.1 hstate
  | returned index outcome => exact absurd hshows.1 hstate
  | recordingFail saver | forgetting | clearing | determining => exact hafter
  | ended => trivial

/-! ## One task a run -/

section Tasks

variable {task : Nat} {drive : Drive φ L}

/-- With one task a run, the run under way has the one. -/
theorem only_of_one (hone : ∀ generation, s.tasks generation ≤ 1)
    (hget : s.drives[task]? = some drive) (hcurrent : drive.generation = s.model.generation)
    {other : Nat} {drive' : Drive φ L} (hother : s.drives[other]? = some drive')
    (hsame : drive'.generation = s.model.generation) : other = task := by
  have hcount := hone s.model.generation
  unfold tasks at hcount
  apply Roster.eq_of_countP_le_one (Nat.le_trans (Nat.le_add_right _ _) hcount) hother _ hget
  · simpa using hcurrent
  · simpa using hsame

/-- With one task a run, one that has its task is not about to be given another. -/
theorem not_spawning_of_one (hone : ∀ generation, s.tasks generation ≤ 1)
    (hget : s.drives[task]? = some drive) (hcurrent : drive.generation = s.model.generation) :
    Call.spawning s.model.generation ∉ s.calls := by
  intro hmem
  have hcount := hone s.model.generation
  have hdrive := Roster.countP_pos_of_getElem? hget
    (p := fun drive => drive.generation = s.model.generation) (by simpa using hcurrent)
  have hcall : 0 < s.calls.countP fun call => call = .spawning s.model.generation :=
    List.countP_pos_iff.mpr ⟨_, hmem, by simp⟩
  unfold tasks at hcount
  omega

/-- With no task ahead of the model, none goes ahead of it. -/
theorem le_of_ahead (hahead : ∀ generation, s.model.generation < generation →
    s.tasks generation = 0) (hget : s.drives[task]? = some drive) :
    drive.generation ≤ s.model.generation := by
  rcases Nat.lt_or_ge s.model.generation drive.generation with hlt | hle
  · have hzero := hahead drive.generation hlt
    have hpos := Roster.countP_pos_of_getElem? hget
      (p := fun other => other.generation = drive.generation) (by simp)
    unfold tasks at hzero
    omega
  · exact hle

/-- With no task ahead of the model, none is about to be given to a run ahead of it. -/
theorem not_spawning_of_ahead (hahead : ∀ generation, s.model.generation < generation →
    s.tasks generation = 0) {generation : Nat} (hlt : s.model.generation < generation) :
    Call.spawning generation ∉ s.calls := by
  intro hmem
  have hzero := hahead generation hlt
  have hpos : 0 < s.calls.countP fun call => call = .spawning generation :=
    List.countP_pos_iff.mpr ⟨_, hmem, by simp⟩
  unfold tasks at hzero
  omega

end Tasks

/-! ## Tasks that are stuck -/

/-- A task stays stuck where no prompt it waits on comes to be open or answered. -/
theorem Stuck.keep {s' : Engine φ Date L} {phase : Phase φ L} (hstuck : s.Stuck phase)
    (hlookup : ∀ channel, ¬ s.model.Awaits channel → s.delivered.lookup channel = none →
      s'.delivered.lookup channel = none)
    (hawaits : ∀ channel, Waits channel phase → ¬ s.model.Awaits channel →
      ¬ s'.model.Awaits channel) : s'.Stuck phase := by
  obtain ⟨hidles, hclosed⟩ := hstuck
  refine ⟨?_, fun channel hwaits => hawaits channel hwaits (hclosed channel hwaits)⟩
  cases phase with
  | carrying carry =>
      simp only [Idles, canGoOn] at hidles ⊢
      cases hwaiting : carry.awaiting with
      | answer need =>
          cases need with
          | held answer => simp [hwaiting] at hidles
          | wait channel =>
              simp only [hwaiting, Option.isSome_eq_false_iff, Option.isNone_iff_eq_none]
                at hidles ⊢
              exact hlookup channel (hclosed channel ⟨carry, rfl, hwaiting⟩) hidles
      | never => rfl
      | nothing => simp [hwaiting] at hidles
      | text text => simp [hwaiting] at hidles
      | pool work => simp [hwaiting] at hidles
  | recordingStart index saver => exact hidles
  | _ => trivial

/-! ## Reading it -/

namespace Orderly

/-- What is kept beside the run makes no difference. -/
theorem beside (h : Orderly s) (hbeside : Beside s s') : Orderly s' := by
  obtain ⟨hmodel, hdrives, hpool, hcalls, hdelivered, hchannels, htold, hreading⟩ := hbeside
  cases s'
  simp only at hmodel hdrives hpool hcalls hdelivered hchannels htold hreading
  subst hmodel hdrives hpool hcalls hdelivered hchannels htold
  exact ⟨h.one, h.ahead, h.begun, h.shows, h.stuck, h.awaited, h.free, h.failed, h.pooled, h.single,
    fun found quiet hmem => h.reading found quiet (hreading found quiet hmem), h.told⟩

/-- What is published, what is on the medium and who holds it, and the task an act would abort
make no difference. -/
theorem aside (h : Orderly s) (published : Snapshot φ Date) (medium : Option Stored)
    (disk : Option Holder) (handle : Option Nat) (savers : List Saver) :
    Orderly { s with
      published := published, medium := medium, disk := disk, handle := handle,
      savers := savers } :=
  h.beside (.aside s published medium disk handle savers)

section Current

variable {task : Nat} {drive : Drive φ L}

/-- The run under way has one task. -/
theorem only (h : Orderly s) (hget : s.drives[task]? = some drive)
    (hcurrent : drive.generation = s.model.generation) {other : Nat} {drive' : Drive φ L}
    (hother : s.drives[other]? = some drive')
    (hsame : drive'.generation = s.model.generation) : other = task :=
  only_of_one h.one hget hcurrent hother hsame

/-- A run that has its task is not about to be given another. -/
theorem not_spawning (h : Orderly s) (hget : s.drives[task]? = some drive)
    (hcurrent : drive.generation = s.model.generation) :
    Call.spawning s.model.generation ∉ s.calls :=
  not_spawning_of_one h.one hget hcurrent

/-- No task of a run goes ahead of the model. -/
theorem le_generation (h : Orderly s) (hget : s.drives[task]? = some drive) :
    drive.generation ≤ s.model.generation :=
  le_of_ahead h.ahead hget

/-- Work goes on in the pool only for the task of the run under way. -/
theorem task_of_going (h : Orderly s) (hget : s.drives[task]? = some drive)
    (hcurrent : drive.generation = s.model.generation) {work : Nat} {pooled : Pooled}
    (hpool : s.pool[work]? = some pooled) (hgoing : pooled.going = true) :
    pooled.task = task ∧ Pools work pooled.index drive.phase := by
  obtain ⟨-, -, other, hother, hsame, hpools⟩ := h.pooled work pooled hpool hgoing
  have htask := h.only hget hcurrent hother hsame
  rw [htask, hget] at hother
  obtain rfl := Option.some.inj hother
  exact ⟨htask, hpools⟩

/-- No work goes on in the pool while no run is under way. -/
theorem none_going (h : Orderly s) (hstate : s.model.state ≠ .running) {work : Nat}
    {pooled : Pooled} (hpool : s.pool[work]? = some pooled) : pooled.going = false := by
  cases hgoing : pooled.going with
  | false => rfl
  | true => exact absurd (h.pooled work pooled hpool hgoing).1 hstate

/-- No determination is under way while a run is. -/
theorem not_reading (h : Orderly s) (hstate : s.model.state = .running) (found : List Done)
    (quiet : Bool) : Determination.reading found quiet ∉ s.determinations := by
  intro hmem
  exact Model.ne_running_of_atRest (h.reading found quiet hmem).1 hstate

end Current

/-! ## A task that moves on -/

section Moving

variable {task : Nat} {drive : Drive φ L} {phase : Phase φ L}

/-- A task that moves on is counted as before. -/
theorem tasks_set (hget : s.drives[task]? = some drive) (generation : Nat) :
    Engine.tasks { s with drives := s.drives.set task { drive with phase := phase } } generation =
      s.tasks generation := by
  have hcount := Roster.countP_set_add hget (fun drive => drive.generation = generation)
    { drive with phase := phase }
  simp only [tasks]
  simp only at hcount
  omega

/-- A task moves on and the model stays as it is. -/
theorem moves (h : Orderly s) (hget : s.drives[task]? = some drive)
    (hshows : drive.generation = s.model.generation → Shows s.model phase)
    (hstuck : drive.generation ≠ s.model.generation → s.Stuck phase)
    (hawaited : ∀ channel, Waits channel phase → channel < s.channels)
    (hpool : ∀ work pooled, s.pool[work]? = some pooled → pooled.going = true →
      pooled.task = task → Pools work pooled.index phase) :
    Orderly (s.setPhase task phase) := by
  rw [setPhase_eq hget]
  refine {
    one := fun generation => ?_
    ahead := fun generation hlt => ?_
    begun := h.begun
    shows := fun other drive' hother hsame => ?_
    stuck := fun other drive' hother hended => ?_
    awaited := fun other drive' hother => ?_
    free := h.free
    failed := h.failed
    pooled := fun work pooled hwork hgoing => ?_
    single := h.single
    reading := h.reading
    told := h.told }
  · rw [tasks_set hget]
    exact h.one generation
  · rw [tasks_set hget]
    exact h.ahead generation hlt
  · rcases Roster.getElem?_set_cases hother with ⟨-, rfl⟩ | ⟨-, hbefore⟩
    · exact hshows hsame
    · exact h.shows other drive' hbefore hsame
  · rcases Roster.getElem?_set_cases hother with ⟨-, rfl⟩ | ⟨-, hbefore⟩
    · exact hstuck hended
    · exact h.stuck other drive' hbefore hended
  · rcases Roster.getElem?_set_cases hother with ⟨-, rfl⟩ | ⟨-, hbefore⟩
    · exact hawaited
    · exact h.awaited other drive' hbefore
  · obtain ⟨hrunning, hshown, before, hbefore, hsame, hpools⟩ :=
      h.pooled work pooled hwork hgoing
    refine ⟨hrunning, hshown, ?_⟩
    by_cases htask : pooled.task = task
    · rw [htask, hget] at hbefore
      obtain rfl := Option.some.inj hbefore
      refine ⟨{ drive with phase := phase }, ?_, hsame, hpool work pooled hwork hgoing htask⟩
      rw [htask, List.getElem?_set_self (List.getElem?_eq_some_iff.mp hget).1]
    · refine ⟨before, ?_, hsame, hpools⟩
      rwa [List.getElem?_set_ne (Ne.symm htask)]

/-- The task of the run under way moves on and changes the model, with no work of its own in the
pool. -/
theorem advance (h : Orderly s) (hget : s.drives[task]? = some drive)
    (hcurrent : drive.generation = s.model.generation) (hrunning : s.model.state = .running)
    (hquiet : ∀ work index, ¬ Pools work index drive.phase) {model : Model φ Date}
    {published : Snapshot φ Date} {savers : List Saver} {channels : Nat}
    (hgeneration : model.generation = s.model.generation) (hchannels : s.channels ≤ channels)
    (hshows : Shows model phase) (hfree : model.state ≠ .running → model.HeldBy none)
    (hfailed : model.state = .failed → ∃ entry ∈ model.steps, entry.state = .failed)
    (hawaits : ∀ channel, model.Awaits channel → s.model.Awaits channel ∨ s.channels ≤ channel)
    (hawaited : ∀ channel, Waits channel phase → channel < channels) :
    Orderly { s with
      model := model, published := published, savers := savers, channels := channels,
      drives := s.drives.set task { drive with phase := phase } } := by
  have hnone : ∀ (work : Nat) (pooled : Pooled), s.pool[work]? = some pooled →
      pooled.going ≠ true := by
    intro work pooled hwork hgoing
    exact hquiet work pooled.index (h.task_of_going hget hcurrent hwork hgoing).2
  refine {
    one := fun generation => ?_
    ahead := fun generation hlt => ?_
    begun := fun hmem => ?_
    shows := fun other drive' hother hsame => ?_
    stuck := fun other drive' hother hended => ?_
    awaited := fun other drive' hother => ?_
    free := hfree
    failed := hfailed
    pooled := fun work pooled hwork hgoing => absurd hgoing (hnone work pooled hwork)
    single := h.single
    reading := fun found quiet hmem => absurd hmem (h.not_reading hrunning found quiet)
    told := h.told }
  · exact (tasks_set hget generation).trans_le (h.one generation)
  · rw [hgeneration] at hlt
    exact (tasks_set hget generation).trans (h.ahead generation hlt)
  · rw [hgeneration] at hmem
    exact absurd hmem (h.not_spawning hget hcurrent)
  · rcases Roster.getElem?_set_cases hother with ⟨-, rfl⟩ | ⟨hne, hbefore⟩
    · exact hshows
    · rw [hgeneration] at hsame
      exact absurd (h.only hget hcurrent hbefore hsame) hne
  · rw [hgeneration] at hended
    rcases Roster.getElem?_set_cases hother with ⟨-, rfl⟩ | ⟨-, hbefore⟩
    · exact absurd hcurrent hended
    · refine (h.stuck other drive' hbefore hended).keep (fun _ _ hlookup => hlookup) ?_
      intro channel hwaits hclosed hopen
      have hlt := h.awaited other drive' hbefore channel hwaits
      rcases hawaits channel hopen with hold | hnew
      · exact hclosed hold
      · omega
  · rcases Roster.getElem?_set_cases hother with ⟨-, rfl⟩ | ⟨-, hbefore⟩
    · exact hawaited
    · intro channel hwaits
      exact Nat.lt_of_lt_of_le (h.awaited other drive' hbefore channel hwaits) hchannels

end Moving

/-! ## Prompts that close -/

section Closing

/-- Prompts close, and what waited on them may be sent its answer. -/
theorem closes (h : Orderly s) {model : Model φ Date} {published : Snapshot φ Date}
    {sent : List (Nat × Answer φ)} (hless : model.prompts.Sublist s.model.prompts)
    (hstate : model.state = s.model.state) (hgeneration : model.generation = s.model.generation)
    (hsteps : model.steps = s.model.steps)
    (hsent : ∀ channel answer, (channel, answer) ∈ sent → s.model.Awaits channel) :
    Orderly { s with
      model := model, published := published, delivered := s.delivered ++ sent } := by
  have hshown : ∀ index, s.model.Shown index → model.Shown index := by
    intro index hshown
    rwa [Model.Shown, hsteps]
  refine {
    one := h.one
    ahead := fun generation hlt => h.ahead generation (by rwa [← hgeneration])
    begun := fun hmem => by
      obtain ⟨hrunning, hfree⟩ := h.begun (by rwa [hgeneration] at hmem)
      exact ⟨hstate.trans hrunning, hfree.of_sublist hless⟩
    shows := fun task drive hget hsame => ?_
    stuck := fun task drive hget hended => ?_
    awaited := h.awaited
    free := fun hnot => (h.free (by rwa [← hstate])).of_sublist hless
    failed := fun hfailed => by rw [hsteps]; exact h.failed (by rwa [← hstate])
    pooled := fun work pooled hwork hgoing => ?_
    single := h.single
    reading := fun found quiet hmem => ?_
    told := h.told }
  · rw [hgeneration] at hsame
    exact (h.shows task drive hget hsame).of_sublist hless hstate hsteps
  · rw [hgeneration] at hended
    refine (h.stuck task drive hget hended).keep (fun channel hclosed hlookup => ?_)
      (fun channel _ hclosed hopen => hclosed (hopen.of_sublist hless))
    rw [List.lookup_append, hlookup, Option.none_or, List.lookup_eq_none_iff]
    intro entry hmem
    obtain ⟨other, answer⟩ := entry
    simp only [bne_iff_ne, ne_eq]
    rintro rfl
    exact hclosed (hsent channel answer hmem)
  · obtain ⟨hrunning, hat, drive, hget, hsame, hpools⟩ := h.pooled work pooled hwork hgoing
    exact ⟨hstate.trans hrunning, hshown pooled.index hat, drive, hget,
      hsame.trans hgeneration.symm, hpools⟩
  · obtain ⟨hrest, hquiet⟩ := h.reading found quiet hmem
    refine ⟨?_, hquiet⟩
    rwa [Model.atRest, hstate]

end Closing

/-! ## Runs that begin and end -/

section Runs

variable {model : Model φ Date} {published : Snapshot φ Date}

/-- Of the tasks of a run that is not being carried out, none does anything of a step. -/
theorem stuck_of_ended (h : Orderly s) (hstate : s.model.state ≠ .running)
    {medium : Option Stored} {calls : List Call} (hless : model.prompts.Sublist s.model.prompts)
    {task : Nat} {drive : Drive φ L} (hget : s.drives[task]? = some drive) :
    Stuck { s with model := model, published := published, calls := calls, medium := medium }
      drive.phase := by
  by_cases hsame : drive.generation = s.model.generation
  · have hshows := h.shows task drive hget hsame
    cases hphase : drive.phase with
    | recordingStart index saver =>
        rw [hphase] at hshows
        exact absurd hshows.1.1 hstate
    | carrying carry =>
        rw [hphase] at hshows
        exact absurd hshows.1 hstate
    | _ =>
        refine ⟨trivial, fun channel hwaits => ?_⟩
        obtain ⟨carry, hcarry, -⟩ := hwaits
        cases hcarry
  · refine (h.stuck task drive hget hsame).keep (fun _ _ hlookup => hlookup) ?_
    exact fun channel _ hclosed hopen => hclosed (hopen.of_sublist hless)

/-- One more task is counted for the run about to be given one. -/
theorem tasks_append (s : Engine φ Date L) (call : Call) (generation : Nat) :
    Engine.tasks { s with calls := s.calls ++ [call] } generation =
      s.tasks generation + (if call = .spawning generation then 1 else 0) := by
  have hcount := Roster.countP_append s.calls (fun call => call = .spawning generation) call
  simp only [tasks, hcount, decide_eq_true_eq]
  omega

/-- A run begins where none is being carried out and no determination is under way. -/
theorem begins (h : Orderly s) (hstate : s.model.state ≠ .running)
    (hnone : ∀ found quiet, Determination.reading found quiet ∉ s.determinations)
    (hrunning : model.state = .running) (hgeneration : model.generation = s.model.generation + 1)
    (hless : model.prompts.Sublist s.model.prompts) :
    Orderly { s with
      model := model, published := published,
      calls := s.calls ++ [.spawning model.generation] } := by
  have hfresh : ∀ (task : Nat) (drive : Drive φ L), s.drives[task]? = some drive →
      drive.generation ≠ model.generation := by
    intro task drive hget hsame
    have hle := h.le_generation hget
    omega
  refine {
    one := fun generation => ?_
    ahead := fun generation hlt => ?_
    begun := fun _ => ⟨hrunning, (h.free hstate).of_sublist hless⟩
    shows := fun task drive hget hsame => absurd hsame (hfresh task drive hget)
    stuck := fun task drive hget _ => h.stuck_of_ended hstate hless hget
    awaited := h.awaited
    free := fun hnot => absurd hrunning hnot
    failed := fun hfailed => by rw [hrunning] at hfailed; cases hfailed
    pooled := fun work pooled hwork hgoing => ?_
    single := h.single
    reading := fun found quiet hmem => absurd hmem (hnone found quiet)
    told := h.told }
  · refine (tasks_append s _ generation).trans_le ?_
    split
    · rename_i hnew
      obtain rfl := Call.spawning.inj hnew
      have hzero := h.ahead model.generation (by omega)
      omega
    · have hone := h.one generation
      omega
  · have hlt' : model.generation < generation := hlt
    refine (tasks_append s _ generation).trans ?_
    rw [if_neg fun hsame => by obtain rfl := Call.spawning.inj hsame; omega]
    exact h.ahead generation (by omega)
  · rw [h.none_going hstate hwork] at hgoing
    cases hgoing

/-- A run ends where no step's work can go on and no step is about to begin. -/
theorem ends (h : Orderly s) (hquiet : s.works = [])
    (hbegins : ∀ (task : Nat) (drive : Drive φ L), s.drives[task]? = some drive →
      drive.generation = s.model.generation → ∀ index saver,
      drive.phase ≠ .recordingStart index saver)
    (hidle : model.state = .idle) (hgeneration : model.generation = s.model.generation + 1)
    (hprompts : model.prompts = []) :
    Orderly { s with
      model := model, published := published,
      calls := s.calls ++ [.aborting model.generation] } := by
  obtain ⟨hdrives, hpool⟩ := List.append_eq_nil_iff.mp hquiet
  rw [List.filterMap_eq_nil_iff] at hdrives hpool
  have hclosed : ∀ channel, ¬ model.Awaits channel := by
    rintro channel ⟨prompt, hmem, -⟩
    rw [hprompts] at hmem
    cases hmem
  refine {
    one := fun generation => ?_
    ahead := fun generation hlt => ?_
    begun := fun hmem => ?_
    shows := fun task drive hget hsame => ?_
    stuck := fun task drive hget _ => ⟨?_, fun channel _ => hclosed channel⟩
    awaited := h.awaited
    free := fun _ prompt hmem => by rw [hprompts] at hmem; cases hmem
    failed := fun hfailed => by rw [hidle] at hfailed; cases hfailed
    pooled := fun work pooled hwork hgoing => ?_
    single := h.single
    reading := fun found quiet hmem =>
      ⟨by simp [Model.atRest, hidle], (h.reading found quiet hmem).2⟩
    told := h.told }
  · refine (tasks_append s _ generation).trans_le ?_
    simpa using h.one generation
  · refine (tasks_append s _ generation).trans ?_
    have hlt' : model.generation < generation := hlt
    simpa using h.ahead generation (by omega)
  · have hbefore : Call.spawning model.generation ∈ s.calls := by simpa using hmem
    exact absurd hbefore (not_spawning_of_ahead h.ahead (by omega))
  · have hle := h.le_generation hget
    simp only at hsame
    omega
  · cases hphase : drive.phase with
    | recordingStart index saver =>
        by_cases hsame : drive.generation = s.model.generation
        · exact absurd hphase (hbegins task drive hget hsame index saver)
        · have hstuck := h.stuck task drive hget hsame
          rw [hphase] at hstuck
          exact hstuck.1
    | carrying carry =>
        have hnone := hdrives drive (List.mem_of_getElem? hget)
        have hcan : s.canGoOn carry = false := by simpa [workOf, hphase] using hnone
        exact hcan
    | _ => trivial
  · obtain ⟨-, -, drive, hget, -, -⟩ := h.pooled work pooled hwork hgoing
    have hnone := hpool pooled (List.mem_of_getElem? hwork)
    simp [pooledOf, hgoing, hget] at hnone

end Runs

/-! ## What goes on beside the run -/

section Beside

/-- What is left of an act moves on and counts no task more, but for one to be spawned. -/
theorem tasks_setCall_le {index : Nat} {before after : Call} (hget : s.calls[index]? = some before)
    (hafter : ∀ generation, after ≠ .spawning generation) (generation : Nat) :
    (s.setCall index after).tasks generation ≤ s.tasks generation := by
  have hcount := Roster.countP_set_add hget (fun call => call = .spawning generation) after
  have hother : ¬ (after = .spawning generation) := hafter generation
  simp only [hother, decide_false, Bool.false_eq_true, if_false] at hcount
  simp only [tasks, setCall]
  omega

/-- The task an act was to give its run is counted as before once it is spawned. -/
theorem tasks_spawn {index generation : Nat} {after : Call}
    (hget : s.calls[index]? = some (.spawning generation))
    (hafter : ∀ generation, after ≠ .spawning generation) (other : Nat) :
    ((s.spawn generation).setCall index after).tasks other = s.tasks other := by
  have hcalls := Roster.countP_set_add hget (fun call => call = .spawning other) after
  have hdrives := Roster.countP_append s.drives (fun drive => drive.generation = other)
    { generation := generation, phase := .top }
  have hother : ¬ (after = .spawning other) := hafter other
  simp only [hother, decide_false, Bool.false_eq_true, if_false, Call.spawning.injEq,
    decide_eq_true_eq] at hcalls hdrives
  simp only [tasks, setCall, spawn]
  omega

/-- What is left of an act moves on, but for a task to be spawned. -/
theorem calls_set (h : Orderly s) {index : Nat} {before after : Call}
    (hget : s.calls[index]? = some before) (hafter : ∀ generation, after ≠ .spawning generation) :
    Orderly (s.setCall index after) := by
  have htasks := tasks_setCall_le hget hafter
  refine {
    one := fun generation => (htasks generation).trans (h.one generation)
    ahead := fun generation hlt => ?_
    begun := fun hmem => ?_
    shows := h.shows
    stuck := h.stuck
    awaited := h.awaited
    free := h.free
    failed := h.failed
    pooled := h.pooled
    single := h.single
    reading := h.reading
    told := h.told }
  · have hle := htasks generation
    rw [h.ahead generation hlt] at hle
    omega
  · rcases List.mem_or_eq_of_mem_set hmem with hold | hnew
    · exact h.begun hold
    · exact absurd hnew.symm (hafter _)

/-- The task an act was to give its run is spawned. -/
theorem spawns (h : Orderly s) {index generation : Nat} {after : Call}
    (hget : s.calls[index]? = some (.spawning generation))
    (hafter : ∀ generation, after ≠ .spawning generation) :
    Orderly ((s.spawn generation).setCall index after) := by
  have htasks := tasks_spawn hget hafter
  have hmem : .spawning generation ∈ s.calls := List.mem_of_getElem? hget
  refine {
    one := fun other => (htasks other).trans_le (h.one other)
    ahead := fun other hlt => (htasks other).trans (h.ahead other hlt)
    begun := fun hleft => ?_
    shows := fun task drive hdrive hsame => ?_
    stuck := fun task drive hdrive hended => ?_
    awaited := fun task drive hdrive channel hwaits => ?_
    free := h.free
    failed := h.failed
    pooled := fun work pooled hwork hgoing => ?_
    single := h.single
    reading := h.reading
    told := h.told }
  · rcases List.mem_or_eq_of_mem_set hleft with hold | hnew
    · exact h.begun hold
    · exact absurd hnew.symm (hafter _)
  · rcases Roster.getElem?_append_cases hdrive with ⟨-, rfl⟩ | hbefore
    · obtain rfl : generation = s.model.generation := hsame
      exact h.begun hmem
    · exact h.shows task drive hbefore hsame
  · rcases Roster.getElem?_append_cases hdrive with ⟨-, rfl⟩ | hbefore
    · refine ⟨trivial, fun channel hwaits => ?_⟩
      obtain ⟨carry, hcarry, -⟩ := hwaits
      cases hcarry
    · exact h.stuck task drive hbefore hended
  · rcases Roster.getElem?_append_cases hdrive with ⟨-, rfl⟩ | hbefore
    · obtain ⟨carry, hcarry, -⟩ := hwaits
      cases hcarry
    · exact h.awaited task drive hbefore channel hwaits
  · obtain ⟨hrunning, hshown, drive, hdrive, hsame, hpools⟩ := h.pooled work pooled hwork hgoing
    exact ⟨hrunning, hshown, drive, Roster.getElem?_append_of_some hdrive, hsame, hpools⟩

/-- The step being carried out hands work to the pool and waits on it. -/
theorem offloads (h : Orderly s) {task : Nat} {drive : Drive φ L} {carry : Carry φ L} {body : L}
    (hget : s.drives[task]? = some drive) (hcurrent : drive.generation = s.model.generation)
    (hphase : drive.phase = .carrying carry) (hnothing : carry.awaiting = .nothing) :
    Orderly ((s.handOver task carry.index).setPhase task
      (.carrying { carry with body := body, awaiting := .pool s.pool.length })) := by
  have hshows := h.shows task drive hget hcurrent
  rw [hphase] at hshows
  have hquiet : ∀ work index, ¬ Pools work index drive.phase := by
    rintro work index (hended | ⟨waiting, hwaiting, -, hpool⟩)
    · rw [hphase] at hended
      cases hended
    · rw [hphase] at hwaiting
      obtain rfl := Phase.carrying.inj hwaiting
      rw [hnothing] at hpool
      cases hpool
  have hnone : ∀ (work : Nat) (pooled : Pooled), s.pool[work]? = some pooled →
      pooled.going ≠ true := by
    intro work pooled hwork hgoing
    exact hquiet work pooled.index (h.task_of_going hget hcurrent hwork hgoing).2
  have hmoved : Orderly (s.setPhase task
      (.carrying { carry with body := body, awaiting := .pool s.pool.length })) := by
    refine h.moves hget (fun _ => hshows) (fun hended => absurd hcurrent hended) ?_ ?_
    · rintro channel ⟨waiting, hwaiting, hanswer⟩
      obtain rfl := Phase.carrying.inj hwaiting
      cases hanswer
    · exact fun work pooled hwork hgoing => absurd hgoing (hnone work pooled hwork)
  rw [setPhase_eq hget] at hmoved
  have heq := setPhase_eq (s := s.handOver task carry.index) hget
    (.carrying { carry with body := body, awaiting := .pool s.pool.length })
  rw [heq]
  refine {
    one := hmoved.one
    ahead := hmoved.ahead
    begun := hmoved.begun
    shows := hmoved.shows
    stuck := hmoved.stuck
    awaited := hmoved.awaited
    free := hmoved.free
    failed := hmoved.failed
    pooled := fun work pooled hwork hgoing => ?_
    single := fun work pooled work' pooled' hwork hgoing hwork' hgoing' => ?_
    reading := hmoved.reading
    told := hmoved.told }
  · rcases Roster.getElem?_append_cases hwork with ⟨rfl, rfl⟩ | hbefore
    · refine ⟨hshows.1, hshows.2.2, _,
        List.getElem?_set_self (List.getElem?_eq_some_iff.mp hget).1, hcurrent, ?_⟩
      exact Or.inr ⟨_, rfl, rfl, rfl⟩
    · exact absurd hgoing (hnone work pooled hbefore)
  · rcases Roster.getElem?_append_cases hwork with ⟨rfl, rfl⟩ | hbefore
    · rcases Roster.getElem?_append_cases hwork' with ⟨rfl, rfl⟩ | hbefore'
      · rfl
      · exact absurd hgoing' (hnone work' pooled' hbefore')
    · exact absurd hgoing (hnone work pooled hbefore)

/-- Work in the pool comes to its end. -/
theorem finishes (h : Orderly s) {work : Nat} {pooled : Pooled} :
    Orderly { s with pool := s.pool.set work { pooled with going := false } } := by
  have hstill : ∀ (other : Nat) (pooled' : Pooled),
      (s.pool.set work { pooled with going := false })[other]? = some pooled' →
      pooled'.going = true → s.pool[other]? = some pooled' := by
    intro other pooled' hother hgoing
    rcases Roster.getElem?_set_cases hother with ⟨-, rfl⟩ | ⟨-, hbefore⟩
    · cases hgoing
    · exact hbefore
  exact {
    one := h.one
    ahead := h.ahead
    begun := h.begun
    shows := h.shows
    stuck := h.stuck
    awaited := h.awaited
    free := h.free
    failed := h.failed
    pooled := fun other pooled' hother hgoing =>
      h.pooled other pooled' (hstill other pooled' hother hgoing) hgoing
    single := fun first pooled' second pooled'' hfirst hgoing hsecond hgoing' =>
      h.single first pooled' second pooled'' (hstill first pooled' hfirst hgoing) hgoing
        (hstill second pooled'' hsecond hgoing') hgoing'
    reading := h.reading
    told := h.told }

/-- The determinations go on, each under way begun with the device at rest and with no step's work
since. -/
theorem determines (h : Orderly s) {determinations : List Determination}
    (hreading : ∀ found quiet, Determination.reading found quiet ∈ determinations →
      s.model.atRest = true ∧ quiet = true) :
    Orderly { s with determinations := determinations } :=
  ⟨h.one, h.ahead, h.begun, h.shows, h.stuck, h.awaited, h.free, h.failed, h.pooled, h.single,
    hreading, h.told⟩

/-- No step's work can go on while the device is at rest. -/
theorem works_of_atRest (h : Orderly s) (hrest : s.model.atRest = true) : s.works = [] := by
  have hstate := Model.ne_running_of_atRest hrest
  refine List.append_eq_nil_iff.mpr ⟨?_, ?_⟩
  · rw [List.filterMap_eq_nil_iff]
    intro drive hmem
    obtain ⟨task, hget⟩ := List.mem_iff_getElem?.mp hmem
    unfold workOf
    cases hphase : drive.phase with
    | carrying carry =>
        by_cases hsame : drive.generation = s.model.generation
        · have hshows := h.shows task drive hget hsame
          rw [hphase] at hshows
          exact absurd hshows.1 hstate
        · have hstuck := (h.stuck task drive hget hsame).1
          rw [hphase] at hstuck
          have hcan : s.canGoOn carry = false := hstuck
          simp [hcan]
    | _ => rfl
  · rw [List.filterMap_eq_nil_iff]
    intro pooled hmem
    obtain ⟨work, hwork⟩ := List.mem_iff_getElem?.mp hmem
    simp [pooledOf, h.none_going hstate hwork]

/-- Noting whether some step's work can go on notes that none can. -/
theorem observes (h : Orderly s) : Orderly s.observe := by
  apply h.determines
  intro found quiet hmem
  obtain ⟨before, hbefore, hafter⟩ := List.mem_map.mp hmem
  cases before with
  | reading found' quiet' =>
      obtain ⟨hrest, rfl⟩ := h.reading found' quiet' hbefore
      simp only [Determination.reading.injEq] at hafter
      refine ⟨hrest, ?_⟩
      rw [← hafter.2, h.works_of_atRest hrest]
      rfl
  | queued => cases hafter
  | ended => cases hafter

end Beside

end Orderly

end Bliti.Provision.Engine
