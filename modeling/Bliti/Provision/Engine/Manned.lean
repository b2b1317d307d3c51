import Bliti.Provision.Engine.Tidy
import Bliti.Provision.Prompts

/-!
# Provisioning - what holds of the prompts between two stretches

Whatever a step leaves behind and whenever a run is stopped, each run has at most one
task, the model shows what that task is doing, and its prompts are those of the step it
carries out and of the steps that asked ahead.
-/

namespace Bliti.Provision.Engine

open Channel.Messages (Answer)

variable {φ Date L : Type} {s s' : Engine φ Date L} {device : Device φ Date L}

/-! ## The guard -/

/-- The stretches in which a step of the run under way asks for a notice only under a key that no
open prompt has. -/
def Fresh (s : Engine φ Date L) : Move φ → Prop
  | .work task (.ask (.notice key _)) =>
      ∀ drive, s.drives[task]? = some drive → drive.generation = s.model.generation →
        ∀ prompt ∈ s.model.prompts, prompt.key ≠ key
  | _ => True

/-! ## Who waits -/

/-- What holds between two stretches of the prompts and of those who wait on them: each run has at
most one task, which the model shows; the tasks of runs that have ended wait on no open prompt; what
is waited on has not been sent; and the prompts differ and agree with what the model shows. -/
structure Manned (s : Engine φ Date L) : Prop where
  one : ∀ generation, s.tasks generation ≤ 1
  ahead : ∀ generation, s.model.generation < generation → s.tasks generation = 0
  begun : .spawning s.model.generation ∈ s.calls → Ready s.model
  shows : ∀ (task : Nat) (drive : Drive φ L), s.drives[task]? = some drive →
    drive.generation = s.model.generation → Shows s.model drive.phase
  closed : ∀ (task : Nat) (drive : Drive φ L), s.drives[task]? = some drive →
    drive.generation ≠ s.model.generation → ∀ channel, Waits channel drive.phase →
      ¬ s.model.Awaits channel
  awaited : ∀ (task : Nat) (drive : Drive φ L), s.drives[task]? = some drive →
    ∀ channel, Waits channel drive.phase → channel < s.channels
  unsent : ∀ channel, s.model.Awaits channel → s.delivered.lookup channel = none
  sent : ∀ entry ∈ s.delivered, entry.1 < s.channels
  listed : s.model.Listed s.channels
  coherent : s.model.Coherent

namespace Manned

/-- Only the model, the tasks, the acts and the channels matter. -/
theorem of_eq (h : Manned s) (hmodel : s'.model = s.model) (hdrives : s'.drives = s.drives)
    (hcalls : s'.calls = s.calls) (hdelivered : s'.delivered = s.delivered)
    (hchannels : s'.channels = s.channels) : Manned s' := by
  have htasks : ∀ generation, s'.tasks generation = s.tasks generation := by
    intro generation
    rw [tasks, tasks, hdrives, hcalls]
  refine {
    one := fun generation => ?_
    ahead := fun generation hlt => ?_
    begun := ?_
    shows := ?_
    closed := ?_
    awaited := ?_
    unsent := ?_
    sent := ?_
    listed := ?_
    coherent := ?_ }
  · rw [htasks]
    exact h.one generation
  · rw [hmodel] at hlt
    rw [htasks]
    exact h.ahead generation hlt
  · rw [hmodel, hcalls]
    exact h.begun
  · rw [hmodel, hdrives]
    exact h.shows
  · rw [hmodel, hdrives]
    exact h.closed
  · rw [hdrives, hchannels]
    exact h.awaited
  · rw [hmodel, hdelivered]
    exact h.unsent
  · rw [hdelivered, hchannels]
    exact h.sent
  · rw [hmodel, hchannels]
    exact h.listed
  · rw [hmodel]
    exact h.coherent

/-- What is kept beside a run does not matter. -/
theorem beside (h : Manned s) (hbeside : Beside s s') : Manned s' :=
  h.of_eq hbeside.model hbeside.drives hbeside.calls hbeside.delivered hbeside.channels

/-- A channel not given out has been sent nothing. -/
theorem lookup_of_le (h : Manned s) {channel : Nat} (hle : s.channels ≤ channel) :
    s.delivered.lookup channel = none := by
  rw [List.lookup_eq_none_iff]
  intro entry hmem
  have hlt := h.sent entry hmem
  have hne : channel ≠ entry.1 := by omega
  simpa using hne

/-! ## A task that moves on -/

section Moving

variable {task : Nat} {drive : Drive φ L} {phase : Phase φ L}

/-- A task moves on, to where it waits for no answer, and the model stays as it is. -/
theorem moves (h : Manned s) (hget : s.drives[task]? = some drive)
    (hshows : drive.generation = s.model.generation → Shows s.model phase)
    (hnone : ∀ channel, ¬ Waits channel phase) : Manned (s.setPhase task phase) := by
  rw [setPhase_eq hget]
  refine {
    one := fun generation => ?_
    ahead := fun generation hlt => ?_
    begun := h.begun
    shows := fun other drive' hother hsame => ?_
    closed := fun other drive' hother hended channel hwaits => ?_
    awaited := fun other drive' hother channel hwaits => ?_
    unsent := h.unsent
    sent := h.sent
    listed := h.listed
    coherent := h.coherent }
  · rw [Orderly.tasks_set hget]
    exact h.one generation
  · rw [Orderly.tasks_set hget]
    exact h.ahead generation hlt
  · rcases Roster.getElem?_set_cases hother with ⟨-, rfl⟩ | ⟨-, hbefore⟩
    · exact hshows hsame
    · exact h.shows other drive' hbefore hsame
  · rcases Roster.getElem?_set_cases hother with ⟨-, rfl⟩ | ⟨-, hbefore⟩
    · exact absurd hwaits (hnone channel)
    · exact h.closed other drive' hbefore hended channel hwaits
  · rcases Roster.getElem?_set_cases hother with ⟨-, rfl⟩ | ⟨-, hbefore⟩
    · exact absurd hwaits (hnone channel)
    · exact h.awaited other drive' hbefore channel hwaits

/-- A task may come to its end at any place. -/
theorem overs (h : Manned s) (task : Nat) : Manned (s.setPhase task .ended) := by
  cases hget : s.drives[task]? with
  | none =>
      have hsame : s.setPhase task .ended = s := by
        simp [setPhase, List.modify_eq_set_getElem?, hget]
      rwa [hsame]
  | some drive => exact h.moves hget (fun _ => trivial) (not_waits rfl)

/-- The task of the run under way moves on and changes the model. -/
theorem advance (h : Manned s) (hget : s.drives[task]? = some drive)
    (hcurrent : drive.generation = s.model.generation) {model : Model φ Date}
    {published : Snapshot φ Date} {savers : List Saver} {channels : Nat}
    (hgeneration : model.generation = s.model.generation) (hchannels : s.channels ≤ channels)
    (hshows : Shows model phase) (hlisted : model.Listed channels) (hcoherent : model.Coherent)
    (hawaits : ∀ channel, model.Awaits channel → s.model.Awaits channel ∨ s.channels ≤ channel)
    (hawaited : ∀ channel, Waits channel phase → channel < channels) :
    Manned { s with
      model := model, published := published, savers := savers, channels := channels,
      drives := s.drives.set task { drive with phase := phase } } := by
  refine {
    one := fun generation => ?_
    ahead := fun generation hlt => ?_
    begun := fun hmem => ?_
    shows := fun other drive' hother hsame => ?_
    closed := fun other drive' hother hended channel hwaits hopen => ?_
    awaited := fun other drive' hother channel hwaits => ?_
    unsent := fun channel hopen => ?_
    sent := fun entry hmem => Nat.lt_of_lt_of_le (h.sent entry hmem) hchannels
    listed := hlisted
    coherent := hcoherent }
  · exact (Orderly.tasks_set hget generation).trans_le (h.one generation)
  · rw [hgeneration] at hlt
    exact (Orderly.tasks_set hget generation).trans (h.ahead generation hlt)
  · rw [hgeneration] at hmem
    exact absurd hmem (not_spawning_of_one h.one hget hcurrent)
  · rcases Roster.getElem?_set_cases hother with ⟨-, rfl⟩ | ⟨hne, hbefore⟩
    · exact hshows
    · rw [hgeneration] at hsame
      exact absurd (only_of_one h.one hget hcurrent hbefore hsame) hne
  · rw [hgeneration] at hended
    rcases Roster.getElem?_set_cases hother with ⟨-, rfl⟩ | ⟨-, hbefore⟩
    · exact hended hcurrent
    · have hlt := h.awaited other drive' hbefore channel hwaits
      rcases hawaits channel hopen with hold | hnew
      · exact h.closed other drive' hbefore hended channel hwaits hold
      · omega
  · rcases Roster.getElem?_set_cases hother with ⟨-, rfl⟩ | ⟨-, hbefore⟩
    · exact hawaited channel hwaits
    · exact Nat.lt_of_lt_of_le (h.awaited other drive' hbefore channel hwaits) hchannels
  · rcases hawaits channel hopen with hold | hnew
    · exact h.unsent channel hold
    · exact h.lookup_of_le hnew

end Moving

/-! ## Prompts that close, runs that begin and end -/

section Runs

variable {model : Model φ Date} {published : Snapshot φ Date}

/-- Prompts close, and what waited on them may be sent its answer. -/
theorem closes (h : Manned s) {sent : List (Nat × Answer φ)}
    (hless : model.prompts.Sublist s.model.prompts) (hstate : model.state = s.model.state)
    (hgeneration : model.generation = s.model.generation) (hsteps : model.steps = s.model.steps)
    (hanswers : s.model.answers = [] → s.model.prompts = [] → model.answers = [])
    (hsent : ∀ entry ∈ sent, s.model.Awaits entry.1 ∧ ¬ model.Awaits entry.1) :
    Manned { s with
      model := model, published := published, delivered := s.delivered ++ sent } := by
  have hshown : ∀ index, s.model.Shown index → model.Shown index := by
    intro index hshown
    rwa [Model.Shown, hsteps]
  refine {
    one := h.one
    ahead := fun generation hlt => h.ahead generation (by rwa [← hgeneration])
    begun := fun hmem => by
      obtain ⟨hrunning, hfree⟩ := h.begun (by rwa [hgeneration] at hmem)
      exact ⟨hstate.trans hrunning, hfree.of_sublist hless⟩
    shows := fun task drive hget hsame => ?_
    closed := fun task drive hget hended channel hwaits hopen => ?_
    awaited := h.awaited
    unsent := fun channel hopen => ?_
    sent := fun entry hmem => ?_
    listed := h.listed.of_sublist hless
    coherent := {
      able := by rw [hstate]; exact h.coherent.able
      blocked := fun prompt hmem index hblocks => ?_
      failed := by rw [hstate, hsteps]; exact h.coherent.failed
      rest := fun hrest => ?_ } }
  · rw [hgeneration] at hsame
    exact (h.shows task drive hget hsame).of_sublist hless hstate hsteps
  · rw [hgeneration] at hended
    exact h.closed task drive hget hended channel hwaits (hopen.of_sublist hless)
  · rw [List.lookup_append, h.unsent channel (hopen.of_sublist hless), Option.none_or,
      List.lookup_eq_none_iff]
    intro entry hmem
    have hne : channel ≠ entry.1 := by
      rintro rfl
      exact (hsent entry hmem).2 hopen
    simpa using hne
  · rcases List.mem_append.mp hmem with hold | hnew
    · exact h.sent entry hold
    · exact h.listed.lt_of_awaits (hsent entry hnew).1
  · obtain ⟨hrunning, hat⟩ := h.coherent.blocked prompt (hless.subset hmem) index hblocks
    exact ⟨hstate.trans hrunning, hshown index hat⟩
  · rw [Model.atRest, hstate] at hrest
    obtain ⟨hprompts, hnone⟩ := h.coherent.rest hrest
    rw [hprompts] at hless
    exact ⟨List.sublist_nil.mp hless, hanswers hnone hprompts⟩

/-- A run begins where none is being carried out. -/
theorem begins (h : Manned s) (hstate : s.model.state ≠ .running)
    (hrunning : model.state = .running) (hgeneration : model.generation = s.model.generation + 1)
    (hless : model.prompts.Sublist s.model.prompts) :
    Manned { s with
      model := model, published := published,
      calls := s.calls ++ [.spawning model.generation] } := by
  have hfree : model.HeldBy none := (h.coherent.free hstate).of_sublist hless
  have hlisted : model.Listed s.channels := h.listed.of_sublist hless
  refine {
    one := fun generation => ?_
    ahead := fun generation hlt => ?_
    begun := fun _ => ⟨hrunning, hfree⟩
    shows := fun task drive hget hsame => ?_
    closed := fun _ _ _ _ channel _ hopen => hlisted.not_awaits hfree channel hopen
    awaited := h.awaited
    unsent := fun channel hopen => absurd hopen (hlisted.not_awaits hfree channel)
    sent := h.sent
    listed := hlisted
    coherent := .of_free hrunning hfree }
  · refine (Orderly.tasks_append s _ generation).trans_le ?_
    split
    · rename_i hnew
      obtain rfl := Call.spawning.inj hnew
      have hzero := h.ahead model.generation (by omega)
      omega
    · have hone := h.one generation
      omega
  · have hlt' : model.generation < generation := hlt
    refine (Orderly.tasks_append s _ generation).trans ?_
    rw [if_neg fun hsame => by obtain rfl := Call.spawning.inj hsame; omega]
    exact h.ahead generation (by omega)
  · have hle := le_of_ahead h.ahead hget
    have hsame' : drive.generation = model.generation := hsame
    omega

/-- A run ends, with its prompts and its answers. -/
theorem ends (h : Manned s) (hidle : model.state = .idle)
    (hgeneration : model.generation = s.model.generation + 1) (hprompts : model.prompts = [])
    (hanswers : model.answers = []) :
    Manned { s with
      model := model, published := published,
      calls := s.calls ++ [.aborting model.generation] } := by
  have hclosed : ∀ channel, ¬ model.Awaits channel := by
    rintro channel ⟨prompt, hmem, -⟩
    rw [hprompts] at hmem
    cases hmem
  refine {
    one := fun generation => ?_
    ahead := fun generation hlt => ?_
    begun := fun hmem => ?_
    shows := fun task drive hget hsame => ?_
    closed := fun _ _ _ _ channel _ => hclosed channel
    awaited := h.awaited
    unsent := fun channel hopen => absurd hopen (hclosed channel)
    sent := h.sent
    listed := h.listed.of_sublist (by rw [hprompts]; exact List.nil_sublist _)
    coherent := {
      able := fun hwaiting => by rw [hidle] at hwaiting; cases hwaiting
      blocked := fun prompt hmem => by rw [hprompts] at hmem; cases hmem
      failed := fun hfailed => by rw [hidle] at hfailed; cases hfailed
      rest := fun _ => ⟨hprompts, hanswers⟩ } }
  · refine (Orderly.tasks_append s _ generation).trans_le ?_
    simpa using h.one generation
  · refine (Orderly.tasks_append s _ generation).trans ?_
    have hlt' : model.generation < generation := hlt
    simpa using h.ahead generation (by omega)
  · have hbefore : Call.spawning model.generation ∈ s.calls := by simpa using hmem
    exact absurd hbefore (not_spawning_of_ahead h.ahead (by omega))
  · have hle := le_of_ahead h.ahead hget
    have hsame' : drive.generation = model.generation := hsame
    omega

end Runs

/-! ## What is left of an act -/

section Calls

variable {index : Nat}

/-- What is left of an act moves on, but for a task to be spawned. -/
theorem calls_set (h : Manned s) {before after : Call} (hget : s.calls[index]? = some before)
    (hafter : ∀ generation, after ≠ .spawning generation) : Manned (s.setCall index after) := by
  have htasks := Orderly.tasks_setCall_le hget hafter
  refine {
    one := fun generation => (htasks generation).trans (h.one generation)
    ahead := fun generation hlt => ?_
    begun := fun hmem => ?_
    shows := h.shows
    closed := h.closed
    awaited := h.awaited
    unsent := h.unsent
    sent := h.sent
    listed := h.listed
    coherent := h.coherent }
  · have hle := htasks generation
    rw [h.ahead generation hlt] at hle
    omega
  · rcases List.mem_or_eq_of_mem_set hmem with hold | hnew
    · exact h.begun hold
    · exact absurd hnew.symm (hafter _)

/-- The task an act was to give its run is spawned. -/
theorem spawns (h : Manned s) {generation : Nat} {after : Call}
    (hget : s.calls[index]? = some (.spawning generation))
    (hafter : ∀ generation, after ≠ .spawning generation) :
    Manned ((s.spawn generation).setCall index after) := by
  have htasks := Orderly.tasks_spawn hget hafter
  have hmem : .spawning generation ∈ s.calls := List.mem_of_getElem? hget
  refine {
    one := fun other => (htasks other).trans_le (h.one other)
    ahead := fun other hlt => (htasks other).trans (h.ahead other hlt)
    begun := fun hleft => ?_
    shows := fun task drive hdrive hsame => ?_
    closed := fun task drive hdrive hended channel hwaits => ?_
    awaited := fun task drive hdrive channel hwaits => ?_
    unsent := h.unsent
    sent := h.sent
    listed := h.listed
    coherent := h.coherent }
  · rcases List.mem_or_eq_of_mem_set hleft with hold | hnew
    · exact h.begun hold
    · exact absurd hnew.symm (hafter _)
  · rcases Roster.getElem?_append_cases hdrive with ⟨-, rfl⟩ | hbefore
    · obtain rfl : generation = s.model.generation := hsame
      exact h.begun hmem
    · exact h.shows task drive hbefore hsame
  · rcases Roster.getElem?_append_cases hdrive with ⟨-, rfl⟩ | hbefore
    · exact absurd hwaits (not_waits rfl channel)
    · exact h.closed task drive hbefore hended channel hwaits
  · rcases Roster.getElem?_append_cases hdrive with ⟨-, rfl⟩ | hbefore
    · exact absurd hwaits (not_waits rfl channel)
    · exact h.awaited task drive hbefore channel hwaits

end Calls

/-! ## Stretches -/

section Stretches

variable {task : Nat} {drive : Drive φ L} {phase : Phase φ L}

/-- The task of the run under way moves on, to where it waits for no answer. -/
theorem goes_on (h : Manned s) (hget : s.drives[task]? = some drive)
    (hcurrent : drive.generation = s.model.generation) {model : Model φ Date}
    {published : Snapshot φ Date} {savers : List Saver}
    (hgeneration : model.generation = s.model.generation) (hshows : Shows model phase)
    (hlisted : model.Listed s.channels) (hcoherent : model.Coherent)
    (hawaits : ∀ channel, model.Awaits channel → s.model.Awaits channel)
    (hnone : ∀ channel, ¬ Waits channel phase) :
    Manned { s with
      model := model, published := published, savers := savers,
      drives := s.drives.set task { drive with phase := phase } } := by
  apply h.advance hget hcurrent hgeneration (Nat.le_refl _) hshows hlisted hcoherent
  · exact fun channel hopen => Or.inl (hawaits channel hopen)
  · exact fun channel hwaits => absurd hwaits (hnone channel)

/-- A step goes on by itself, waiting for no answer, whether or not its run has ended. -/
theorem keeps_on (h : Manned s) {carry next : Carry φ L} (hget : s.drives[task]? = some drive)
    (hphase : drive.phase = .carrying carry) (hindex : next.index = carry.index)
    (hnone : ∀ channel, next.awaiting ≠ .answer (.wait channel)) :
    Manned (s.setPhase task (.carrying next)) := by
  refine h.moves hget (fun hcurrent => ?_) (not_waits_of_awaiting hnone)
  have hshows := h.shows task drive hget hcurrent
  rw [hphase] at hshows
  rw [Shows, hindex]
  exact hshows

variable [BEq φ] [BEq Date]

/-- What a step asks of a run that has ended changes nothing but what it awaits. -/
theorem asks_ended {generation : Nat} (hended : s.model.generation ≠ generation)
    (carry : Carry φ L) (hnothing : carry.awaiting = .nothing) (asked : Ask φ) :
    ∃ next, s.asks generation carry asked = (s, next) ∧ next.index = carry.index ∧
      ∀ channel, next.awaiting ≠ .answer (.wait channel) := by
  have hmutate : ∀ change : Model φ Date → Model φ Date, s.mutate generation change = none :=
    fun change => if_neg hended
  have hchange : ∀ change : Model φ Date → Model φ Date, s.tryMutate generation change = s := by
    intro change
    rw [tryMutate, hmutate, Option.getD_none]
  have hawaiting : ∀ channel, carry.awaiting ≠ .answer (.wait channel) := by
    simp [hnothing]
  cases asked with
  | need key kind text =>
      exact ⟨{ carry with awaiting := .never }, by simp only [Engine.asks, hmutate], rfl, by simp⟩
  | takeText key default =>
      exact ⟨{ carry with awaiting := .text none }, by simp only [Engine.asks, hmutate], rfl,
        by simp⟩
  | notice key text => exact ⟨carry, by simp only [Engine.asks, hmutate], rfl, hawaiting⟩
  | close id =>
      simp only [Engine.asks, hchange]
      split
      · exact ⟨{ carry with notices := carry.notices.erase id }, rfl, rfl, hawaiting⟩
      · exact ⟨carry, rfl, rfl, hawaiting⟩
  | progress | result | askLater | forget =>
      exact ⟨carry, by simp only [Engine.asks, hchange], rfl, hawaiting⟩

/-- What a step asks of the run is kept to what holds, a notice being asked for under a key no
open prompt has. -/
theorem asks (h : Manned s) {carry : Carry φ L} {body : L} (hget : s.drives[task]? = some drive)
    (hphase : drive.phase = .carrying carry) (hnothing : carry.awaiting = .nothing)
    (asked : Ask φ) (hfresh : Fresh s (.work task (.ask asked))) :
    let asking := s.asks drive.generation { carry with body := body } asked
    Manned (asking.1.setPhase task (.carrying asking.2)) := by
  by_cases hcurrent : drive.generation = s.model.generation
  · have hshows := h.shows task drive hget hcurrent
    rw [hphase] at hshows
    obtain ⟨hrunning, hheld, hshown⟩ := hshows
    have hunopened : Unopened s.model asked := by
      rintro key text rfl
      exact hfresh drive hget hcurrent
    obtain ⟨model, published, channels, next, hasks, hamends, hlisted, hindex, hwaits⟩ :=
      asks_amends (s := s) hcurrent.symm { carry with body := body } hnothing asked
    have hstill : model.state = .running := hamends.state.trans hrunning
    simp only [hasks]
    rw [setPhase_eq (by exact hget)]
    refine h.advance hget hcurrent hamends.generation hamends.le ?_ (hlisted hunopened h.listed)
      (.of_held hstill (hamends.held hheld) (hamends.shown hshown)) hamends.awaits ?_
    · rw [Shows, hindex]
      exact ⟨hstill, hamends.held hheld, hamends.shown hshown⟩
    · rintro channel ⟨waiting, hwaiting, hanswer⟩
      obtain rfl := Phase.carrying.inj hwaiting
      exact hwaits channel hanswer
  · obtain ⟨next, hsame, hindex, hnone⟩ := asks_ended (Ne.symm hcurrent)
      { carry with body := body } hnothing asked
    simp only [hsame]
    exact h.keeps_on hget hphase hindex hnone

end Stretches

/-! ## Each part of what goes on -/

section Parts

variable {task : Nat}

/-- A step given what it waits on is kept to what holds. -/
theorem resume (h : Manned s) (hresume : s.resume device task = some s') : Manned s' := by
  obtain ⟨drive, carry, given, body, hget, hphase, -, -, rfl⟩ := resume_cases hresume
  exact h.keeps_on hget hphase rfl (by simp)

/-- A step having asked ahead is kept to what holds. -/
theorem askedAhead (h : Manned s) (hasked : s.askedAhead task = some s') : Manned s' := by
  obtain ⟨drive, index, rest, hget, hphase, rfl⟩ := askedAhead_cases hasked
  have hshows := h.shows task drive hget
  rw [hphase] at hshows
  exact h.moves hget hshows (not_waits rfl)

variable [BEq φ] [BEq Date]

/-- A prompt closes, if its run has not ended. -/
theorem closed_at (h : Manned s) (generation : Nat) (id : String) :
    Manned (s.tryMutate generation fun model => model.close id) := by
  rcases s.tryMutate_cases generation fun model => model.close id with
    ⟨-, published, hclosed⟩ | ⟨-, hsame⟩
  · have hcloses : Manned { s with
        model := s.model.close id, published := published, delivered := s.delivered ++ [] } :=
      h.closes (s.model.close_sublist id) rfl rfl rfl (fun hnone _ => hnone)
        (fun _ hmem => by cases hmem)
    rw [hclosed]
    simpa using hcloses
  · rwa [hsame]

/-- Dropping the notices a step holds closes prompts of its run, if it has not ended. -/
theorem drops (h : Manned s) (generation : Nat) (notices : List String) :
    Manned (s.dropNotices generation notices) :=
  dropNotices_kept (fun _ generation id h => h.closed_at generation id) h generation notices

/-- A task aborted does nothing more, and what it held is dropped. -/
theorem aborts (h : Manned s) (task : Nat) : Manned (s.abort task) :=
  abort_kept (fun _ h => h.of_eq rfl rfl rfl rfl rfl) (fun _ task h => h.overs task)
    (fun _ generation id h => h.closed_at generation id) h task

/-- What a step being carried out does next is kept to what holds. -/
theorem work (h : Manned s) {done : Work φ} (hfresh : Fresh s (.work task done))
    (hwork : s.work device task done = some s') : Manned s' := by
  obtain ⟨drive, carry, body, hget, hphase, -, hworks⟩ := work_goes hwork
  cases hworks with
  | asks asked hnothing => exact h.asks hget hphase hnothing asked hfresh
  | inPlace hnothing => exact h.keeps_on hget hphase rfl (by simp [hnothing])
  | offload hnothing =>
      have hhanded : Manned (s.handOver task carry.index) := h.of_eq rfl rfl rfl rfl rfl
      exact hhanded.keeps_on hget hphase rfl (by simp)
  | joined hawaiting hpool hstopped => exact h.keeps_on hget hphase rfl (by simp)
  | limit => exact h.keeps_on hget hphase rfl (by simp)
  | ends outcome hnothing =>
      have hreturned : Manned (s.setPhase task (.returned carry.index outcome)) := by
        refine h.moves hget (fun hcurrent => ?_) (not_waits rfl)
        have hshows := h.shows task drive hget hcurrent
        rwa [hphase] at hshows
      exact hreturned.drops drive.generation carry.notices

/-- The steps asking ahead are kept to what holds. -/
theorem askAhead (h : Manned s) {question : Question}
    (hask : s.askAhead task question = some s') : Manned s' := by
  obtain ⟨drive, index, rest, hget, hphase, ⟨hcurrent, published, rfl⟩ | rfl⟩ :=
    askAhead_cases hask
  · have hshows := h.shows task drive hget hcurrent
    rw [hphase] at hshows
    obtain ⟨hstate, hgeneration, -, -⟩ := s.model.askLater_rest index question
    have hready : Ready (s.model.askLater index question) :=
      ⟨hstate.trans hshows.1, Model.askLater_held hshows.2⟩
    exact h.goes_on hget hcurrent hgeneration hready (h.listed.askLater index question)
      (.of_free hready.1 hready.2) (fun _ => Model.askLater_awaits) (not_waits rfl)
  · exact h

/-- The task that carries a run out is kept to what holds. -/
theorem drive (h : Manned s) {cleared : Bool} (hdrive : s.drive device task cleared = some s') :
    Manned s' := by
  obtain ⟨t, drive, model, phase, hbeside, hget, hgoes, rfl⟩ := drive_goes hdrive
  have h := h.beside hbeside
  have hshows := h.shows task drive hget
  have hover : Manned { t with drives := t.drives.set task { drive with phase := .ended } } := by
    have hovers := h.overs task
    rwa [setPhase_eq hget] at hovers
  have hwalks : ∀ {phase : Phase φ L}, (∀ channel, ¬ Waits channel phase) →
      (drive.generation = t.model.generation → Shows t.model phase) →
      Manned { t with drives := t.drives.set task { drive with phase := phase } } := by
    intro phase hnone hshown
    have hwalk := h.moves hget hshown hnone
    rwa [setPhase_eq hget] at hwalk
  generalize hphase : drive.phase = before at hgoes hshows
  cases hgoes with
  | looks => exact hwalks (not_waits rfl) hshows
  | overs hended => exact hover
  | last hcurrent hnext =>
      have hready := Ready.beginNext (hshows hcurrent.symm)
      exact h.goes_on hget hcurrent.symm Model.beginNext_generation hready
        (h.listed.of_prompts Model.beginNext_prompts) (.of_free hready.1 hready.2)
        (fun _ hopen => Model.beginNext_awaits hopen) (not_waits rfl)
  | begins hcurrent hnext =>
      have hready := Ready.beginNext (hshows hcurrent.symm)
      exact h.goes_on hget hcurrent.symm Model.beginNext_generation
        ⟨hready, Model.beginNext_shown hnext⟩
        (h.listed.of_prompts Model.beginNext_prompts) (.of_free hready.1 hready.2)
        (fun _ hopen => Model.beginNext_awaits hopen) (not_waits rfl)
  | beginsUnkept hcurrent hnext hindex hnothing =>
      have hready := Ready.beginNext (hshows hcurrent.symm)
      subst hindex
      exact h.goes_on hget hcurrent.symm Model.beginNext_generation
        ⟨hready.1, hready.2.of_none, Model.beginNext_shown hnext⟩
        (h.listed.of_prompts Model.beginNext_prompts) (.of_free hready.1 hready.2)
        (fun _ hopen => Model.beginNext_awaits hopen)
        (not_waits_of_awaiting (by simp [hnothing]))
  | carries hindex hnothing =>
      subst hindex
      refine hwalks (not_waits_of_awaiting (by simp [hnothing])) fun hcurrent => ?_
      obtain ⟨⟨hrunning, hfree⟩, hshown⟩ := hshows hcurrent
      exact ⟨hrunning, hfree.of_none, hshown⟩
  | unkept => exact hwalks (not_waits rfl) hshows
  | releases hcurrent =>
      obtain ⟨hrunning, hheld, hshown⟩ := hshows hcurrent.symm
      have hfree := Model.release_free hheld
      exact h.goes_on hget hcurrent.symm rfl ⟨⟨hrunning, hfree⟩, hshown⟩ (h.listed.release _)
        (.of_free hrunning hfree) (fun _ => Model.release_awaits) (not_waits rfl)
  | returns hended => exact hwalks (not_waits rfl) fun hcurrent => absurd hcurrent.symm hended
  | passes hcurrent hto =>
      obtain ⟨hready, -⟩ := hshows hcurrent.symm
      rcases hto with rfl | ⟨saver, rfl⟩ <;>
        exact h.goes_on hget hcurrent.symm rfl hready (h.listed.of_prompts rfl)
          (.of_free hready.1 hready.2) (fun _ hopen => hopen) (not_waits rfl)
  | @fails index reason _ hcurrent hto =>
      obtain ⟨⟨hrunning, hfree⟩, hshown⟩ := hshows hcurrent.symm
      have hcoherent : (t.model.fail index reason).Coherent := {
        able := fun hstate => by cases hstate
        blocked := fun prompt hmem other hblocks => by cases hfree prompt hmem other hblocks
        failed := fun _ => Model.fail_failed hshown.lt_length
        rest := fun hrest => by cases hrest }
      rcases hto with rfl | ⟨saver, rfl⟩
      · exact h.goes_on hget hcurrent.symm rfl trivial (h.listed.of_prompts rfl) hcoherent
          (fun _ hopen => hopen) (not_waits rfl)
      · exact h.goes_on hget hcurrent.symm rfl (fun hstate => by cases hstate)
          (h.listed.of_prompts rfl) hcoherent (fun _ hopen => hopen) (not_waits rfl)
  | passed => exact hwalks (not_waits rfl) hshows
  | failed => exact hover
  | finishes hcurrent hto =>
      have hcoherent : t.model.finish.Coherent := {
        able := fun hstate => by cases hstate
        blocked := fun prompt hmem => by cases hmem
        failed := fun hstate => by cases hstate
        rest := fun _ => ⟨rfl, rfl⟩ }
      rcases hto with rfl | rfl <;>
        exact h.goes_on hget hcurrent.symm rfl (fun hstate => by cases hstate)
          (h.listed.of_sublist (List.nil_sublist _)) hcoherent
          (fun channel ⟨prompt, hmem, _⟩ => by cases hmem) (not_waits rfl)
  | forgets hto => rcases hto with rfl | rfl <;> exact hwalks (not_waits rfl) hshows
  | clears => exact hwalks (not_waits rfl) hshows
  | determines => exact hover

/-- What is left of an act is kept to what holds. -/
theorem call (h : Manned s) {index : Nat} {cleared : Bool}
    (hcall : s.call device index cleared = some s') : Manned s' :=
  call_kept (fun _ _ hbeside h => h.beside hbeside) (fun _ task h => h.aborts task)
    (fun _ _ _ _ hget hafter h => h.spawns hget hafter)
    (fun _ _ _ _ hget hafter h => h.calls_set hget hafter) h hcall

/-- An act asked for is kept to what holds. -/
theorem ask (h : Manned s) (asked : Act φ) : Manned (s.ask device asked) := by
  unfold Engine.ask
  split
  · exact h
  · rename_i decided hdecide
    obtain ⟨kind, -, haccepted, hcases⟩ := decide_cases hdecide
    obtain ⟨published, hpublish⟩ := publish_eq { s with
      model := decided.model, delivered := s.delivered ++ decided.sent.toList }
    rw [hpublish]
    rcases hcases with ⟨rfl, -, places, rfl⟩ | ⟨rfl, rfl⟩ |
      ⟨rfl, waiter, value, answered, hanswer, rfl⟩ | ⟨-, rfl⟩
    · have hstate : s.model.state ≠ .running := by
        intro hrunning
        have hrest : s.model.run = .idle ∨ s.model.run = .finished := by
          simpa [Kind.acceptedIn] using haccepted
        simp only [Model.run, hrunning, true_and] at hrest
        split at hrest <;> rcases hrest with hrun | hrun <;> cases hrun
      obtain ⟨hrunning, hgeneration, hprompts⟩ := s.model.beginRun_begun places
      simp only [Option.toList_none, List.append_nil]
      exact h.begins hstate hrunning hgeneration (by rw [hprompts]; exact List.nil_sublist _)
    · have hfailed : s.model.state = .failed := by
        have hrun : s.model.run = .failed := by simpa [Kind.acceptedIn] using haccepted
        rcases s.model.run_cases with hsame | ⟨hwaiting, -⟩
        · exact hsame.symm.trans hrun
        · rw [hrun] at hwaiting
          cases hwaiting
      have hstate : s.model.state ≠ .running := by
        rw [hfailed]
        decide
      obtain ⟨hrunning, hgeneration, hprompts⟩ := Model.retry_begun (h.coherent.failed hfailed)
      simp only [Option.toList_none, List.append_nil]
      exact h.begins hstate hrunning hgeneration (by rw [hprompts])
    · obtain ⟨-, hless, hstate, hgeneration, hsteps⟩ := Model.answer_ok hanswer
      apply h.closes hless hstate hgeneration hsteps
      · intro _ hempty
        obtain ⟨before, prompt, behind, hprompts, -⟩ := Model.answer_spec hanswer
        rw [hempty] at hprompts
        simp at hprompts
      · intro entry hmem
        cases waiter with
        | none => cases hmem
        | some channel =>
            obtain rfl : entry = (channel, value) := by simpa using hmem
            exact h.listed.answered hanswer
    · simp only [Option.toList_none, List.append_nil]
      exact h.ends rfl rfl rfl rfl

/-- What a determination comes to is kept to what holds. -/
theorem settle (h : Manned s) (found : List Done) (quiet : Bool) :
    Manned (s.settle device found quiet) := by
  unfold Engine.settle
  split
  · rename_i hrest
    obtain ⟨published, hpublish⟩ := publish_eq { s with
      model := determined s.model (undone device.steps found), told := some (found, quiet) }
    have hstopped := Model.ne_running_of_atRest hrest
    refine Eq.subst hpublish.symm ?_
    exact {
      one := h.one
      ahead := h.ahead
      begun := h.begun
      shows := fun task drive hget hsame =>
        (h.shows task drive hget hsame).of_stopped hstopped hstopped
      closed := h.closed
      awaited := h.awaited
      unsent := h.unsent
      sent := h.sent
      listed := h.listed.of_prompts rfl
      coherent := {
        able := h.coherent.able
        blocked := fun prompt hmem index hblocks =>
          absurd (h.coherent.blocked prompt hmem index hblocks).1 hstopped
        failed := fun hfailed => by
          have hstate : s.model.state = .failed := hfailed
          simp [Model.atRest, hstate] at hrest
        rest := h.coherent.rest } }
  · exact h

/-- A determination is kept to what holds. -/
theorem determine (h : Manned s) {index : Nat} {read : Option Done}
    (hdetermine : s.determine device index read = some s') : Manned s' := by
  obtain ⟨held, left, t, -, hgoes, rfl⟩ := determine_goes hdetermine
  cases hgoes with
  | looks hidle => exact h.of_eq rfl rfl rfl rfl rfl
  | reads done hless => exact h.of_eq rfl rfl rfl rfl rfl
  | settles hall =>
      rename_i found quiet
      have hsettled : Manned (s.settle device found quiet) := h.settle found quiet
      exact hsettled.of_eq rfl rfl rfl rfl rfl

/-- Whatever goes on, but for a notice under a key already open, is kept to what holds. -/
theorem take (h : Manned s) {move : Move φ} (hfresh : Fresh s move)
    (htake : Engine.take device s move = some s') : Manned s' := by
  obtain ⟨gone, hgo, rfl⟩ := Option.map_eq_some_iff.mp htake
  suffices hgone : Manned gone from hgone.of_eq rfl rfl rfl rfl rfl
  cases move with
  | ask asked =>
      obtain rfl := Option.some.inj hgo
      exact h.ask asked
  | call index cleared => exact h.call hgo
  | drive task cleared => exact h.drive hgo
  | askAhead task question => exact h.askAhead hgo
  | askedAhead task => exact h.askedAhead hgo
  | work task done => exact h.work hfresh hgo
  | resume task => exact h.resume hgo
  | finishWork work =>
      obtain ⟨pooled, -, -, rfl⟩ := finishWork_cases hgo
      exact h.of_eq rfl rfl rfl rfl rfl
  | save saver failed => exact h.beside (save_beside hgo)
  | attach =>
      obtain rfl := Option.some.inj hgo
      exact h.beside (.soon s)
  | determine index read => exact h.determine hgo

end Parts

end Manned

end Bliti.Provision.Engine
