import Bliti.Provision.Engine.Apart
import Bliti.Provision.Engine.Manned

/-!
# Provisioning - prompts asked once and answered once

Where no step asks for a notice under a key a prompt is open under, no two open prompts
share an id.  An answer then goes to the one prompt it names, closes it, and is handed to
the step that waits on it and to no other.

Main results:

- Theorem `prompted_iff_fresh`: prompts are asked and answered once in every run whose notices are
  asked for under keys not open, and no further.
-/

namespace Bliti.Provision.Engine

open Channel.Messages (Answer)

variable {φ Date L : Type} {s s' : Engine φ Date L} {device : Device φ Date L}

/-! ## The start -/

section Start

/-- Several changes that each leave the answers alone leave them alone. -/
theorem foldl_answers {α : Type} {change : Model φ Date → α → Model φ Date}
    (hkeeps : ∀ model a, (change model a).answers = model.answers) (l : List α)
    (model : Model φ Date) : (l.foldl change model).answers = model.answers := by
  induction l generalizing model with
  | nil => rfl
  | cons a rest ih => exact (ih (change model a)).trans (hkeeps model a)

/-- No answer is held of a run that was kept. -/
theorem adopt_answers {model : Model φ Date} (hnone : model.answers = []) (stored : Stored) :
    (adopt model stored).2.answers = [] := by
  unfold adopt
  split
  · rename_i chosen passed _ _
    have hmark : ∀ (model : Model φ Date) (index : Nat),
        (model.setStep index fun entry => { entry with state := .pending }).answers =
          model.answers := fun _ _ => rfl
    have hpass : ∀ (model : Model φ Date) (index : Nat),
        (model.pass index).answers = model.answers := fun _ _ => rfl
    have hbegun : (passed.foldl Model.pass (model.beginRun chosen)).answers = [] :=
      (foldl_answers hpass passed _).trans (foldl_answers hmark chosen model.clearRun)
    simp only
    split
    · exact hnone
    · split
      · split
        · exact hbegun
        · rfl
      · exact hbegun
  · exact hnone

/-- What is in good order, with no prompt open and nothing sent, is so of its prompts. -/
theorem Manned.of_orderly (h : Orderly s) (hprompts : s.model.prompts = [])
    (hdelivered : s.delivered = []) (hable : s.model.state ≠ .waiting)
    (hanswers : s.model.atRest = true → s.model.answers = []) : Manned s where
  one := h.one
  ahead := h.ahead
  begun := h.begun
  shows := h.shows
  closed := fun task drive hget hended => (h.stuck task drive hget hended).2
  awaited := h.awaited
  unsent := by
    intro channel _
    rw [hdelivered]
    rfl
  sent := by
    intro entry hmem
    rw [hdelivered] at hmem
    cases hmem
  listed := by
    refine ⟨?_, ?_, ?_, ?_⟩
    · rw [hprompts]
      exact fun _ hmem => by cases hmem
    · rw [hprompts]
      exact List.nodup_nil
    · rw [hprompts]
      exact List.nodup_nil
    · rw [hprompts]
      exact fun _ hmem => by cases hmem
  coherent := {
    able := hable
    blocked := by
      rw [hprompts]
      exact fun _ hmem => by cases hmem
    failed := h.failed
    rest := fun hrest => ⟨hprompts, hanswers hrest⟩ }

variable [BEq φ] [BEq Date]

/-- A provisioner starts with no prompt open, whatever the medium holds. -/
theorem Manned.start (device : Device φ Date L) (medium loaded : Option Stored)
    (cleared : Bool) : Manned (Engine.start device medium loaded cleared) := by
  have horderly := Orderly.start device medium loaded cleared
  unfold Engine.start at horderly ⊢
  cases loaded with
  | none => exact .of_orderly horderly rfl rfl (fun hstate => by cases hstate) (fun _ => rfl)
  | some stored =>
      have hcases : (adopt (initial device) stored).2.prompts = [] ∧ _ ∧ _ := adopt_cases rfl rfl
      have hanswers : (adopt (initial device) stored).2.answers = [] := adopt_answers rfl stored
      cases hadopt : adopt (initial device) stored with
      | mk adopted model =>
          rw [hadopt] at hcases hanswers
          obtain ⟨hempty, hheld, hcleared⟩ := hcases
          have hable : model.state ≠ .waiting := by
            intro hwaiting
            cases adopted with
            | true =>
                rcases hheld rfl with hrunning | ⟨hfailed, -⟩
                · cases hrunning.symm.trans hwaiting
                · cases hfailed.symm.trans hwaiting
            | false => cases (hcleared rfl).symm.trans hwaiting
          obtain ⟨published, hpublish⟩ := publish_eq
            (fresh model (initial device).snapshot medium ([] : List (Drive φ L)))
          unfold fresh at hpublish
          simp only [hadopt, hpublish] at horderly ⊢
          split at horderly
          · rename_i hadopted
            rw [if_pos hadopted]
            split at horderly
            · rename_i hfailed
              rw [if_pos hfailed]
              exact .of_orderly horderly hempty rfl hable (fun _ => hanswers)
            · rename_i hnot
              rw [if_neg hnot]
              exact .of_orderly horderly hempty rfl hable (fun _ => hanswers)
          · rename_i hnot
            rw [if_neg hnot]
            exact .of_orderly horderly hempty rfl hable (fun _ => hanswers)

end Start

/-! ## Who an answer is handed to -/

/-- A task waits on an open prompt for its answer. -/
def WaitsOn (s : Engine φ Date L) (prompt : Open) (task : Nat) : Prop :=
  ∃ (drive : Drive φ L) (channel : Nat), s.drives[task]? = some drive ∧
    prompt.waiter = some channel ∧ Waits channel drive.phase

/-- What a task has of what it waits on. -/
def has (s : Engine φ Date L) (task : Nat) : Option (Work φ) :=
  ((s.drives[task]?).bind fun drive => carryOf drive.phase).bind fun carry => s.given carry.awaiting

/-- An answer to a prompt is handed to the task that waits on it, of which there is at most one, of
the run under way and of the step the prompt holds up, and to no other. -/
structure Handed (s s' : Engine φ Date L) (prompt : Open) (value : Answer φ) : Prop where
  one : ∀ task task', WaitsOn s prompt task → WaitsOn s prompt task' → task = task'
  step : ∀ task, WaitsOn s prompt task → ∃ (drive : Drive φ L) (carry : Carry φ L),
    s.drives[task]? = some drive ∧ drive.generation = s.model.generation ∧
      drive.phase = .carrying carry ∧ prompt.blocks = some carry.index
  handed : ∀ task, WaitsOn s prompt task →
    s.has task = none ∧ s'.has task = some (.given value)
  others : ∀ task, ¬ WaitsOn s prompt task → s'.has task = s.has task

section Handing

variable {prompt : Open} {task : Nat}

/-- A task that waits on an open prompt is of the run under way. -/
theorem Manned.current (h : Manned s) (hmem : prompt ∈ s.model.prompts)
    {drive : Drive φ L} {channel : Nat} (hget : s.drives[task]? = some drive)
    (hwaiter : prompt.waiter = some channel) (hwaits : Waits channel drive.phase) :
    drive.generation = s.model.generation := by
  by_contra hended
  exact h.closed task drive hget hended channel hwaits ⟨prompt, hmem, hwaiter⟩

/-- What a task that carries a step out has is what the step has. -/
theorem has_carrying {drive : Drive φ L} {carry : Carry φ L} (hget : s.drives[task]? = some drive)
    (hphase : drive.phase = .carrying carry) : s.has task = s.given carry.awaiting := by
  simp [has, hget, hphase, carryOf]

/-- An answer sent by the channel an open prompt is waited on by is handed to the task that waits
on it. -/
theorem Manned.hands (h : Manned s) (hmem : prompt ∈ s.model.prompts) (value : Answer φ)
    (hdrives : s'.drives = s.drives)
    (hdelivered : s'.delivered = s.delivered ++
      (prompt.waiter.map fun channel => (channel, value)).toList) :
    Handed s s' prompt value where
  one := by
    rintro task task' ⟨drive, channel, hget, hwaiter, hwaits⟩
      ⟨drive', channel', hget', hwaiter', hwaits'⟩
    exact only_of_one h.one hget' (h.current hmem hget' hwaiter' hwaits') hget
      (h.current hmem hget hwaiter hwaits)
  step := by
    rintro task ⟨drive, channel, hget, hwaiter, hwaits⟩
    have hcurrent := h.current hmem hget hwaiter hwaits
    obtain ⟨carry, hphase, -⟩ := hwaits
    have hshows := h.shows task drive hget hcurrent
    rw [hphase] at hshows
    obtain ⟨index, hblocks⟩ :=
      Option.isSome_iff_exists.mp (h.listed.waited prompt hmem channel hwaiter).1
    exact ⟨drive, carry, hget, hcurrent, hphase,
      hblocks.trans (hshows.2.1 prompt hmem index hblocks).symm⟩
  handed := by
    rintro task ⟨drive, channel, hget, hwaiter, carry, hphase, hawaiting⟩
    have hunsent := h.unsent channel ⟨prompt, hmem, hwaiter⟩
    have hsent : s'.delivered.lookup channel = some value := by
      rw [hdelivered, hwaiter, List.lookup_append, hunsent]
      simp
    have hget' : s'.drives[task]? = some drive := by rw [hdrives, hget]
    rw [has_carrying hget hphase, has_carrying hget' hphase, hawaiting]
    exact ⟨by simp [Engine.given, hunsent], by simp [Engine.given, hsent]⟩
  others := by
    intro task hnot
    unfold has
    rw [hdrives]
    cases hget : s.drives[task]? with
    | none => rfl
    | some drive =>
        cases hphase : drive.phase with
        | carrying carry =>
            simp only [Option.bind_some, hphase, carryOf]
            cases hawaiting : carry.awaiting with
            | answer need =>
                cases need with
                | held answer => rfl
                | wait channel =>
                    have hother : prompt.waiter ≠ some channel := by
                      intro hwaiter
                      exact hnot ⟨drive, channel, hget, hwaiter, carry, hphase, hawaiting⟩
                    simp only [Engine.given, hdelivered, List.lookup_append]
                    cases hwaiter : prompt.waiter with
                    | none => simp
                    | some sent =>
                        have hne : channel ≠ sent := by
                          rintro rfl
                          exact hother hwaiter
                        have hbeq : (channel == sent) = false := by simpa using hne
                        simp [List.lookup_cons, hbeq]
            | nothing => rfl
            | text text => rfl
            | never => rfl
            | pool work => rfl
        | _ => simp [hphase, carryOf]

end Handing

/-! ## Asked once and answered once -/

/-- What an answer accepted comes to is what the model makes of it. -/
theorem decide_answer {kept : Bool} {model : Model φ Date} {asked : Act φ}
    (hkind : Kind.read asked.act = some .answer) (haccepted : Kind.answer.acceptedIn model.run = true)
    {waiter : Option Nat} {value : Answer φ} {answered : Model φ Date}
    (hanswer : model.answer asked.prompt asked.value = .ok (waiter, value, answered)) :
    decide kept model asked = .ok {
      model := answered
      sent := waiter.map fun channel => (channel, value)
      next := .nothing } := by
  unfold decide
  rw [hkind]
  simp only [haccepted, if_true, hanswer]

/-- A device that is not at rest accepts answers. -/
theorem accepts_answer {model : Model φ Date} (hrest : model.atRest = false) :
    Kind.answer.acceptedIn model.run = true := by
  rcases model.run_cases with hsame | ⟨hwaiting, -⟩
  · rw [hsame]
    unfold Model.atRest at hrest
    cases hstate : model.state <;> simp_all [Kind.acceptedIn]
  · rw [hwaiting]
    rfl

/-- A step released closes only prompts it both asked and waited on. -/
theorem released_of_closed (model : Model φ Date) (step : Nat) {prompt : Open}
    (hmem : prompt ∈ model.prompts)
    (hclosed : prompt.id ∉ (model.release step).prompts.map Open.id) :
    prompt.blocks = some step ∧ prompt.step = step := by
  rw [Model.release_ids] at hclosed
  by_contra hnot
  apply hclosed
  refine List.mem_map.mpr ⟨prompt, List.mem_filter.mpr ⟨hmem, ?_⟩, rfl⟩
  rw [Bool.not_eq_true', Bool.and_eq_false_iff, decide_eq_false_iff_not, decide_eq_false_iff_not]
  exact Classical.not_and_iff_not_or_not.mp hnot

section Asked

variable [BEq φ] [BEq Date]

/-- Prompts are asked once and answered once: no two open share an id; an answer is accepted exactly
of an open prompt that takes it, which then closes alone and is handed to the step that waits on it,
and one refused changes nothing; a step released is held up by no prompt and closes only those it
both asked and waited on; the device is `waiting` exactly when its running step has a prompt that
holds it up; and a stop and a finish leave no prompt and no answer, nor has a device at rest any. -/
structure Prompted (device : Device φ Date L) (s : Engine φ Date L) : Prop where
  once : (s.model.prompts.map Open.id).Nodup
  accepted : ∀ asked : Act φ, Kind.read asked.act = some .answer →
    ((∃ decided, decide device.kept s.model asked = .ok decided) ↔
      ∃ prompt ∈ s.model.prompts, asked.prompt = some prompt.id ∧
        ∃ value, asked.value = some value ∧ Model.Accepts prompt value)
  answered : ∀ (asked : Act φ) (decided : Decided φ Date), Kind.read asked.act = some .answer →
    decide device.kept s.model asked = .ok decided →
      ∃ before prompt behind value, asked.prompt = some prompt.id ∧ asked.value = some value ∧
        s.model.prompts = before ++ prompt :: behind ∧
        (s.ask device asked).model.prompts = before ++ behind ∧
        Handed s (s.ask device asked) prompt value
  refused : ∀ (asked : Act φ) (refusal : CannotAct),
    decide device.kept s.model asked = .error refusal → s.ask device asked = s
  released : ∀ step, (∀ prompt ∈ (s.model.release step).prompts, prompt.blocks ≠ some step) ∧
    ∀ prompt ∈ s.model.prompts, prompt.id ∉ (s.model.release step).prompts.map Open.id →
      prompt.blocks = some step ∧ prompt.step = step
  waiting : s.model.run = .waiting ↔
    ∃ index, s.model.Shown index ∧ ∃ prompt ∈ s.model.prompts, prompt.blocks = some index
  stopped : ∀ (asked : Act φ) (decided : Decided φ Date), Kind.read asked.act = some .stop →
    decide device.kept s.model asked = .ok decided →
      (s.ask device asked).model.prompts = [] ∧ (s.ask device asked).model.answers = []
  finished : s.model.finish.prompts = [] ∧ s.model.finish.answers = []
  rest : s.model.atRest = true → s.model.prompts = [] ∧ s.model.answers = []

/-- An act accepted makes of the model what it was decided to, sends what it was decided to, and
moves no task on. -/
theorem ask_ok {asked : Act φ} {decided : Decided φ Date}
    (hdecide : decide device.kept s.model asked = .ok decided) :
    (s.ask device asked).model = decided.model ∧ (s.ask device asked).drives = s.drives ∧
      (s.ask device asked).delivered = s.delivered ++ decided.sent.toList := by
  obtain ⟨published, hpublish⟩ := publish_eq { s with
    model := decided.model, delivered := s.delivered ++ decided.sent.toList }
  unfold Engine.ask
  rw [hdecide]
  simp only [hpublish]
  split <;> exact ⟨rfl, rfl, rfl⟩

/-- What holds of the prompts between two stretches comes to their being asked once and answered
once. -/
theorem Manned.prompted (h : Manned s) : Prompted device s where
  once := h.listed.ids
  accepted := by
    intro asked hkind
    constructor
    · rintro ⟨decided, hdecide⟩
      obtain ⟨kind, hread, -, hcases⟩ := decide_cases hdecide
      obtain rfl := Option.some.inj (hkind.symm.trans hread)
      rcases hcases with ⟨hother, -⟩ | ⟨hother, -⟩ | ⟨-, waiter, value, answered, hanswer, -⟩ |
        ⟨hother, -⟩
      · cases hother
      · cases hother
      · exact (Model.answer_iff h.listed.ids asked.prompt asked.value).mp ⟨_, hanswer⟩
      · rcases hother with hother | hother <;> cases hother
    · rintro ⟨prompt, hmem, hid, hvalue⟩
      have hbusy : s.model.atRest = false := by
        by_contra hrest
        rw [(h.coherent.rest (by simpa using hrest)).1] at hmem
        cases hmem
      obtain ⟨⟨waiter, value, answered⟩, hanswer⟩ :=
        (Model.answer_iff h.listed.ids asked.prompt asked.value).mpr ⟨prompt, hmem, hid, hvalue⟩
      exact ⟨_, decide_answer hkind (accepts_answer hbusy) hanswer⟩
  answered := by
    intro asked decided hkind hdecide
    obtain ⟨kind, hread, -, hcases⟩ := decide_cases hdecide
    obtain rfl := Option.some.inj (hkind.symm.trans hread)
    rcases hcases with ⟨hother, -⟩ | ⟨hother, -⟩ |
      ⟨-, waiter, value, answered, hanswer, rfl⟩ | ⟨hother, -⟩
    · cases hother
    · cases hother
    · obtain ⟨before, prompt, behind, hprompts, hid, hvalue, -, rfl, rfl⟩ :=
        Model.answer_spec hanswer
      obtain ⟨hmodel, hdrives, hdelivered⟩ := ask_ok hdecide
      exact ⟨before, prompt, behind, value, hid, hvalue, hprompts, by rw [hmodel],
        h.hands (by rw [hprompts]; simp) value hdrives hdelivered⟩
    · rcases hother with hother | hother <;> cases hother
  refused := by
    intro asked refusal hdecide
    unfold Engine.ask
    rw [hdecide]
  released := fun step =>
    ⟨s.model.release_not_blocked step, fun _ hmem => released_of_closed s.model step hmem⟩
  waiting := h.coherent.waiting_iff
  stopped := by
    intro asked decided hkind hdecide
    obtain ⟨kind, hread, -, hcases⟩ := decide_cases hdecide
    obtain rfl := Option.some.inj (hkind.symm.trans hread)
    rcases hcases with ⟨hother, -⟩ | ⟨hother, -⟩ | ⟨hother, -⟩ | ⟨-, rfl⟩
    · cases hother
    · cases hother
    · cases hother
    · rw [(ask_ok hdecide).1]
      exact ⟨rfl, rfl⟩
  finished := ⟨rfl, rfl⟩
  rest := h.coherent.rest

/-- A step that asks something of the run is being carried out, and awaits nothing. -/
theorem work_ask {task : Nat} {asked : Ask φ} (hwork : s.work device task (.ask asked) = some s') :
    ∃ (drive : Drive φ L) (carry : Carry φ L) (body : L), s.drives[task]? = some drive ∧
      s'.model = (s.asks drive.generation { carry with body := body } asked).1.model := by
  obtain ⟨drive, carry, body, hget, -, -, hworks⟩ := work_goes hwork
  refine ⟨drive, carry, body, hget, ?_⟩
  cases hworks with
  | asks asked hnothing => rfl

/-- A notice under a key already open leaves two open prompts of one id. -/
theorem Manned.not_once (h : Manned s) {move : Move φ} (hstale : ¬ Fresh s move)
    (htake : Engine.take device s move = some s') : ¬ (s'.model.prompts.map Open.id).Nodup := by
  obtain ⟨gone, hgo, rfl⟩ := Option.map_eq_some_iff.mp htake
  unfold Fresh at hstale
  split at hstale
  · rename_i task key text
    simp only [not_forall, not_not] at hstale
    obtain ⟨drive, hget, hcurrent, prompt, hmem, hkey⟩ := hstale
    obtain ⟨drive', carry, body, hget', hmodel⟩ := work_ask hgo
    rw [hget] at hget'
    obtain rfl := Option.some.inj hget'
    obtain ⟨published, hpublish⟩ := publish_eq
      { s with model := s.model.notice carry.index key text }
    have hnoticed : gone.model = s.model.notice carry.index key text := by
      rw [hmodel]
      simp only [Engine.asks, mutate, if_pos hcurrent.symm, hpublish]
    have hopened : gone.observe.model.prompts.map Open.id =
        s.model.prompts.map Open.id ++ [key] := by
      have hsame : gone.observe.model = gone.model := rfl
      rw [hsame, hnoticed]
      simp [Model.notice, Model.opened, Question.new]
    have hnamed : key ∈ s.model.prompts.map Open.id :=
      List.mem_map.mpr ⟨prompt, hmem, (h.listed.named prompt hmem).trans hkey⟩
    rw [hopened, List.nodup_append]
    rintro ⟨-, -, hapart⟩
    exact hapart key hnamed key (List.mem_singleton_self key) rfl
  · exact absurd trivial hstale

/-- Prompts are asked once and answered once in every run whose notices are asked for under keys not
open, and no longer once one is asked for under a key that is. -/
theorem prompted_iff_fresh (hreach : ((system device).guarded Fresh).Reachable s) :
    Prompted device s ∧ ∀ move s', Engine.take device s move = some s' →
      (Prompted device s' ↔ Fresh s move) := by
  have hmanned : Manned s := by
    apply hreach.invariant
    · rintro _ ⟨medium, loaded, cleared, -, rfl⟩
      exact Manned.start device medium loaded cleared
    · rintro _ move _ - hmanned ⟨hfresh, htake⟩
      exact hmanned.take hfresh htake
  refine ⟨hmanned.prompted, fun move s' htake => ⟨fun hprompted => ?_, fun hfresh => ?_⟩⟩
  · by_contra hstale
    exact hmanned.not_once hstale htake hprompted.once
  · exact (hmanned.take hfresh htake).prompted

/-- However acts, aborts and steps interleave, while notices are asked for under keys not open, no
two tasks carry out one run and none carries out a run to come; a step being carried out in the run
under way is shown, and alone may hold the run up; and the tasks of earlier runs wait on no prompt. -/
theorem one_task (hreach : ((system device).guarded Fresh).Reachable s) {task : Nat}
    {drive : Drive φ L} (hget : s.drives[task]? = some drive) :
    (∀ (other : Nat) (drive' : Drive φ L), s.drives[other]? = some drive' →
      drive'.generation = drive.generation → other = task) ∧
    drive.generation ≤ s.model.generation ∧
    (drive.generation = s.model.generation → ∀ carry, drive.phase = .carrying carry →
      s.model.state = .running ∧ s.model.HeldBy (some carry.index) ∧ s.model.Shown carry.index) ∧
    (drive.generation ≠ s.model.generation → ∀ channel, Waits channel drive.phase →
      ¬ s.model.Awaits channel) := by
  have hmanned : Manned s := by
    apply hreach.invariant
    · rintro _ ⟨medium, loaded, cleared, -, rfl⟩
      exact Manned.start device medium loaded cleared
    · rintro _ move _ - hmanned ⟨hfresh, htake⟩
      exact hmanned.take hfresh htake
  refine ⟨fun other drive' hother hsame => ?_, ?_, fun hcurrent carry hphase => ?_,
    fun hended => hmanned.closed task drive hget hended⟩
  · have hone := hmanned.one drive.generation
    unfold tasks at hone
    apply Roster.eq_of_countP_le_one (Nat.le_trans (Nat.le_add_right _ _) hone) hother _ hget
    · simp
    · simpa using hsame
  · by_contra hlt
    have hnone := hmanned.ahead drive.generation (Nat.not_le.mp hlt)
    have hpos := Roster.countP_pos_of_getElem?
      (p := fun other : Drive φ L => other.generation = drive.generation) hget (by simp)
    unfold tasks at hnone
    omega
  · have hshows := hmanned.shows task drive hget hcurrent
    rw [hphase] at hshows
    exact hshows

end Asked

/-! ## A run that asks for a name -/

section Naming

/-- A step that waits for a name, or that asks for one ahead and then shows a notice. -/
def namingStep : Step Nat Nat where
  id := "name"
  title := "Name the board"
  changesBoard := false
  asksAfter := none
  undoneBy := []
  undoing := ""
  start := 0
  next at_ done :=
    match at_, done with
    | 0, .ask (.need _ _ _) => some 1
    | 0, .ask (.askLater _) => some 2
    | 2, .ask (.notice _ _) => some 3
    | _, _ => none

/-- A device with the one step. -/
def namingDevice : Device Nat Nat Nat where
  steps := [namingStep]
  built := 0
  kept := true

/-- The stretches from a start of the step to the step carried out. -/
def naming : List (Move Nat) :=
  [.ask { act := "start", steps := some ["name"], prompt := none, value := none },
    .call 0 true, .call 0 true, .drive 0 true, .drive 0 true, .save 0 none, .save 0 none,
    .drive 0 true]

/-- A step that waits for a name holds the device up by the one prompt open. -/
theorem prompted_iff_fresh_naming :
    ∃ s : Engine Nat Nat Nat, s.model.run = .waiting ∧
      s.model.prompts.map Open.id = ["name"] ∧ Prompted namingDevice s ∧
      ∀ move s', Engine.take namingDevice s move = some s' →
        (Prompted namingDevice s' ↔ Fresh s move) := by
  have hrun : ((Transition.System.run (Engine.take namingDevice)
      (Engine.start namingDevice none none true)
      (naming ++ [.work 0 (.ask (.need "name" .text "Name the board."))])).map fun s =>
        (s.model.run, s.model.prompts.map Open.id)) = some (.waiting, ["name"]) := by
    decide
  obtain ⟨s, hs, hshown⟩ := Option.map_eq_some_iff.mp hrun
  obtain ⟨hwaiting, hids⟩ := Prod.mk.inj hshown
  have hinit : ((system namingDevice).guarded Fresh).Reachable
      (Engine.start namingDevice none none true) :=
    .start ⟨none, none, true, Or.inl rfl, rfl⟩
  have hreach : ((system namingDevice).guarded Fresh).Reachable s := by
    apply hinit.of_run _ hs
    intro move hmem before after htake
    refine ⟨?_, htake⟩
    simp only [naming, List.cons_append, List.nil_append, List.mem_cons, List.not_mem_nil,
      or_false] at hmem
    rcases hmem with rfl | rfl | rfl | rfl | rfl | rfl | rfl | rfl | rfl <;> trivial
  obtain ⟨hprompted, hnext⟩ := prompted_iff_fresh hreach
  exact ⟨s, hwaiting, hids, hprompted, hnext⟩

/-- The task that carries the step out is the one of its run. -/
theorem one_task_naming : ∃ (s : Engine Nat Nat Nat) (drive : Drive Nat Nat),
    s.drives[0]? = some drive ∧ ∀ (other : Nat) (drive' : Drive Nat Nat),
      s.drives[other]? = some drive' → drive'.generation = drive.generation → other = 0 := by
  have hrun : ((Transition.System.run (Engine.take namingDevice)
      (Engine.start namingDevice none none true) naming).bind fun s => s.drives[0]?).isSome := by
    decide
  obtain ⟨drive, hdrive⟩ := Option.isSome_iff_exists.mp hrun
  obtain ⟨s, hs, hget⟩ := Option.bind_eq_some_iff.mp hdrive
  have hinit : ((system namingDevice).guarded Fresh).Reachable
      (Engine.start namingDevice none none true) :=
    .start ⟨none, none, true, Or.inl rfl, rfl⟩
  have hreach : ((system namingDevice).guarded Fresh).Reachable s := by
    apply hinit.of_run _ hs
    intro move hmem before after htake
    refine ⟨?_, htake⟩
    simp only [naming, List.mem_cons, List.not_mem_nil, or_false] at hmem
    rcases hmem with rfl | rfl | rfl | rfl | rfl | rfl | rfl | rfl <;> trivial
  exact ⟨s, drive, hget, (one_task hreach hget).1⟩

/-- A notice under the key of a prompt asked for ahead leaves two open prompts of one id. -/
theorem not_prompted_noticed :
    ∃ s : Engine Nat Nat Nat, (system namingDevice).Reachable s ∧
      s.model.prompts.map Open.id = ["name", "name"] ∧ ¬ Prompted namingDevice s := by
  have hrun : ((Transition.System.run (Engine.take namingDevice)
      (Engine.start namingDevice none none true)
      (naming ++ [.work 0 (.ask (.askLater (Question.new "name" .text "Name the board."))),
        .work 0 (.ask (.notice "name" "Read the name off the board."))])).map fun s =>
        s.model.prompts.map Open.id) = some ["name", "name"] := by
    decide
  obtain ⟨s, hs, hids⟩ := Option.map_eq_some_iff.mp hrun
  have hinit : (system namingDevice).Reachable (Engine.start namingDevice none none true) :=
    .start ⟨none, none, true, Or.inl rfl, rfl⟩
  refine ⟨s, hinit.of_run (fun _ _ _ _ htake => htake) hs, hids, fun hprompted => ?_⟩
  have honce := hprompted.once
  rw [hids] at honce
  revert honce
  decide

end Naming

end Bliti.Provision.Engine
