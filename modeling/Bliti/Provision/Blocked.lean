import Bliti.Provision.Model

/-!
# Provisioning - what holds a run up

Which step a model shows running, which steps its open prompts hold up, and which
channels they are waited on by, after each change the engine makes to it.
-/

namespace Bliti.Provision

open Channel.Messages (Answer)
open Channel.Report (PromptKind)

variable {φ Date : Type}

namespace Model

variable {model : Model φ Date}

/-- A step is shown running. -/
def Shown (model : Model φ Date) (index : Nat) : Prop :=
  ∃ entry, model.steps[index]? = some entry ∧ entry.state = .running

/-- Every blocking prompt open holds up the step named, and none is open where none is. -/
def HeldBy (model : Model φ Date) (holder : Option Nat) : Prop :=
  ∀ prompt ∈ model.prompts, ∀ index, prompt.blocks = some index → holder = some index

/-- A step waits on an open prompt by a channel. -/
def Awaits (model : Model φ Date) (channel : Nat) : Prop :=
  ∃ prompt ∈ model.prompts, prompt.waiter = some channel

/-! ## The device's own state -/

/-- With nothing holding the run up the device is not `waiting`. -/
theorem HeldBy.run_eq (hheld : model.HeldBy none) : model.run = model.state := by
  have hnone : model.prompts.any Open.blocking = false := by
    rw [List.any_eq_false]
    intro prompt hmem hblocking
    obtain ⟨index, hblocks⟩ := Option.isSome_iff_exists.mp hblocking
    cases hheld prompt hmem index hblocks
  simp [run, hnone]

/-- The device shows the state of its run, or waits while the run is under way. -/
theorem run_cases (model : Model φ Date) :
    model.run = model.state ∨ (model.run = .waiting ∧ model.state = .running) := by
  rw [run]
  split
  · rename_i hboth
    exact Or.inr ⟨rfl, hboth.1⟩
  · exact Or.inl rfl

/-- A device at rest carries no run out. -/
theorem ne_running_of_atRest (hrest : model.atRest = true) : model.state ≠ .running := by
  intro hrunning
  simp [atRest, hrunning] at hrest

/-! ## Changes to one step -/

section Steps

variable {index : Nat} {change : Entry φ → Entry φ}

/-- A change to one step leaves the rest of the model as it was. -/
@[simp] theorem setStep_state : (model.setStep index change).state = model.state := rfl

/-- A change to one step is part of the same run. -/
@[simp] theorem setStep_generation :
    (model.setStep index change).generation = model.generation := rfl

/-- A change to one step opens and closes no prompt. -/
@[simp] theorem setStep_prompts : (model.setStep index change).prompts = model.prompts := rfl

/-- A step shown running is shown so after a change that keeps its state. -/
theorem Shown.setStep {shown : Nat} (hshown : model.Shown shown)
    (hkeeps : ∀ entry, (change entry).state = entry.state) :
    (model.setStep index change).Shown shown := by
  obtain ⟨entry, hget, hrunning⟩ := hshown
  by_cases hat : index = shown
  · refine ⟨change entry, ?_, by rw [hkeeps, hrunning]⟩
    simp [Model.setStep, hat, hget]
  · exact ⟨entry, by simp [Model.setStep, hat, hget], hrunning⟩

/-- The step begun is the one shown running, and the rest of the model is as it was. -/
theorem beginNext_shown (hnext : model.beginNext.1 = some index) :
    model.beginNext.2.Shown index := by
  unfold beginNext at hnext ⊢
  cases hfound : model.next with
  | none => simp [hfound] at hnext
  | some found =>
      obtain rfl : found = index := by simpa [hfound] using hnext
      rw [next, List.findIdx?_eq_some_iff_getElem] at hfound
      obtain ⟨hlt, -⟩ := hfound
      refine ⟨{ model.steps[found] with
        state := .running, progress := none, reason := none, result := none }, ?_, rfl⟩
      simp [setStep, List.getElem?_eq_getElem hlt]

/-- Beginning a step leaves the state of the run. -/
@[simp] theorem beginNext_state : model.beginNext.2.state = model.state := by
  unfold beginNext
  split <;> rfl

/-- Beginning a step is part of the same run. -/
@[simp] theorem beginNext_generation : model.beginNext.2.generation = model.generation := by
  unfold beginNext
  split <;> rfl

/-- Beginning a step opens and closes no prompt. -/
@[simp] theorem beginNext_prompts : model.beginNext.2.prompts = model.prompts := by
  unfold beginNext
  split <;> rfl

/-- Beginning a step is waited on by no channel. -/
theorem beginNext_awaits {channel : Nat} (hawaits : model.beginNext.2.Awaits channel) :
    model.Awaits channel := by
  rwa [Awaits, beginNext_prompts] at hawaits

/-- A run that failed shows a step that failed. -/
theorem fail_failed {reason : String} (hlt : index < model.steps.length) :
    ∃ entry ∈ (model.fail index reason).steps, entry.state = .failed := by
  refine ⟨{ model.steps[index] with state := .failed, reason := some reason }, ?_, rfl⟩
  apply List.mem_of_getElem? (i := index)
  simp [fail, setStep, List.getElem?_eq_getElem hlt]

/-- A step shown running is one the model has. -/
theorem Shown.lt_length (hshown : model.Shown index) : index < model.steps.length := by
  obtain ⟨entry, hget, -⟩ := hshown
  exact (List.getElem?_eq_some_iff.mp hget).1

end Steps

/-! ## The prompts open -/

section Prompts

/-- What holds the run up is read from the prompts. -/
theorem HeldBy.of_prompts {after : Model φ Date} {holder : Option Nat}
    (hheld : model.HeldBy holder) (hprompts : after.prompts = model.prompts) :
    after.HeldBy holder := by
  rw [HeldBy, hprompts]
  exact hheld

/-- With fewer prompts open nothing else holds the run up. -/
theorem HeldBy.of_sublist {after : Model φ Date} {holder : Option Nat}
    (hheld : model.HeldBy holder) (hless : after.prompts.Sublist model.prompts) :
    after.HeldBy holder := by
  intro prompt hmem
  exact hheld prompt (hless.subset hmem)

/-- Where nothing holds the run up, whatever is said to is right. -/
theorem HeldBy.of_none {holder : Option Nat} (hheld : model.HeldBy none) :
    model.HeldBy holder := by
  intro prompt hmem index hblocks
  cases hheld prompt hmem index hblocks

/-- With fewer prompts open no other channel is waited on. -/
theorem Awaits.of_sublist {after : Model φ Date} {channel : Nat} (hawaits : after.Awaits channel)
    (hless : after.prompts.Sublist model.prompts) : model.Awaits channel := by
  obtain ⟨prompt, hmem, hwaiter⟩ := hawaits
  exact ⟨prompt, hless.subset hmem, hwaiter⟩

/-- The prompts left open when some are closed. -/
theorem close_sublist (id : String) : (model.close id).prompts.Sublist model.prompts :=
  List.filter_sublist

/-- The prompts left open when one is closed without an answer. -/
theorem closeKey_sublist (key : String) : (model.closeKey key).prompts.Sublist model.prompts :=
  List.filter_sublist

/-- Nothing holds the run up once the step that did is released. -/
theorem release_free {step : Nat} (hheld : model.HeldBy (some step)) :
    (model.release step).HeldBy none := by
  intro prompt hmem index hblocks
  simp only [release, List.mem_map, List.mem_filter] at hmem
  obtain ⟨before, ⟨hbefore, -⟩, hafter⟩ := hmem
  split at hafter
  · rw [← hafter] at hblocks
    cases hblocks
  · rename_i hother
    rw [← hafter] at hblocks
    have hsame := hheld before hbefore index hblocks
    exact absurd (hblocks.trans hsame.symm) hother

/-- A step released is waited on by no channel it was not before. -/
theorem release_awaits {step channel : Nat} (hawaits : (model.release step).Awaits channel) :
    model.Awaits channel := by
  obtain ⟨prompt, hmem, hwaiter⟩ := hawaits
  simp only [release, List.mem_map, List.mem_filter] at hmem
  obtain ⟨before, ⟨hbefore, -⟩, hafter⟩ := hmem
  split at hafter
  · rw [← hafter] at hwaiter
    cases hwaiter
  · rw [hafter] at hbefore
    exact ⟨prompt, hbefore, hwaiter⟩

/-- A question asked for later holds nothing up. -/
theorem askLater_held {step : Nat} {question : Question} {holder : Option Nat}
    (hheld : model.HeldBy holder) : (model.askLater step question).HeldBy holder := by
  unfold askLater
  split
  · exact hheld
  · intro prompt hmem index hblocks
    rcases List.mem_append.mp hmem with hold | hnew
    · exact hheld prompt hold index hblocks
    · rw [List.mem_singleton.mp hnew] at hblocks
      cases hblocks

/-- A question asked for later is waited on by no channel. -/
theorem askLater_awaits {step channel : Nat} {question : Question}
    (hawaits : (model.askLater step question).Awaits channel) : model.Awaits channel := by
  unfold askLater at hawaits
  split at hawaits
  · exact hawaits
  · obtain ⟨prompt, hmem, hwaiter⟩ := hawaits
    rcases List.mem_append.mp hmem with hold | hnew
    · exact ⟨prompt, hold, hwaiter⟩
    · rw [List.mem_singleton.mp hnew] at hwaiter
      cases hwaiter

/-- Asking for later leaves the rest of the model as it was. -/
theorem askLater_rest (step : Nat) (question : Question) :
    (model.askLater step question).state = model.state ∧
      (model.askLater step question).generation = model.generation ∧
      (model.askLater step question).steps = model.steps ∧
      (model.askLater step question).checked = model.checked := by
  unfold askLater
  split <;> exact ⟨rfl, rfl, rfl, rfl⟩

/-- What a step waits on holds up that step. -/
theorem notice_held {step : Nat} {key text : String} (hheld : model.HeldBy (some step)) :
    (model.notice step key text).HeldBy (some step) := by
  intro prompt hmem index hblocks
  rcases List.mem_append.mp hmem with hold | hnew
  · exact hheld prompt hold index hblocks
  · rw [List.mem_singleton.mp hnew] at hblocks
    exact hblocks

/-- A notice is answered by no channel. -/
theorem notice_awaits {step channel : Nat} {key text : String}
    (hawaits : (model.notice step key text).Awaits channel) : model.Awaits channel := by
  obtain ⟨prompt, hmem, hwaiter⟩ := hawaits
  rcases List.mem_append.mp hmem with hold | hnew
  · exact ⟨prompt, hold, hwaiter⟩
  · rw [List.mem_singleton.mp hnew] at hwaiter
    cases hwaiter

/-- The prompts after a step needs an answer: as they were, or with one of them or one more
waited on by the step. -/
theorem need_prompts (step : Nat) (key : String) (kind : PromptKind) (text : String)
    (channel : Nat) (prompt : Open)
    (hmem : prompt ∈ (model.need step key kind text channel).2.prompts) :
    prompt ∈ model.prompts ∨ (prompt.blocks = some step ∧ prompt.waiter = some channel) := by
  unfold need at hmem
  split at hmem
  · exact Or.inl hmem
  · split at hmem
    · obtain ⟨i, hget⟩ := List.mem_iff_getElem?.mp hmem
      simp only [List.getElem?_modify] at hget
      cases hi : model.prompts[i]? with
      | none => simp [hi] at hget
      | some before =>
          rw [hi] at hget
          obtain rfl := Option.some.inj hget
          split
          · exact Or.inr ⟨rfl, rfl⟩
          · exact Or.inl (List.mem_of_getElem? hi)
    · rcases List.mem_append.mp hmem with hold | hnew
      · exact Or.inl hold
      · rw [List.mem_singleton.mp hnew]
        exact Or.inr ⟨rfl, rfl⟩

/-- Needing an answer leaves the rest of the model as it was. -/
theorem need_rest (step : Nat) (key : String) (kind : PromptKind) (text : String)
    (channel : Nat) :
    (model.need step key kind text channel).2.state = model.state ∧
      (model.need step key kind text channel).2.generation = model.generation ∧
      (model.need step key kind text channel).2.steps = model.steps ∧
      (model.need step key kind text channel).2.checked = model.checked := by
  unfold need
  split
  · exact ⟨rfl, rfl, rfl, rfl⟩
  · split <;> exact ⟨rfl, rfl, rfl, rfl⟩

/-- A step that needs an answer is given one held, or waits by the channel that is its own. -/
theorem need_wait {step : Nat} {key : String} {kind : PromptKind} {text : String}
    {channel waits : Nat}
    (hneed : (model.need step key kind text channel).1 = .wait waits) : waits = channel := by
  unfold need at hneed
  split at hneed
  · cases hneed
  · split at hneed <;> exact (Need.wait.inj hneed).symm

/-- What a step waits on for its answer holds up that step. -/
theorem need_held {step : Nat} {key : String} {kind : PromptKind} {text : String} {channel : Nat}
    (hheld : model.HeldBy (some step)) :
    (model.need step key kind text channel).2.HeldBy (some step) := by
  intro prompt hmem index hblocks
  rcases need_prompts step key kind text channel prompt hmem with hold | ⟨hown, -⟩
  · exact hheld prompt hold index hblocks
  · rw [← hown, hblocks]

/-- A step that needs an answer waits by no channel but its own. -/
theorem need_awaits {step : Nat} {key : String} {kind : PromptKind} {text : String}
    {channel waits : Nat}
    (hawaits : (model.need step key kind text channel).2.Awaits waits) :
    model.Awaits waits ∨ waits = channel := by
  obtain ⟨prompt, hmem, hwaiter⟩ := hawaits
  rcases need_prompts step key kind text channel prompt hmem with hold | ⟨-, hown⟩
  · exact Or.inl ⟨prompt, hold, hwaiter⟩
  · exact Or.inr (Option.some.inj (hwaiter.symm.trans hown))

end Prompts

/-! ## The acts -/

section Acts

/-- An answer closes the prompt it answers, is sent by the channel waited on there, and leaves the
rest of the model as it was. -/
theorem answer_ok {id : Option String} {value : Option (Answer φ)} {waiter : Option Nat}
    {given : Answer φ} {after : Model φ Date}
    (hanswer : model.answer id value = .ok (waiter, given, after)) :
    (∀ channel, waiter = some channel → model.Awaits channel) ∧
      after.prompts.Sublist model.prompts ∧ after.state = model.state ∧
      after.generation = model.generation ∧ after.steps = model.steps := by
  simp only [answer] at hanswer
  split at hanswer
  · cases hanswer
  · rename_i index prompt hfound
    split at hanswer
    · cases hanswer
    · split at hanswer
      · cases hanswer
      · split at hanswer
        · cases hanswer
        · simp only [Except.ok.injEq, Prod.mk.injEq] at hanswer
          obtain ⟨hwaiter, -, rfl⟩ := hanswer
          refine ⟨?_, List.eraseIdx_sublist _ _, rfl, rfl, rfl⟩
          intro channel hchannel
          obtain ⟨position, -, hat⟩ := Option.bind_eq_some_iff.mp hfound
          obtain ⟨opened, hget, hpair⟩ := Option.map_eq_some_iff.mp hat
          obtain ⟨rfl, rfl⟩ := Prod.mk.inj hpair
          exact ⟨opened, List.mem_of_getElem? hget, hwaiter.trans hchannel⟩

/-- A run begun is under way, the next of its device, with no prompt open. -/
theorem beginRun_begun (model : Model φ Date) (chosen : List Nat) :
    (model.beginRun chosen).state = .running ∧
      (model.beginRun chosen).generation = model.generation + 1 ∧
      (model.beginRun chosen).prompts = [] := by
  have hkeeps : ∀ (places : List Nat) (start : Model φ Date),
      let marked := places.foldl (fun model index => model.setStep index fun entry =>
        { entry with state := .pending }) start
      marked.generation = start.generation ∧ marked.prompts = start.prompts := by
    intro places
    induction places with
    | nil => exact fun start => ⟨rfl, rfl⟩
    | cons place rest ih =>
        intro start
        exact ih (start.setStep place fun entry => { entry with state := .pending })
  obtain ⟨hgeneration, hprompts⟩ := hkeeps chosen model.clearRun
  exact ⟨rfl, congrArg (· + 1) hgeneration, hprompts⟩

/-- A run taken up again where a step failed is under way, the next of its device, with the
prompts that were open. -/
theorem retry_begun (hfailed : ∃ entry ∈ model.steps, entry.state = .failed) :
    model.retry.state = .running ∧ model.retry.generation = model.generation + 1 ∧
      model.retry.prompts = model.prompts := by
  have hkeeps : ∀ (keys : List String) (start : Model φ Date),
      let forgotten := keys.foldl forget start
      forgotten.generation = start.generation ∧ forgotten.prompts = start.prompts := by
    intro keys
    induction keys with
    | nil => exact fun start => ⟨rfl, rfl⟩
    | cons key rest ih => exact fun start => ih (start.forget key)
  unfold retry
  cases hfound : model.steps.findIdx? fun entry => entry.state = .failed with
  | none =>
      rw [List.findIdx?_eq_none_iff] at hfound
      obtain ⟨entry, hmem, hstate⟩ := hfailed
      simpa [hstate] using hfound entry hmem
  | some index =>
      obtain ⟨hgeneration, hprompts⟩ := hkeeps
        ((model.askedBy.filter fun entry => entry.2 = index).map Prod.fst)
        (model.setStep index fun entry => { entry with state := .pending, reason := none })
      exact ⟨rfl, congrArg (· + 1) hgeneration, hprompts⟩

end Acts

end Model

end Bliti.Provision
