import Bliti.Provision.Blocked
import Mathlib.Data.List.Nodup

/-!
# Provisioning - prompts by their ids

A prompt is named by the key it is asked under.  A step that needs an answer, or asks
for one ahead, looks for a prompt open under that key before it opens one; a notice is
opened without looking.
-/

namespace Bliti.Provision

open Channel.Messages (Answer)
open Channel.Report (PromptKind)

variable {φ Date : Type}

namespace Model

variable {model : Model φ Date}

/-! ## Prompts that differ -/

/-- The open prompts are named by their keys, which differ, as do the channels they are waited on
by.  Only a prompt that holds a step up is waited on, by a channel already given out. -/
structure Listed (model : Model φ Date) (channels : Nat) : Prop where
  named : ∀ prompt ∈ model.prompts, prompt.id = prompt.key
  keys : (model.prompts.map Open.key).Nodup
  waiters : (model.prompts.filterMap Open.waiter).Nodup
  waited : ∀ prompt ∈ model.prompts, ∀ channel, prompt.waiter = some channel →
    prompt.blocks.isSome = true ∧ channel < channels

namespace Listed

variable {channels : Nat}

/-- No two open prompts share an id. -/
theorem ids (h : Listed model channels) : (model.prompts.map Open.id).Nodup := by
  rw [List.map_congr_left h.named]
  exact h.keys

/-- A channel waited on is one already given out. -/
theorem lt_of_awaits (h : Listed model channels) {channel : Nat}
    (hawaits : model.Awaits channel) : channel < channels := by
  obtain ⟨prompt, hmem, hwaiter⟩ := hawaits
  exact (h.waited prompt hmem channel hwaiter).2

/-- Where nothing holds the run up, no channel is waited on. -/
theorem not_awaits (h : Listed model channels) (hfree : model.HeldBy none) (channel : Nat) :
    ¬ model.Awaits channel := by
  rintro ⟨prompt, hmem, hwaiter⟩
  obtain ⟨index, hblocks⟩ :=
    Option.isSome_iff_exists.mp (h.waited prompt hmem channel hwaiter).1
  cases hfree prompt hmem index hblocks

/-- A channel not given out is waited on by no prompt. -/
theorem not_mem_waiters (h : Listed model channels) :
    channels ∉ model.prompts.filterMap Open.waiter := by
  intro hmem
  obtain ⟨prompt, hprompt, hwaiter⟩ := List.mem_filterMap.mp hmem
  exact Nat.lt_irrefl _ (h.waited prompt hprompt channels hwaiter).2

/-- Open prompts differ where fewer of them are open. -/
theorem of_sublist {after : Model φ Date} (h : Listed model channels)
    (hless : after.prompts.Sublist model.prompts) : Listed after channels where
  named := fun prompt hmem => h.named prompt (hless.subset hmem)
  keys := h.keys.sublist (hless.map Open.key)
  waiters := h.waiters.sublist (hless.filterMap Open.waiter)
  waited := fun prompt hmem => h.waited prompt (hless.subset hmem)

/-- Open prompts differ where they are the same. -/
theorem of_prompts {after : Model φ Date} (h : Listed model channels)
    (hprompts : after.prompts = model.prompts) : Listed after channels :=
  h.of_sublist (by rw [hprompts])

/-- Open prompts differ where channels are given out. -/
theorem of_le (h : Listed model channels) {channels' : Nat} (hle : channels ≤ channels') :
    Listed model channels' where
  named := h.named
  keys := h.keys
  waiters := h.waiters
  waited := by
    intro prompt hmem channel hwaiter
    obtain ⟨hblocks, hlt⟩ := h.waited prompt hmem channel hwaiter
    exact ⟨hblocks, Nat.lt_of_lt_of_le hlt hle⟩

/-- A prompt opened under a key no open prompt has, waited on by no channel or by the next one. -/
theorem opened (h : Listed model channels) {channels' step : Nat} {question : Question}
    {blocks waiter : Option Nat} (hle : channels ≤ channels')
    (hfresh : ∀ prompt ∈ model.prompts, prompt.key ≠ question.key)
    (hwaiter : ∀ channel, waiter = some channel →
      blocks.isSome = true ∧ channel = channels ∧ channel < channels') :
    Listed { model with
      prompts := model.prompts ++ [Model.opened step question blocks waiter] } channels' where
  named := by
    intro prompt hmem
    rcases List.mem_append.mp hmem with hold | hnew
    · exact h.named prompt hold
    · rw [List.mem_singleton.mp hnew]
      rfl
  keys := by
    rw [List.map_append, List.nodup_append]
    refine ⟨h.keys, List.nodup_singleton _, ?_⟩
    intro key hkey other hother
    obtain ⟨prompt, hmem, rfl⟩ := List.mem_map.mp hkey
    rw [List.mem_singleton.mp hother]
    exact hfresh prompt hmem
  waiters := by
    rw [List.filterMap_append]
    cases waiter with
    | none => simpa [Model.opened] using h.waiters
    | some channel =>
        obtain ⟨-, rfl, -⟩ := hwaiter channel rfl
        have hnew : [Model.opened step question blocks (some channel)].filterMap Open.waiter =
            [channel] := rfl
        rw [hnew, List.nodup_append]
        refine ⟨h.waiters, List.nodup_singleton _, ?_⟩
        intro other hother same hsame heq
        rw [heq, List.mem_singleton.mp hsame] at hother
        exact h.not_mem_waiters hother
  waited := by
    intro prompt hmem channel hwaits
    rcases List.mem_append.mp hmem with hold | hnew
    · exact (h.of_le hle).waited prompt hold channel hwaits
    · rw [List.mem_singleton.mp hnew] at hwaits ⊢
      obtain ⟨hblocks, -, hlt⟩ := hwaiter channel hwaits
      exact ⟨hblocks, hlt⟩

/-- Open prompts differ after a question is asked for later, under any key and by any step. -/
theorem askLater (h : Listed model channels) (step : Nat) (question : Question) :
    Listed (model.askLater step question) channels := by
  unfold Model.askLater
  split
  · exact h
  · rename_i hunknown
    apply h.opened (Nat.le_refl channels)
    · intro prompt hmem hkey
      apply hunknown
      have hany : model.prompts.any (fun prompt => prompt.key = question.key) = true :=
        List.any_eq_true.mpr ⟨prompt, hmem, decide_eq_true hkey⟩
      rw [hany, Bool.or_true]
    · intro channel hwaiter
      cases hwaiter

/-- Open prompts differ after a notice under a key no open prompt has. -/
theorem notice (h : Listed model channels) (step : Nat) {key : String} (text : String)
    (hfresh : ∀ prompt ∈ model.prompts, prompt.key ≠ key) :
    Listed (model.notice step key text) channels :=
  h.opened (Nat.le_refl channels) hfresh (fun _ hwaiter => by cases hwaiter)

/-- A prompt open under a key, turned into one waited on by the next channel. -/
theorem turned (h : Listed model channels) {before behind : List Open} {prompt : Open}
    (hprompts : model.prompts = before ++ prompt :: behind) (step : Nat) :
    Listed { model with
      prompts := before ++
        { prompt with blocks := some step, waiter := some channels } :: behind }
      (channels + 1) where
  named := by
    intro other hmem
    rcases List.mem_append.mp hmem with hfirst | hrest
    · exact h.named other (by rw [hprompts]; exact List.mem_append_left _ hfirst)
    · rcases List.mem_cons.mp hrest with rfl | hlast
      · exact h.named prompt (by rw [hprompts]; simp)
      · exact h.named other (by rw [hprompts]; simp [hlast])
  keys := by
    have hkeys := h.keys
    rw [hprompts] at hkeys
    simpa using hkeys
  waiters := by
    have hnew := h.not_mem_waiters
    have hwaiters := h.waiters
    rw [hprompts, List.filterMap_append, ← List.singleton_append, List.filterMap_append] at hnew
    rw [hprompts, List.filterMap_append, ← List.singleton_append, List.filterMap_append]
      at hwaiters
    have hsame : (before ++ { prompt with
        blocks := some step, waiter := some channels } :: behind).filterMap Open.waiter =
        before.filterMap Open.waiter ++ channels :: behind.filterMap Open.waiter := by
      rw [List.filterMap_append, List.filterMap_cons]
    have hless : (before.filterMap Open.waiter ++ behind.filterMap Open.waiter).Nodup :=
      hwaiters.sublist ((List.sublist_append_right _ _).append_left _)
    simp only [List.mem_append, not_or] at hnew
    rw [hsame, List.nodup_middle, List.nodup_cons, List.mem_append, not_or]
    exact ⟨⟨hnew.1, hnew.2.2⟩, hless⟩
  waited := by
    intro other hmem channel hwaits
    have hold : other ∈ model.prompts → other.blocks.isSome = true ∧ channel < channels + 1 :=
      fun hbefore => (h.of_le (Nat.le_succ channels)).waited other hbefore channel hwaits
    rcases List.mem_append.mp hmem with hfirst | hrest
    · exact hold (by rw [hprompts]; exact List.mem_append_left _ hfirst)
    · rcases List.mem_cons.mp hrest with rfl | hlast
      · obtain rfl := Option.some.inj hwaits
        exact ⟨rfl, Nat.lt_succ_self channels⟩
      · exact hold (by rw [hprompts]; simp [hlast])

/-- Open prompts differ after a step needs an answer, under any key and whichever step opened a
prompt for it. -/
theorem need (h : Listed model channels) (step : Nat) (key : String) (kind : PromptKind)
    (text : String) : Listed (model.need step key kind text channels).2 (channels + 1) := by
  unfold Model.need
  cases model.answers.get key with
  | some answer => exact h.of_le (Nat.le_succ channels)
  | none =>
      cases hfound : model.prompts.findIdx? fun prompt => prompt.key = key with
      | some index =>
          obtain ⟨hlt, -⟩ := List.findIdx?_eq_some_iff_getElem.mp hfound
          simp only [List.modify_eq_take_cons_drop hlt]
          apply h.turned
          rw [← List.drop_eq_getElem_cons hlt, List.take_append_drop]
      | none =>
          rw [List.findIdx?_eq_none_iff] at hfound
          apply h.opened (Nat.le_succ channels)
          · intro prompt hmem hkey
            have hother := hfound prompt hmem
            rw [decide_eq_false_iff_not] at hother
            exact hother hkey
          · intro channel hwaiter
            obtain rfl := Option.some.inj hwaiter
            exact ⟨rfl, rfl, Nat.lt_succ_self _⟩

/-- A list read less of is read less from. -/
theorem filterMap_sublist {α β : Type} {f g : α → Option β} (l : List α)
    (hless : ∀ a ∈ l, f a = none ∨ f a = g a) : (l.filterMap f).Sublist (l.filterMap g) := by
  induction l with
  | nil => exact List.Sublist.refl []
  | cons a rest ih =>
      have hrest := ih fun b hmem => hless b (List.mem_cons_of_mem a hmem)
      rcases hless a List.mem_cons_self with hnone | hsame
      · rw [List.filterMap_cons_none hnone, List.filterMap_cons]
        split
        · exact hrest
        · exact hrest.cons _
      · rw [List.filterMap_cons, List.filterMap_cons, hsame]
        split
        · exact hrest
        · exact hrest.cons_cons _

/-- Open prompts differ where some are no longer waited on. -/
theorem freed (h : Listed model channels) (step : Nat) :
    Listed { model with
      prompts := model.prompts.map fun prompt =>
        if prompt.blocks = some step then { prompt with blocks := none, waiter := none }
        else prompt } channels where
  named := by
    intro prompt hmem
    obtain ⟨before, hbefore, rfl⟩ := List.mem_map.mp hmem
    have hnamed := h.named before hbefore
    split <;> exact hnamed
  keys := by
    have hsame : (model.prompts.map fun prompt =>
        if prompt.blocks = some step then { prompt with blocks := none, waiter := none }
        else prompt).map Open.key = model.prompts.map Open.key := by
      rw [List.map_map]
      apply List.map_congr_left
      intro prompt _
      simp only [Function.comp_apply]
      split <;> rfl
    rw [hsame]
    exact h.keys
  waiters := by
    rw [List.filterMap_map]
    refine h.waiters.sublist (filterMap_sublist _ fun prompt _ => ?_)
    simp only [Function.comp_apply]
    split
    · exact Or.inl rfl
    · exact Or.inr rfl
  waited := by
    intro prompt hmem channel hwaiter
    obtain ⟨before, hbefore, rfl⟩ := List.mem_map.mp hmem
    split at hwaiter
    · cases hwaiter
    · rename_i hother
      rw [if_neg hother]
      exact h.waited before hbefore channel hwaiter

/-- Open prompts differ after a step is released. -/
theorem release (h : Listed model channels) (step : Nat) :
    Listed (model.release step) channels := by
  have hkept : Listed { model with
      prompts := model.prompts.filter fun prompt =>
        !(prompt.blocks = some step && prompt.step = step) } channels :=
    h.of_sublist List.filter_sublist
  exact hkept.freed step

end Listed

/-! ## What the prompts show of the run -/

/-- What a model shows agrees with its prompts: its own state is never `waiting`; a prompt holds a
step up only while that step is carried out; a run that failed shows the step that did; and a device
at rest holds no prompt and no answer. -/
structure Coherent (model : Model φ Date) : Prop where
  able : model.state ≠ .waiting
  blocked : ∀ prompt ∈ model.prompts, ∀ index, prompt.blocks = some index →
    model.state = .running ∧ model.Shown index
  failed : model.state = .failed → ∃ entry ∈ model.steps, entry.state = .failed
  rest : model.atRest = true → model.prompts = [] ∧ model.answers = []

namespace Coherent

/-- Nothing holds up a run that is not under way. -/
theorem free (h : Coherent model) (hstate : model.state ≠ .running) : model.HeldBy none := by
  intro prompt hmem index hblocks
  exact absurd (h.blocked prompt hmem index hblocks).1 hstate

/-- A run under way is coherent where only the step shown running holds it up. -/
theorem of_held {index : Nat} (hrunning : model.state = .running)
    (hheld : model.HeldBy (some index)) (hshown : model.Shown index) : Coherent model where
  able := by
    rw [hrunning]
    decide
  blocked := by
    intro prompt hmem other hblocks
    obtain rfl := Option.some.inj (hheld prompt hmem other hblocks)
    exact ⟨hrunning, hshown⟩
  failed := by
    intro hfailed
    rw [hrunning] at hfailed
    cases hfailed
  rest := fun hrest => absurd hrunning (ne_running_of_atRest hrest)

/-- A run under way is coherent where nothing holds it up. -/
theorem of_free (hrunning : model.state = .running) (hfree : model.HeldBy none) :
    Coherent model where
  able := by
    rw [hrunning]
    decide
  blocked := by
    intro prompt hmem other hblocks
    cases hfree prompt hmem other hblocks
  failed := by
    intro hfailed
    rw [hrunning] at hfailed
    cases hfailed
  rest := fun hrest => absurd hrunning (ne_running_of_atRest hrest)

/-- The device is `waiting` exactly when its running step has a prompt that holds it up. -/
theorem waiting_iff (h : Coherent model) :
    model.run = .waiting ↔
      ∃ index, model.Shown index ∧ ∃ prompt ∈ model.prompts, prompt.blocks = some index := by
  constructor
  · intro hwaiting
    unfold run at hwaiting
    split at hwaiting
    · rename_i hboth
      obtain ⟨prompt, hmem, hblocking⟩ := List.any_eq_true.mp hboth.2
      obtain ⟨index, hblocks⟩ := Option.isSome_iff_exists.mp hblocking
      exact ⟨index, (h.blocked prompt hmem index hblocks).2, prompt, hmem, hblocks⟩
    · exact absurd hwaiting h.able
  · rintro ⟨index, -, prompt, hmem, hblocks⟩
    have hany : model.prompts.any Open.blocking = true :=
      List.any_eq_true.mpr ⟨prompt, hmem, Option.isSome_of_eq_some hblocks⟩
    exact if_pos ⟨(h.blocked prompt hmem index hblocks).1, hany⟩

end Coherent

/-! ## A step released -/

/-- A step released is held up by no prompt. -/
theorem release_not_blocked (model : Model φ Date) (step : Nat) :
    ∀ prompt ∈ (model.release step).prompts, prompt.blocks ≠ some step := by
  intro prompt hmem
  obtain ⟨before, -, rfl⟩ := List.mem_map.mp hmem
  split
  · intro hblocks
    cases hblocks
  · rename_i hother
    exact hother

/-- A step released closes the prompts it both asked and waited on, and no others. -/
theorem release_ids (model : Model φ Date) (step : Nat) :
    (model.release step).prompts.map Open.id =
      (model.prompts.filter fun prompt =>
        !(prompt.blocks = some step && prompt.step = step)).map Open.id := by
  simp only [release, List.map_map]
  apply List.map_congr_left
  intro prompt _
  simp only [Function.comp_apply]
  split <;> rfl

/-! ## Answers -/

/-- An open prompt takes an answer: it is no notice, the value is of its kind, and a text is one
its check accepts. -/
def Accepts (prompt : Open) (value : Answer φ) : Prop :=
  prompt.kind ≠ .notice ∧ fits prompt.kind value = true ∧
    ∀ check text, prompt.check = some check → asText value = some text → check text = .ok ()

/-- What an answer accepted comes to: the prompt it names, which takes it, closes; what it carries
is kept under the prompt's key, and sent by the channel the prompt is waited on by. -/
theorem answer_spec {id : Option String} {value : Option (Answer φ)} {waiter : Option Nat}
    {given : Answer φ} {after : Model φ Date}
    (hanswer : model.answer id value = .ok (waiter, given, after)) :
    ∃ before prompt behind, model.prompts = before ++ prompt :: behind ∧
      id = some prompt.id ∧ value = some given ∧ Accepts prompt given ∧
      waiter = prompt.waiter ∧ after = { model with
        prompts := before ++ behind
        askedBy := model.askedBy.set prompt.key prompt.step
        answers := model.answers.set prompt.key given } := by
  simp only [answer] at hanswer
  split at hanswer
  · cases hanswer
  · rename_i index prompt hfound
    obtain ⟨position, hposition, hat⟩ := Option.bind_eq_some_iff.mp hfound
    obtain ⟨opened, hget, hpair⟩ := Option.map_eq_some_iff.mp hat
    obtain ⟨rfl, rfl⟩ := Prod.mk.inj hpair
    obtain ⟨name, rfl, hfirst⟩ := Option.bind_eq_some_iff.mp hposition
    obtain ⟨hlt, hnamed, -⟩ := List.findIdx?_eq_some_iff_getElem.mp hfirst
    obtain ⟨_, rfl⟩ := List.getElem?_eq_some_iff.mp hget
    split at hanswer
    · cases hanswer
    · rename_i hkind
      split at hanswer
      · cases hanswer
      · rename_i carried hfits
        obtain ⟨rfl, hfit⟩ := Option.filter_eq_some_iff.mp hfits
        split at hanswer
        · cases hanswer
        · rename_i hcheck
          simp only [Except.ok.injEq, Prod.mk.injEq] at hanswer
          obtain ⟨rfl, rfl, rfl⟩ := hanswer
          refine ⟨model.prompts.take position, model.prompts[position],
            model.prompts.drop (position + 1), ?_, ?_, rfl, ⟨hkind, hfit, ?_⟩, rfl, ?_⟩
          · rw [← List.drop_eq_getElem_cons hlt, List.take_append_drop]
          · rw [decide_eq_true_iff] at hnamed
            rw [hnamed]
          · intro check text hhas htext
            cases hresult : check text with
            | ok done => rfl
            | error reason =>
                exact absurd (by simp [hhas, htext, hresult]) (hcheck reason)
          · rw [List.eraseIdx_eq_take_drop_succ]

/-- What is sent goes by a channel waited on, which no prompt still open is waited on by. -/
theorem Listed.answered {channels : Nat} (h : Listed model channels) {id : Option String}
    {value : Option (Answer φ)} {channel : Nat} {given : Answer φ} {after : Model φ Date}
    (hanswer : model.answer id value = .ok (some channel, given, after)) :
    model.Awaits channel ∧ ¬ after.Awaits channel := by
  obtain ⟨before, prompt, behind, hprompts, -, -, -, hwaiter, rfl⟩ := answer_spec hanswer
  refine ⟨⟨prompt, by rw [hprompts]; simp, hwaiter.symm⟩, ?_⟩
  rintro ⟨other, hmem, hother⟩
  have hnodup := h.waiters
  rw [hprompts, List.filterMap_append, List.filterMap_cons_some hwaiter.symm, List.nodup_middle,
    List.nodup_cons, ← List.filterMap_append] at hnodup
  exact hnodup.1 (List.mem_filterMap.mpr ⟨other, hmem, hother⟩)

/-- An answer is accepted exactly of an open prompt that takes it. -/
theorem answer_iff (hids : (model.prompts.map Open.id).Nodup) (id : Option String)
    (value : Option (Answer φ)) :
    (∃ sent, model.answer id value = .ok sent) ↔
      ∃ prompt ∈ model.prompts, id = some prompt.id ∧
        ∃ given, value = some given ∧ Accepts prompt given := by
  constructor
  · rintro ⟨⟨waiter, given, after⟩, hanswer⟩
    obtain ⟨before, prompt, behind, hprompts, hid, hvalue, haccepts, -⟩ := answer_spec hanswer
    exact ⟨prompt, by rw [hprompts]; simp, hid, given, hvalue, haccepts⟩
  · rintro ⟨prompt, hmem, rfl, given, rfl, hkind, hfits, hcheck⟩
    cases hfound : model.prompts.findIdx? fun other => other.id = prompt.id with
    | none =>
        rw [List.findIdx?_eq_none_iff] at hfound
        have hother := hfound prompt hmem
        simp at hother
    | some index =>
        obtain ⟨hlt, hnamed, -⟩ := List.findIdx?_eq_some_iff_getElem.mp hfound
        rw [decide_eq_true_iff] at hnamed
        have hsame : model.prompts[index] = prompt :=
          List.inj_on_of_nodup_map hids (List.getElem_mem hlt) hmem hnamed
        have hat : model.prompts[index]? = some prompt := by
          rw [List.getElem?_eq_getElem hlt, hsame]
        have hnot : ∀ reason, (prompt.check.bind fun check => (asText given).map check) ≠
            some (.error reason) := by
          intro reason hresult
          obtain ⟨check, hhas, htext⟩ := Option.bind_eq_some_iff.mp hresult
          obtain ⟨text, htext, herror⟩ := Option.map_eq_some_iff.mp htext
          rw [hcheck check text hhas htext] at herror
          cases herror
        simp only [answer, Option.bind_some, hfound, hat, Option.map_some, if_neg hkind,
          Option.filter_some, hfits, if_true]
        exact ⟨_, rfl⟩

end Model

end Bliti.Provision
