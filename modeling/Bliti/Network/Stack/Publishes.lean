import Bliti.Network.Select.Changes
import Bliti.Network.Stack.Driver.Evolve

/-!
# The network stack - what the driver publishes

The states the driver publishes are those of the candidates of the document it
runs, position for position, from the first document it configures on.
-/

namespace Bliti.Network.Stack

open Std (ExtTreeMap ExtTreeSet)
open Channel.Config Select Probe

variable {φ : Type} [BEq φ]

/-- The document a command has configured. -/
def Command.document : Command φ → Document φ
  | .apply document _ _ => document
  | .restore document _ => document

namespace Driver

/-- A document is another, or equal to it. -/
def Same (one other : Document φ) : Prop :=
  one = other ∨ (one == other) = true

/-- Documents that are the same carry as many candidates. -/
theorem Same.length {one other : Document φ} (hsame : Same one other) :
    one.attachments.length = other.attachments.length := by
  rcases hsame with heq | hequal
  · rw [heq]
  · exact Document.length_of_beq hequal

/-- The selector selects among the document running, and what is published is the
states it decided, once anything is. -/
structure Publishes (d : Driver φ) : Prop where
  settled : Settled d.selector
  running : Same d.document d.selector.document
  unpublished : d.states = none → d.selector.document.attachments = []
  published : ∀ entries, d.states = some entries →
    entries = d.selector.decision.states.map entry

/-- A driver goes on running the document it ran. -/
structure Continues (d d' : Driver φ) : Prop where
  publishes : Publishes d'
  document : d'.document = d.document
  known : d'.states.isSome = d.states.isSome

/-- A driver runs a document, and has published of it. -/
structure Runs (document : Document φ) (d : Driver φ) : Prop where
  publishes : Publishes d
  document : d.document = document
  known : d.states.isSome = true

theorem Continues.trans {d d' d'' : Driver φ} (hone : Continues d d')
    (hother : Continues d' d'') : Continues d d'' where
  publishes := hother.publishes
  document := hother.document.trans hone.document
  known := hother.known.trans hone.known

/-- What runs a document goes on running it. -/
theorem Runs.continues {document : Document φ} {d d' : Driver φ} (hruns : Runs document d)
    (hcontinues : Continues d d') : Runs document d' where
  publishes := hcontinues.publishes
  document := hcontinues.document.trans hruns.document
  known := hcontinues.known.trans hruns.known

namespace Publishes

variable {d d' : Driver φ}

/-- What is published is of each candidate of the document running. -/
theorem length (hpublishes : Publishes d) {entries : List (Json φ)}
    (hstates : d.states = some entries) :
    entries.length = d.document.attachments.length := by
  rw [hpublishes.published entries hstates, List.length_map, hpublishes.settled.length_states,
    hpublishes.running.length]

/-- The invariant turns on the selection and what is published of it. -/
theorem aside (hpublishes : Publishes d) (haside : Aside d d') : Continues d d' := by
  refine ⟨⟨?_, ?_, ?_, ?_⟩, haside.document, by rw [haside.states]⟩
  · rw [haside.selector]
    exact hpublishes.settled
  · rw [haside.selector, haside.document]
    exact hpublishes.running
  · rw [haside.selector, haside.states]
    exact hpublishes.unpublished
  · rw [haside.selector, haside.states]
    exact hpublishes.published

/-- Where no state is reported, an event leaves every state as it was. -/
theorem states_of_unreported (hpublishes : Publishes d) {event : Event}
    (hnone : (d.selector.handle event).2.any isState = false) :
    (d.selector.handle event).1.decision.states = d.selector.decision.states := by
  have hsettled : Settled (d.selector.handle event).1 := Selector.settle_settled _
  have hlength : (d.selector.handle event).1.decision.states.length =
      d.selector.decision.states.length := by
    rw [hsettled.length_states, hpublishes.settled.length_states,
      d.selector.handle_document event]
  apply List.ext_getElem?
  intro rank
  rcases hnew : (d.selector.handle event).1.decision.states[rank]? with _ | state
  · rw [List.getElem?_eq_none_iff] at hnew
    rw [eq_comm, List.getElem?_eq_none_iff]
    omega
  · rcases d.selector.mem_handle_state event hnew with hbefore | hreported
    · exact hbefore.symm
    · have hfree := List.any_eq_false.mp hnone _ hreported
      exact absurd rfl hfree

/-- A state is reported of a candidate only, so where something is published. -/
theorem known_of_reported (hpublishes : Publishes d) {event : Event}
    (hany : (d.selector.handle event).2.any isState = true) : d.states.isSome = true := by
  have hsettled : Settled (d.selector.handle event).1 := Selector.settle_settled _
  obtain ⟨change, hchange, hstate⟩ := List.any_eq_true.mp hany
  cases change with
  | state rank state =>
      have hlt := (List.getElem?_eq_some_iff.mp
        (d.selector.getElem?_of_mem_handle event hchange)).1
      rw [hsettled.length_states, d.selector.handle_document event] at hlt
      rcases hunpublished : d.states with _ | entries
      · rw [hpublishes.unpublished hunpublished] at hlt
        exact absurd hlt (Nat.not_lt_zero rank)
      · rfl
  | link interface link => cases hstate
  | hotspot placement => cases hstate
  | defaultRoute candidate => cases hstate

/-- An event publishes the states it leaves, where it changes any. -/
theorem feed (hpublishes : Publishes d) (event : Event) : Continues d (d.feed event) := by
  have hfollowed : Followed { d with selector := (d.selector.handle event).1 } (d.feed event)
      (d.selector.handle event).2 :=
    follow_followed _ _
  have hselector : (d.feed event).selector = (d.selector.handle event).1 := hfollowed.selector
  have hdocument : (d.feed event).document = d.document := hfollowed.document
  have hsettled : Settled (d.feed event).selector := by
    rw [hselector]
    exact Selector.settle_settled _
  have hselected : (d.feed event).selector.document = d.selector.document := by
    rw [hselector, d.selector.handle_document event]
  have hrunning : Same (d.feed event).document (d.feed event).selector.document := by
    rw [hselected, hdocument]
    exact hpublishes.running
  have hstates := hfollowed.states
  by_cases hany : (d.selector.handle event).2.any isState = true
  · rw [if_pos hany] at hstates
    have hknown : d.states.isSome = true := hpublishes.known_of_reported hany
    refine ⟨⟨hsettled, hrunning, ?_, ?_⟩, hdocument, ?_⟩
    · intro hnone
      rw [hstates] at hnone
      cases hnone
    · intro entries hentries
      rw [hstates] at hentries
      rw [hselector]
      exact (Option.some.inj hentries).symm
    · rw [hstates, hknown]
      rfl
  · rw [if_neg hany] at hstates
    have hsame := hpublishes.states_of_unreported (by simpa using hany)
    refine ⟨⟨hsettled, hrunning, ?_, ?_⟩, hdocument, by rw [hstates]⟩
    · intro hnone
      rw [hselected]
      exact hpublishes.unpublished (hstates ▸ hnone)
    · intro entries hentries
      rw [hselector, hsame]
      exact hpublishes.published entries (hstates ▸ hentries)

/-- Whatever evolves the driver keeps the invariant. -/
theorem evolves (hpublishes : Publishes d) (hevolves : Evolves d d') : Continues d d' := by
  induction hevolves with
  | refl => exact ⟨hpublishes, rfl, rfl⟩
  | aside _ haside ih => exact ih.trans (ih.publishes.aside haside)
  | @fed _ event _ _ ih => exact ih.trans (ih.publishes.feed event)

/-- Configuring a document publishes its candidates' states. -/
theorem configure {document : Document φ} (hpublishes : Publishes d)
    (hconfigure : d.configure document = .ok d') : Runs document d' := by
  obtain ⟨changes, hconfigured⟩ := configure_configured hconfigure
  have hstates := hconfigured.states
  have hselected : Settled d'.selector ∧ Same document d'.selector.document := by
    rcases Selector.configure_cases hconfigured.selected with
      ⟨hsame, hselector, -⟩ | ⟨hsettled, hdocument, -⟩
    · rw [hselector]
      exact ⟨hpublishes.settled, .inr hsame⟩
    · exact ⟨hsettled, .inl hdocument.symm⟩
  refine ⟨⟨hselected.1, ?_, ?_, ?_⟩, hconfigured.document, by rw [hstates]; rfl⟩
  · rw [hconfigured.document]
    exact hselected.2
  · intro hnone
    rw [hstates] at hnone
    cases hnone
  · intro entries hentries
    rw [hstates] at hentries
    exact (Option.some.inj hentries).symm

/-- A command leaves its document running and published of or, where it is
refused, the document that ran before. -/
theorem command (hpublishes : Publishes d) (command : Command φ) :
    Continues d (d.command command) ∨ Runs command.document (d.command command) := by
  cases command with
  | apply document replacing reply =>
      unfold Driver.command
      simp only
      split
      · rename_i hconfigure
        have hruns := hpublishes.configure hconfigure
        exact .inr (hruns.continues
          (hruns.publishes.aside ((pending_aside _ _).trans (scanForPending_aside _))))
      · exact .inl (hpublishes.aside (d.reply_aside _ _))
  | restore document reply =>
      unfold Driver.command
      simp only
      split
      · rename_i hconfigure
        have hruns := hpublishes.configure hconfigure
        exact .inr (hruns.continues (hruns.publishes.aside (pending_aside _ _)))
      · exact .inl (hpublishes.aside (d.reply_aside _ _))

/-- Rendering, answering and sweeping leave the document running. -/
theorem finish (hpublishes : Publishes d) : Continues d d.kick.settle.sweep := by
  have hkicked := hpublishes.aside (kick_aside d)
  have hsettled : Continues d.kick d.kick.settle := by
    rcases d.kick.settle_aside with haside | haside
    · exact hkicked.publishes.aside haside
    · have hanswered := hkicked.publishes.aside d.kick.answer_aside
      have hforgotten : Continues d.kick { d.kick.answer with failed := ∅ } :=
        ⟨⟨hanswered.publishes.settled, hanswered.publishes.running,
          hanswered.publishes.unpublished, hanswered.publishes.published⟩,
          hanswered.document, hanswered.known⟩
      exact hforgotten.trans (hforgotten.publishes.aside haside)
  have hswept := hsettled.publishes.aside d.kick.settle.sweep_aside
  exact hkicked.trans (hsettled.trans hswept)

/-- A turn leaves the document that ran before running, unless it takes in a
command, whose document it may leave running and published of. -/
theorem turn (hpublishes : Publishes d) (turn : Turn φ) :
    Continues d (d.turn turn) ∨
      ∃ command, turn = .command command ∧ Runs command.document (d.turn turn) := by
  cases turn with
  | command command =>
      rcases hpublishes.command command with hcontinues | hruns
      · exact .inl (hcontinues.trans hcontinues.publishes.finish)
      · exact .inr ⟨command, rfl, hruns.continues hruns.publishes.finish⟩
  | observed observation =>
      have hobserved := hpublishes.evolves (d.observe_evolves observation)
      exact .inl (hobserved.trans hobserved.publishes.finish)
  | ended work internal =>
      have hleft : Continues d { d with work := d.work.erase work } :=
        ⟨⟨hpublishes.settled, hpublishes.running, hpublishes.unpublished,
          hpublishes.published⟩, rfl, rfl⟩
      have hended := hleft.publishes.evolves (internal_evolves _ internal)
      exact .inl (hleft.trans (hended.trans hended.publishes.finish))

end Publishes

/-- The driver starts with nothing published, and no candidate. -/
theorem new_publishes {shared : Shared φ} {radios : List RadioInfo} {selector : Selector φ}
    (hnew : Selector.new shared.hardware
      { attachments := [], hotspot := none, regulatoryDomain := none } = .ok selector) :
    Publishes (Driver.new shared radios selector) := by
  obtain ⟨hdocument, -, -⟩ := Selector.new_keeps hnew
  refine ⟨Selector.new_settled hnew, .inl hdocument.symm, ?_, ?_⟩
  · intro _
    change selector.document.attachments = []
    rw [hdocument]
  · intro entries hentries
    cases hentries

end Driver

end Bliti.Network.Stack
