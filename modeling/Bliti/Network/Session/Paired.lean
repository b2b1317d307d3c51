import Bliti.Library.Fallible
import Bliti.Network.Session.Configurator
import Bliti.Network.Session.Informed
import Bliti.Network.Stack.Publishes

/-!
# The configuration session - candidates' states beside the configuration held

A snapshot pairs the configuration held with what the driver last published,
where the two have as many candidates.  The states are then those of the
configuration held in the runs that save no configuration a count cannot tell
from one the driver runs or is yet to run, and that start with something
published of any candidate held.

Main results:

- Theorem `configuring_paired`: the runs that keep configurations apart publish
  nothing else.
-/

namespace Bliti.Network.Session

open Channel.Config Select Stack

variable {φ : Type}

/-! ## What a snapshot pairs -/

/-- The entries a snapshot carries are of the configuration it carries: the
driver computed them among that document's candidates, position for position, or
had published nothing and there is no candidate. -/
def Paired [BEq φ] (published : Published φ) : Prop :=
  ∀ entries, published.snapshot.attachments = some entries →
    ∃ document, Document.parse published.snapshot.held.document = .ok document ∧
      entries.length = document.attachments.length ∧
      ((published.computedFor = none ∧ document.attachments = []) ∨
        (published.computedFor = some document ∧ ∃ selector : Selector φ, Settled selector ∧
          Driver.Same document selector.document ∧
          entries = selector.decision.states.map entry))

/-- Two documents are one, or have different numbers of candidates. -/
def Apart (one other : Document φ) : Prop :=
  one = other ∨ one.attachments.length ≠ other.attachments.length

/-- Documents apart with as many candidates are one. -/
theorem Apart.eq_of_length {one other : Document φ} (hapart : Apart one other)
    (hlength : one.attachments.length = other.attachments.length) : one = other := by
  rcases hapart with heq | hdiffer
  · exact heq
  · exact absurd hlength hdiffer

/-- A proposal considered is read of what the client sent. -/
theorem State.parse_of_consider [BEq φ] [ToString φ] {backend : Backend φ} {raw : Json.Map φ}
    {proposal : Proposal φ} (hconsider : State.consider backend raw = .ok proposal) :
    Proposal.parse raw = .ok proposal := by
  unfold State.consider at hconsider
  obtain ⟨read, hparse, hrest⟩ := Fallible.bind_ok.mp hconsider
  simp only at hrest
  split at hrest
  · obtain ⟨_, -, hrest⟩ := Fallible.bind_ok.mp hrest
    rw [hparse, Fallible.pure_ok.mp hrest]
  · obtain ⟨_, hrefused, -⟩ := Fallible.bind_ok.mp hrest
    cases hrefused

/-- A proposal read is read of what it keeps. -/
theorem Proposal.document_of_parse {raw : Json.Map φ} {proposal : Proposal φ}
    (hparse : Proposal.parse raw = .ok proposal) :
    Document.parse proposal.raw = .ok proposal.document := by
  obtain ⟨document, hdocument, hrest⟩ := Fallible.bind_ok.mp hparse
  rw [← Fallible.pure_ok.mp hrest]
  exact hdocument

/-- A state loaded holds a document read of what the client sent. -/
theorem State.document_of_load {recorded : Except String (Option (Stored φ))}
    {fallback : Json.Map φ} {state : State φ} (hload : State.load recorded fallback = .ok state) :
    Document.parse state.held.raw = .ok state.held.document := by
  have hfallback (hstate : State.ofFallback fallback = .ok state) :
      Document.parse state.held.raw = .ok state.held.document := by
    obtain ⟨held, hparse, hrest⟩ := Fallible.bind_ok.mp hstate
    rw [← Fallible.pure_ok.mp hrest]
    exact Proposal.document_of_parse hparse
  unfold State.load at hload
  split at hload
  · split at hload
    · rename_i stored hstored
      cases hload
      obtain ⟨held, hparse, hrest⟩ := Fallible.bind_ok.mp hstored
      have hread := Proposal.document_of_parse hparse
      simp only at hrest
      split at hrest
      · obtain ⟨replaced, -, hrest⟩ := Fallible.bind_ok.mp hrest
        rw [← Fallible.pure_ok.mp hrest]
        exact hread
      · obtain ⟨replaced, -, hrest⟩ := Fallible.bind_ok.mp hrest
        obtain ⟨_, -, hrest⟩ := Fallible.bind_ok.mp hrest
        rw [← Fallible.pure_ok.mp hrest]
        exact hread
    · exact hfallback hload
  · exact hfallback hload

namespace Configurator

/-! ## The runs that keep configurations apart -/

/-- A document is apart from the one the driver has published of and from each one
it was sent, and has no candidate where it has published nothing. -/
def Distinguishes (w : Configurator φ) (document : Document φ) : Prop :=
  (w.driver.states = none → document.attachments = []) ∧
    (w.driver.states.isSome = true → Apart w.driver.document document) ∧
    ∀ command ∈ w.commands, Apart command.document document

/-- A step keeps configurations apart: what is saved is distinguished, and the
configurator starts with something published of any candidate held. -/
def KeepsApart [BEq φ] [ToString φ] (w : Configurator φ) : Step φ → Prop
  | .start => w.driver.states = none → w.state.document.attachments = []
  | .propose raw checked recorded =>
      ∀ proposal, State.consider (w.backend checked) raw = .ok proposal →
        recorded = .ok () → w.Distinguishes proposal.document
  | _ => True

/-- The invariant: the configuration held is distinguished from what the driver
runs and is sent, and what is published is paired. -/
structure Pairs [BEq φ] (w : Configurator φ) : Prop where
  publishes : w.driver.Publishes
  read : Document.parse w.state.held.raw = .ok w.state.held.document
  verified : ∀ v, w.verification = some v → v.document = w.state.document
  started : w.verification.isSome = true → w.published.isSome = true
  running : w.driver.states.isSome = true → Apart w.driver.document w.state.document
  sent : ∀ command ∈ w.commands, Apart command.document w.state.document
  known : w.published.isSome = true → w.driver.states = none →
    w.state.document.attachments = []
  paired : ∀ published, w.published = some published → Paired published

variable [BEq φ]

/-- Something is published once a snapshot is. -/
theorem isSome_publishing (w : Configurator φ) (state : State φ) :
    (w.publishing state).published.isSome = true := by
  unfold publishing
  simp only
  split
  · split <;> rfl
  · rfl

/-- A snapshot of a state distinguished from what the driver runs is paired. -/
theorem publishing_paired {w : Configurator φ} {state : State φ}
    (hpublishes : w.driver.Publishes)
    (hread : Document.parse state.held.raw = .ok state.held.document)
    (hrunning : w.driver.states.isSome = true → Apart w.driver.document state.document)
    (hknown : w.driver.states = none → state.document.attachments = [])
    (hpaired : ∀ published, w.published = some published → Paired published) :
    ∀ published, (w.publishing state).published = some published → Paired published := by
  have hfresh : Paired {
      snapshot := snapshot (w.backend (.ok ())) state w.driver.states
      computedFor := w.driver.states.map fun _ => w.driver.document } := by
    intro entries hentries
    refine ⟨state.document, hread, ?_⟩
    rcases hstates : w.driver.states with _ | computed
    · have hnone := hknown hstates
      have hempty : [] = entries := by simpa [snapshot, attachmentsOf, hstates] using hentries
      rw [← hempty, hnone]
      exact ⟨rfl, .inl ⟨rfl, rfl⟩⟩
    · have hcount : computed.length = state.document.attachments.length ∧
          computed = entries := by
        simpa [snapshot, attachmentsOf, hstates] using hentries
      obtain ⟨hcount, rfl⟩ := hcount
      have hlength := hpublishes.length hstates
      have hdocument : w.driver.document = state.document := by
        apply (hrunning (by rw [hstates]; rfl)).eq_of_length
        omega
      refine ⟨hcount, .inr ⟨by rw [← hdocument]; rfl, w.driver.selector, hpublishes.settled, ?_,
        hpublishes.published computed hstates⟩⟩
      rw [← hdocument]
      exact hpublishes.running
  intro published hpublished
  unfold publishing at hpublished
  simp only at hpublished
  split at hpublished
  · rename_i before hbefore
    split at hpublished
    · exact hpaired published (hbefore.trans hpublished)
    · cases hpublished
      exact hfresh
  · cases hpublished
    exact hfresh

namespace Pairs

variable {w w' : Configurator φ}

/-- Publishing a state distinguished keeps the invariant. -/
theorem publishing (hpairs : Pairs w) {state : State φ}
    (hread : Document.parse state.held.raw = .ok state.held.document)
    (hdistinguishes : w.Distinguishes state.document)
    (hverified : ∀ v, w.verification = some v → v.document = state.document) :
    Pairs (w.publishing state) where
  publishes := hpairs.publishes
  read := hread
  verified := hverified
  started := fun _ => isSome_publishing w state
  running := hdistinguishes.2.1
  sent := hdistinguishes.2.2
  known := fun _ => hdistinguishes.1
  paired := publishing_paired hpairs.publishes hread hdistinguishes.2.1 hdistinguishes.1
    hpairs.paired

theorem verifying (hpairs : Pairs w) (hpublished : w.published.isSome = true)
    {verification : Option (Verification φ)}
    (hverified : ∀ v, verification = some v → v.document = w.state.document) (replies : Nat) :
    Pairs { w with verification := verification, replies := replies } :=
  ⟨hpairs.publishes, hpairs.read, hverified, fun _ => hpublished, hpairs.running, hpairs.sent,
    hpairs.known, hpairs.paired⟩

/-- What is held is distinguished, once something is published or where nothing has
to be. -/
theorem distinguishes (hpairs : Pairs w)
    (hknown : w.driver.states = none → w.state.document.attachments = []) :
    w.Distinguishes w.state.document :=
  ⟨hknown, hpairs.running, hpairs.sent⟩

theorem holding (hpairs : Pairs w) {state : State φ} (hheld : state.held = w.state.held)
    (hknown : w.driver.states = none → w.state.document.attachments = []) :
    Pairs (w.publishing state) := by
  have hdocument : state.document = w.state.document := congrArg Proposal.document hheld
  apply hpairs.publishing
  · rw [hheld]
    exact hpairs.read
  · rw [hdocument]
    exact hpairs.distinguishes hknown
  · rw [hdocument]
    exact hpairs.verified

/-- The driver going on running what it ran keeps the invariant. -/
theorem continues (hpairs : Pairs w) {driver : Driver φ}
    (hcontinues : Driver.Continues w.driver driver) : Pairs { w with driver := driver } where
  publishes := hcontinues.publishes
  read := hpairs.read
  verified := hpairs.verified
  started := hpairs.started
  running := by
    intro hknown
    change Apart driver.document w.state.document
    rw [hcontinues.document]
    exact hpairs.running (hcontinues.known.symm.trans hknown)
  sent := hpairs.sent
  known := by
    intro hpublished hnone
    apply hpairs.known hpublished
    have hknown := hcontinues.known
    change driver.states = none at hnone
    rw [hnone] at hknown
    simpa using hknown.symm
  paired := hpairs.paired

theorem runs (hpairs : Pairs w) {driver : Driver φ} {document : Document φ}
    (hruns : Driver.Runs document driver) (hapart : Apart document w.state.document) :
    Pairs { w with driver := driver } where
  publishes := hruns.publishes
  read := hpairs.read
  verified := hpairs.verified
  started := hpairs.started
  running := by
    intro _
    change Apart driver.document w.state.document
    rw [hruns.document]
    exact hapart
  sent := hpairs.sent
  known := by
    intro _ hnone
    have hknown := hruns.known
    change driver.states = none at hnone
    rw [hnone] at hknown
    cases hknown
  paired := hpairs.paired

/-- The configurator's start keeps the invariant, where something is published of
any candidate held. -/
theorem start (hpairs : Pairs w)
    (hknown : w.driver.states = none → w.state.document.attachments = [])
    (hstart : w.start = some w') : Pairs w' := by
  unfold Configurator.start at hstart
  split at hstart
  · cases hstart
  · cases hstart
    refine (hpairs.holding rfl hknown).verifying (isSome_publishing w w.state) ?_ _
    intro v hv
    cases hv
    rfl
  · split at hstart
    · cases hstart
      exact hpairs.holding rfl hknown
    · cases hstart
      exact hpairs.holding rfl hknown
    · cases hstart

theorem propose [ToString φ] (hpairs : Pairs w) (hpublished : w.published.isSome = true)
    {raw : Json.Map φ} {checked : Except Invalid Unit} {recorded : Except String Unit}
    (hkeeps : w.KeepsApart (.propose raw checked recorded)) :
    Pairs (w.propose raw checked recorded) := by
  unfold Configurator.propose
  split
  · rename_i state document replacing hsave
    obtain ⟨proposal, hconsider, hrecorded, hholding, hdocument, -⟩ := State.save_ok hsave
    have hread : Document.parse state.held.raw = .ok state.held.document := by
      rw [hholding]
      exact Proposal.document_of_parse (State.parse_of_consider hconsider)
    have hsame : state.document = proposal.document := by rw [hholding]; rfl
    have hdistinguishes : w.Distinguishes state.document := by
      rw [hsame]
      exact hkeeps proposal hconsider hrecorded
    -- The verification under way is dropped for one of what was saved.
    have hdropped : Pairs { w with verification := none } :=
      hpairs.verifying hpublished (by intro v hv; cases hv) w.replies
    have hpublishing := hdropped.publishing hread hdistinguishes (by intro v hv; cases hv)
    refine hpublishing.verifying (isSome_publishing _ state) ?_ _
    intro v hv
    cases hv
    exact hdocument.trans hsame.symm
  · exact hpairs.holding rfl (hpairs.known hpublished)

theorem ask (hpairs : Pairs w) {v : Verification φ} (hv : w.verification = some v) :
    Pairs { w with
      verification := some { v with asked := true }
      commands := w.commands ++ [.apply v.document v.replacing v.reply] } where
  publishes := hpairs.publishes
  read := hpairs.read
  verified := by
    intro v' hv'
    cases hv'
    exact hpairs.verified v hv
  started := fun _ => hpairs.started (by rw [hv]; rfl)
  running := hpairs.running
  sent := by
    intro command hcommand
    rcases List.mem_append.mp hcommand with hbefore | hlast
    · exact hpairs.sent command hbefore
    · rw [List.mem_singleton.mp hlast]
      exact .inl (hpairs.verified v hv)
  known := hpairs.known
  paired := hpairs.paired

theorem commanded (hpairs : Pairs w) (htaken : w.commanded = some w') : Pairs w' := by
  unfold Configurator.commanded at htaken
  split at htaken
  · rename_i command rest hcommands
    cases htaken
    have hsent : ∀ other ∈ command :: rest, Apart other.document w.state.document := by
      rw [← hcommands]
      exact hpairs.sent
    have hrest : Pairs { w with commands := rest } :=
      ⟨hpairs.publishes, hpairs.read, hpairs.verified, hpairs.started, hpairs.running,
        fun other hother => hsent other (List.mem_cons_of_mem _ hother), hpairs.known,
        hpairs.paired⟩
    rcases hpairs.publishes.turn (.command command) with hcontinues | ⟨_, hcommand, hruns⟩
    · exact hrest.continues hcontinues
    · cases hcommand
      exact hrest.runs hruns (hsent command List.mem_cons_self)
  · cases htaken

theorem drive (hpairs : Pairs w) {turn : Driver.Turn φ} (htaken : w.drive turn = some w') :
    Pairs w' := by
  have hother (hturn : ∀ command, turn ≠ .command command)
      (htaken : (w.driver.takeTurn turn).map (fun driver => { w with driver := driver }) =
        some w') : Pairs w' := by
    obtain ⟨driver, hdriver, rfl⟩ := Option.map_eq_some_iff.mp htaken
    obtain ⟨-, rfl⟩ := Driver.takeTurn_some hdriver
    rcases hpairs.publishes.turn turn with hcontinues | ⟨command, hcommand, -⟩
    · exact hpairs.continues hcontinues
    · exact absurd hcommand (hturn command)
  cases turn with
  | command command => cases htaken
  | observed observation => exact hother (by intro command hcommand; cases hcommand) htaken
  | ended work internal => exact hother (by intro command hcommand; cases hcommand) htaken

/-- Every step keeps the invariant, where it keeps configurations apart. -/
theorem take [ToString φ] (hpairs : Pairs w) {step : Step φ} (hkeeps : w.KeepsApart step)
    (htaken : w.take step = some w') : Pairs w' := by
  cases step with
  | start => exact hpairs.start hkeeps htaken
  | propose raw checked recorded =>
      simp only [Configurator.take] at htaken
      split at htaken
      · rename_i hpublished
        cases htaken
        exact hpairs.propose hpublished hkeeps
      · cases htaken
  | ask =>
      simp only [Configurator.take] at htaken
      split at htaken
      · rename_i v hv
        split at htaken
        · cases htaken
        · cases htaken
          exact hpairs.ask hv
      · cases htaken
  | settled =>
      simp only [Configurator.take] at htaken
      split at htaken
      · rename_i v hv
        split at htaken
        · obtain ⟨verdict, -, rfl⟩ := Option.map_eq_some_iff.mp htaken
          have hstarted := hpairs.started (by rw [hv]; rfl)
          have hheld := (w.state.settle_held verdict).2
          refine (hpairs.holding hheld (hpairs.known hstarted)).verifying
            (isSome_publishing w _) ?_ w.replies
          intro v' hv'
          cases hv'
        · cases htaken
      · cases htaken
  | observed =>
      simp only [Configurator.take] at htaken
      split at htaken
      · rename_i hpublished
        cases htaken
        exact hpairs.holding rfl (hpairs.known hpublished)
      · cases htaken
  | commanded => exact hpairs.commanded htaken
  | driver turn => exact hpairs.drive htaken

end Pairs

end Configurator

/-- The configurator and the driver start with nothing to tell apart. -/
theorem Configurator.initial_pairs [BEq φ] {shared : Shared φ} {w : Configurator φ}
    (hinitial : Configurator.Initial shared w) : Configurator.Pairs w := by
  obtain ⟨recorded, fallback, hload, ⟨radios, selector, hnew, hdriver⟩, hverification,
    hpublished, hcommands, -⟩ := hinitial
  have hnone : w.driver.states = none := by rw [hdriver]; rfl
  refine ⟨?_, State.document_of_load hload, ?_, ?_, ?_, ?_, ?_, ?_⟩
  · rw [hdriver]
    exact Driver.new_publishes hnew
  · intro v hv
    rw [hverification] at hv
    cases hv
  · intro hverifying
    rw [hverification] at hverifying
    cases hverifying
  · intro hknown
    rw [hnone] at hknown
    cases hknown
  · intro command hcommand
    rw [hcommands] at hcommand
    split at hcommand
    · cases hcommand
    · rw [List.mem_singleton.mp hcommand]
      exact .inl rfl
  · intro hknown
    rw [hpublished] at hknown
    cases hknown
  · intro published hfirst
    rw [hpublished] at hfirst
    cases hfirst

/-- In the runs that keep configurations apart, every snapshot published pairs the
configuration held with its own candidates' states. -/
theorem configuring_paired [BEq φ] [ToString φ] {shared : Shared φ} {w : Configurator φ}
    (hreach : ((configuring shared).guarded Configurator.KeepsApart).Reachable w) :
    ∀ published, w.published = some published → Paired published := by
  have hpairs : Configurator.Pairs w := by
    refine hreach.invariant ?_ ?_
    · intro w hinitial
      exact Configurator.initial_pairs hinitial
    · intro w step w' _ hpairs htaken
      exact hpairs.take htaken.1 htaken.2
  exact hpairs.paired

/-! ## One candidate for another -/

/-- A device with two wired ports, on which everything renders. -/
def portsShared : Shared Nat where
  hardware := { wired := ["eth0", "eth1"], radios := [] }
  render _ _ := .ok none
  capabilities _ := twoPorts.capabilities
  reading := { network := fun _ => none, address := fun _ => none }

/-- That device as it starts, holding a candidate on the first port by default. -/
def onFirstPort : Option (Configurator Nat) :=
  (State.load (.ok none) (dynamicDocument ["eth0"])).toOption.bind fun state =>
    (Selector.new portsShared.hardware
      { attachments := [], hotspot := none, regulatoryDomain := none }).toOption.map
      fun selector => {
        state := state
        verification := none
        published := none
        driver := .new portsShared [] selector
        commands := if state.outcome = .verifying then [] else [.restore state.document 0]
        replies := 1 }

/-- The configuration held is restored. -/
def restoring : List (Configurator.Step Nat) :=
  [.commanded,
    .driver (.ended (.applying 1 [])
      (.applied (.ok { regdom := false, iwdConfig := false }) 1 []))]

/-- A candidate on the second port is proposed in place of the one held. -/
def proposed : Configurator.Step Nat :=
  .propose (dynamicDocument ["eth1"]) (.ok ()) (.ok ())

/-- That device starts so. -/
theorem onFirstPort_initial {w : Configurator Nat} (hstart : onFirstPort = some w) :
    Configurator.Initial portsShared w := by
  obtain ⟨state, hload, hrest⟩ := Option.bind_eq_some_iff.mp hstart
  obtain ⟨selector, hnew, rfl⟩ := Option.map_eq_some_iff.mp hrest
  have hof {α : Type} {result : Except Invalid α} {a : α}
      (hresult : result.toOption = some a) : result = .ok a := by
    cases result with
    | error invalid => cases hresult
    | ok b => exact congrArg Except.ok (Option.some.inj hresult)
  exact ⟨.ok none, dynamicDocument ["eth0"], hof hload, ⟨[], selector, hof hnew, rfl⟩, rfl, rfl,
    rfl, rfl⟩

/-- Where steps of that device lead. -/
theorem onFirstPort_run {steps : List (Configurator.Step Nat)} {p : Configurator Nat → Bool}
    (hrun : ((onFirstPort.bind fun w =>
      Transition.System.run Configurator.take w steps).any p) = true) :
    ∃ start w, Configurator.Initial portsShared start ∧
      Transition.System.run Configurator.take start steps = some w ∧ p w = true := by
  obtain ⟨w, hrun, hp⟩ := (Option.any_eq_true _ _).mp hrun
  obtain ⟨start, hstart, hrun⟩ := Option.bind_eq_some_iff.mp hrun
  exact ⟨start, w, onFirstPort_initial hstart, hrun, hp⟩

/-- Whether what is published carries states, computed of a candidate on the first
port, beside a configuration with none there. -/
def mispaired (w : Configurator Nat) : Bool :=
  w.published.any fun published =>
    published.snapshot.attachments.isSome &&
      (published.computedFor.any fun document =>
        document.attachments.any fun attachment => attachment.label == "eth0") &&
      (Document.parse published.snapshot.held.document).toOption.any fun document =>
        !document.attachments.any fun attachment => attachment.label == "eth0"

/-- The candidate held changes port; until the driver catches up, what is published
pairs the new one with the state of the old. -/
theorem proposed_not_paired :
    ¬ ∀ w : Configurator Nat, (configuring portsShared).Reachable w →
      ∀ published, w.published = some published → Paired published := by
  intro hpaired
  have hrun : ((onFirstPort.bind fun w => Transition.System.run Configurator.take w
      (restoring ++ [.start, proposed])).any mispaired) = true := by
    decide
  obtain ⟨start, w, hinitial, hrun, hmispaired⟩ := onFirstPort_run hrun
  have hreach : (configuring portsShared).Reachable w :=
    Transition.System.Reachable.of_run (.start hinitial) (fun _ _ _ _ htake => htake) hrun
  obtain ⟨published, hpublished, hmispaired⟩ := (Option.any_eq_true _ _).mp hmispaired
  simp only [Bool.and_eq_true, Option.isSome_iff_exists] at hmispaired
  obtain ⟨⟨⟨entries, hentries⟩, hcomputed⟩, hheld⟩ := hmispaired
  obtain ⟨document, hparse, -, hof⟩ := hpaired w hreach published hpublished entries hentries
  rcases hof with ⟨hnone, -⟩ | ⟨hsome, -⟩
  · rw [hnone] at hcomputed
    cases hcomputed
  · rw [hsome, Option.any_some] at hcomputed
    rw [hparse, Except.toOption, Option.any_some, hcomputed] at hheld
    cases hheld

/-- What is restored is published of as the configurator starts. -/
theorem configuring_paired_restored : ∃ (w : Configurator Nat) (published : Published Nat),
    w.published = some published ∧ published.snapshot.attachments.isSome = true ∧
      Paired published := by
  have hrun : ((onFirstPort.bind fun w => Transition.System.run Configurator.take w
      restoring).any fun w => w.driver.states.isSome && w.start.any fun next =>
        next.published.any fun published => published.snapshot.attachments.isSome) = true := by
    decide
  obtain ⟨start, w, hinitial, hrun, hstarts⟩ := onFirstPort_run hrun
  simp only [Bool.and_eq_true, Option.any_eq_true] at hstarts
  obtain ⟨hknown, next, hnext, published, hpublished, hattachments⟩ := hstarts
  have hfree : ∀ step ∈ restoring, ∀ w : Configurator Nat, w.KeepsApart step := by
    intro step hstep w
    simp only [restoring, List.mem_cons, List.not_mem_nil, or_false] at hstep
    rcases hstep with rfl | rfl <;> exact trivial
  have hreach := Transition.System.Reachable.of_run
    (M := (configuring portsShared).guarded Configurator.KeepsApart) (.start hinitial)
    (fun step hstep w w' htake => ⟨hfree step hstep w, htake⟩) hrun
  have hstart : w.KeepsApart .start := by
    intro hnone
    rw [hnone] at hknown
    cases hknown
  exact ⟨next, published, hpublished, hattachments,
    configuring_paired (.next (a := .start) hreach ⟨hstart, hnext⟩) published hpublished⟩

end Bliti.Network.Session
