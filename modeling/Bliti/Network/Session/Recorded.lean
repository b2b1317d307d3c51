import Bliti.Library.Transition
import Bliti.Network.Session.Store

/-!
# The configuration session - what survives a restart

The configurator over the life of a device: proposals saved or refused, verdicts
arriving, and the daemon cut off at any point and started again from the file it
records to.  A write of the file replaces it or leaves it as it was.

Main results:

- Theorem `recording_faithful`: what each step of a run leaves of the
  configuration held and of the file.
-/

namespace Bliti.Network.Session

open Channel Channel.Config

variable {φ : Type}

/-! ## The device -/

/-- A verification under way, with how many proposals had been saved once the
one it verifies was. -/
structure Verifying (φ : Type) where
  document : Document φ
  replacing : Document φ
  number : Nat

/-- The configurator while the daemon is up. -/
structure Live (φ : Type) where
  state : State φ
  verification : Option (Verifying φ)

/-- A proposal recorded: what it was, the document held before it, and whether
the verdict of the one before it had yet to come. -/
structure Saving (φ : Type) where
  document : Json.Map φ
  before : Document φ
  waiting : Bool

/-- The configuration the last proposal saved is judged against: what the first
was of those each saved before the verdict of the one before it. -/
def baseline : List (Saving φ) → Option (Document φ)
  | [] => none
  | saving :: earlier => if saving.waiting then baseline earlier else some saving.before

/-- A device: the file, the configurator where the daemon is up, the proposals
recorded with the latest first, and those whose verdict was recorded. -/
structure Device (φ : Type) where
  file : Option (File φ)
  live : Option (Live φ)
  savings : List (Saving φ)
  judged : List Nat

/-- How a write of the file goes: it ends, or the daemon is cut off within it. -/
inductive Write where
  | ended (recorded : Except String Unit)
  | cut (landed : Bool)

/-- What may happen to a device. -/
inductive Device.Step (φ : Type) where
  | start (unreadable : Option String) (fallback : Json.Map φ) (restored : Except Failure Unit)
  | propose (backend : Backend φ) (raw : Json.Map φ) (write : Write)
  | settle (verdict : Except Failure Unit) (write : Write)
  | crash

/-- The recording of a proposal, of a configurator about to make it. -/
def Live.saving (live : Live φ) (raw : Json.Map φ) : Saving φ where
  document := raw
  before := live.state.document
  waiting := live.verification.isSome

/-- The state once it was to be put in force. -/
def State.restore (s : State φ) : Except Failure Unit → State φ
  | .ok () => s
  | .error failure => s.cannotRun failure

/-- The configurator once it has put in force what it loaded, or set out to
verify it again. -/
def Live.ofState (state : State φ) (restored : Except Failure Unit) (number : Nat) : Live φ :=
  if state.outcome = .verifying then
    { state := state
      verification := some {
        document := state.document
        replacing := state.replacedDocument
        number := number } }
  else { state := state.restore restored, verification := none }

namespace Device

/-- A device with a proposal recorded. -/
def saved (d : Device φ) (live : Live φ) (proposal : Proposal φ) : Device φ :=
  { d with
    file := some (.ok (live.state.storedNext proposal).toJson)
    savings := live.saving proposal.raw :: d.savings }

/-- A device with a verdict recorded. -/
def judge (d : Device φ) (state : State φ) (number : Nat) : Device φ :=
  { d with
    file := some (.ok state.storedNow.toJson)
    judged := number :: d.judged }

/-- A device once a proposal is answered. -/
def answered (d : Device φ) (live : Live φ) :
    Except Invalid (State φ × Document φ × Document φ) → Device φ
  | .ok (state, document, replacing) =>
      { d.saved live state.held with
        live := some {
          state := state
          verification := some {
            document := document
            replacing := replacing
            number := d.savings.length + 1 } } }
  | .error _ => d

/-- The configurator starts, from what was recorded or a fallback. -/
def start (d : Device φ) (unreadable : Option String) (fallback : Json.Map φ)
    (restored : Except Failure Unit) : Option (Device φ) :=
  match State.load (load d.file unreadable) fallback with
  | .ok state => some { d with live := some (Live.ofState state restored d.savings.length) }
  | .error _ => none

/-- The verification under way ends. -/
def settle (d : Device φ) (live : Live φ) (v : Verifying φ)
    (verdict : Except Failure Unit) : Write → Device φ
  | .ended (.ok ()) =>
      { d.judge (live.state.settle verdict) v.number with
        live := some { state := live.state.settle verdict, verification := none } }
  | .ended (.error _) =>
      { d with live := some { state := live.state.settle verdict, verification := none } }
  | .cut landed =>
      if landed then { d.judge (live.state.settle verdict) v.number with live := none }
      else { d with live := none }

/-- A device on which nothing was ever recorded: whatever the file is, no record
is read from it. -/
structure Initial (d : Device φ) : Prop where
  file : ∀ stored, load d.file none ≠ .ok (some stored)
  live : d.live = none
  savings : d.savings = []
  judged : d.judged = []

variable [BEq φ] [ToString φ]

/-- A client proposes a document. -/
def propose (d : Device φ) (live : Live φ) (backend : Backend φ) (raw : Json.Map φ) :
    Write → Device φ
  | .ended recorded => d.answered live (live.state.save backend raw recorded)
  | .cut landed =>
      match State.consider backend raw with
      | .ok proposal =>
          if landed then { d.saved live proposal with live := none }
          else { d with live := none }
      | .error _ => d

/-- Take a step, where it can be taken. -/
def take (d : Device φ) : Step φ → Option (Device φ)
  | .start unreadable fallback restored =>
      match d.live with
      | none => d.start unreadable fallback restored
      | some _ => none
  | .propose backend raw write => d.live.map fun live => d.propose live backend raw write
  | .settle verdict write =>
      match d.live with
      | some live => live.verification.map fun v => d.settle live v verdict write
      | none => none
  | .crash => some { d with live := none }

end Device

/-- A device over its life. -/
def recording (φ : Type) [BEq φ] [ToString φ] :
    Transition.System (Device φ) (Device.Step φ) :=
  .ofTake Device.Initial Device.take

/-! ## What a device keeps -/

/-- A proposal that is what its own raw document reads as. -/
def Proposal.IsRead (p : Proposal φ) : Prop :=
  Proposal.parse p.raw = .ok p

/-- What is read of a raw document is read of the one it keeps. -/
theorem isRead_of_parse {raw : Json.Map φ} {p : Proposal φ}
    (hparse : Proposal.parse raw = .ok p) : p.IsRead := by
  unfold Proposal.IsRead
  rw [State.parse_raw hparse, hparse]

/-- The document of a proposal is what its raw document reads as. -/
theorem Proposal.IsRead.document {p : Proposal φ} (hread : p.IsRead) :
    Document.parse p.raw = .ok p.document := by
  unfold IsRead parse at hread
  obtain ⟨document, hdocument, hp⟩ := Fallible.bind_ok.mp hread
  rw [hdocument, ← Fallible.pure_ok.mp hp]

/-- The record made last: of the last proposal saved, with what that one is to be
judged against until its verdict is recorded. -/
structure Stored.Stands (stored : Stored φ) (savings : List (Saving φ)) (judged : List Nat) :
    Prop where
  document : savings.head?.map (·.document) = some stored.document
  held : ∃ held : Proposal φ, Proposal.parse stored.document = .ok held
  verifying : stored.outcome = .verifying → savings.length ∉ judged ∧
    ∃ replaced : Proposal φ, replaced.IsRead ∧ stored.replaced = some replaced.raw ∧
      baseline savings = some replaced.document
  settled : stored.outcome ≠ .verifying → savings.length ∈ judged ∧ stored.replaced = none

/-- A verification of the configuration held, the last one saved, against what
that is to be judged against. -/
structure Verifying.Stands (v : Verifying φ) (state : State φ) (savings : List (Saving φ))
    (judged : List Nat) : Prop where
  outcome : state.outcome = .verifying
  number : v.number = savings.length
  unjudged : savings.length ∉ judged
  document : v.document = state.document
  saved : savings.head?.map (·.document) = some state.held.raw
  replaced : ∃ replaced : Proposal φ, replaced.IsRead ∧ state.replaced = some replaced ∧
    v.replacing = replaced.document
  baseline : baseline savings = some v.replacing

/-- A configurator that verifies the configuration it holds while that is unjudged. -/
structure Live.Stands (live : Live φ) (savings : List (Saving φ)) (judged : List Nat) :
    Prop where
  held : live.state.held.IsRead
  verifying : ∀ v, live.verification = some v → v.Stands live.state savings judged
  settled : live.verification = none → live.state.outcome ≠ .verifying

/-- What a device keeps over its life. -/
structure Device.Stands (d : Device φ) : Prop where
  unsaved : d.savings = [] → ∀ stored, load d.file none ≠ .ok (some stored)
  recorded : d.savings ≠ [] → ∃ stored : Stored φ,
    d.file = some (.ok stored.toJson) ∧ stored.Stands d.savings d.judged
  live : ∀ live, d.live = some live → live.Stands d.savings d.judged
  once : d.judged.Nodup
  numbered : ∀ n ∈ d.judged, n ≤ d.savings.length

/-- A device cut off keeps its file. -/
theorem Device.Stands.crash {d : Device φ} (hstands : d.Stands) :
    Device.Stands { d with live := none } where
  unsaved := hstands.unsaved
  recorded := hstands.recorded
  live := by simp
  once := hstands.once
  numbered := hstands.numbered

/-- A device keeps what it keeps with a configurator that does. -/
theorem Device.Stands.withLive {d : Device φ} {live : Live φ} (hstands : d.Stands)
    (hlive : live.Stands d.savings d.judged) :
    Device.Stands { d with live := some live } where
  unsaved := hstands.unsaved
  recorded := hstands.recorded
  live := by
    intro other hother
    rw [← Option.some.inj hother]
    exact hlive
  once := hstands.once
  numbered := hstands.numbered

/-! ## Saving a proposal -/

/-- The configuration a proposal is to be judged against is the baseline of the
proposals saved, with it. -/
theorem Live.Stands.baseline_saved {live : Live φ} {savings : List (Saving φ)}
    {judged : List Nat} (hlive : live.Stands savings judged) (raw : Json.Map φ) :
    live.state.judgedAgainst.IsRead ∧
      baseline (live.saving raw :: savings) = some live.state.judgedAgainst.document := by
  rcases hverification : live.verification with _ | v
  · have houtcome := hlive.settled hverification
    have hagainst : live.state.judgedAgainst = live.state.held := by
      unfold State.judgedAgainst
      split
      · contradiction
      · rfl
    rw [hagainst]
    exact ⟨hlive.held, by simp [baseline, Live.saving, hverification, State.document]⟩
  · have hv := hlive.verifying v hverification
    obtain ⟨replaced, hread, hreplaced, hreplacing⟩ := hv.replaced
    have hagainst : live.state.judgedAgainst = replaced := by
      simp [State.judgedAgainst, hv.outcome, hreplaced]
    rw [hagainst]
    exact ⟨hread, by simp [baseline, Live.saving, hverification, hv.baseline, hreplacing]⟩

/-- A device with a proposal recorded, and verified where the daemon is up. -/
theorem Device.Stands.saved {d : Device φ} {live : Live φ} {proposal : Proposal φ}
    (hstands : d.Stands) (hlive : live.Stands d.savings d.judged) (hread : proposal.IsRead) :
    Device.Stands { d.saved live proposal with live := none } ∧
      Live.Stands
        { state := live.state.holding proposal
          verification := some {
            document := proposal.document
            replacing := live.state.judgedAgainst.document
            number := d.savings.length + 1 } }
        (d.saved live proposal).savings (d.saved live proposal).judged := by
  obtain ⟨hagainst, hbaseline⟩ := hlive.baseline_saved proposal.raw
  have hunjudged : d.savings.length + 1 ∉ d.judged := by
    intro hmem
    have hle := hstands.numbered _ hmem
    omega
  constructor
  · constructor
    · intro hnil
      exact absurd hnil (List.cons_ne_nil _ _)
    · intro _
      refine ⟨live.state.storedNext proposal, rfl, ?_⟩
      constructor
      · rfl
      · exact ⟨proposal, hread⟩
      · intro _
        exact ⟨hunjudged, live.state.judgedAgainst, hagainst, rfl, hbaseline⟩
      · intro hsettled
        exact absurd rfl hsettled
    · simp
    · exact hstands.once
    · intro n hn
      have hle := hstands.numbered n hn
      simp only [Device.saved, List.length_cons]
      omega
  · constructor
    · exact hread
    · intro v hv
      rw [← Option.some.inj hv]
      exact {
        outcome := rfl
        number := rfl
        unjudged := hunjudged
        document := rfl
        saved := rfl
        replaced := ⟨live.state.judgedAgainst, hagainst, rfl, rfl⟩
        baseline := hbaseline }
    · intro hnone
      cases hnone

/-- What is considered is read. -/
theorem State.consider_isRead [BEq φ] [ToString φ] {backend : Backend φ} {raw : Json.Map φ}
    {proposal : Proposal φ} (hconsider : consider backend raw = .ok proposal) :
    proposal.IsRead := by
  unfold consider at hconsider
  obtain ⟨other, hparse, hrest⟩ := Fallible.bind_ok.mp hconsider
  have hsame : other = proposal := by
    cases hadmits : Capabilities.admits other.raw backend.capabilities with
    | error refused => simp [hadmits, bind, Except.bind] at hrest
    | ok _ =>
        cases hcheck : backend.check other.document with
        | error invalid => simp [hadmits, hcheck, bind, Except.bind] at hrest
        | ok _ =>
            simpa [hadmits, hcheck, bind, Except.bind, pure, Except.pure] using hrest
  rw [← hsame]
  exact isRead_of_parse hparse

/-- A proposal refused leaves a device as it was, and one saved is recorded and
then verified. -/
theorem Device.answered_cases [BEq φ] [ToString φ] (d : Device φ) (live : Live φ)
    (backend : Backend φ) (raw : Json.Map φ) (recorded : Except String Unit) :
    ((∃ invalid, live.state.save backend raw recorded = .error invalid) ∧
      d.answered live (live.state.save backend raw recorded) = d) ∨
    ∃ proposal, State.consider backend raw = .ok proposal ∧
      d.answered live (live.state.save backend raw recorded) =
        { d.saved live proposal with
          live := some {
            state := live.state.holding proposal
            verification := some {
              document := proposal.document
              replacing := live.state.judgedAgainst.document
              number := d.savings.length + 1 } } } := by
  rcases hsave : live.state.save backend raw recorded with invalid | ⟨state, document, replacing⟩
  · exact .inl ⟨⟨invalid, rfl⟩, rfl⟩
  · right
    obtain ⟨proposal, hconsider, -, rfl, rfl, rfl⟩ := State.save_ok hsave
    exact ⟨proposal, hconsider, rfl⟩

/-- A proposal keeps what a device keeps. -/
theorem Device.Stands.propose [BEq φ] [ToString φ] {d : Device φ} {live : Live φ}
    (hstands : d.Stands) (hlive : live.Stands d.savings d.judged) (backend : Backend φ)
    (raw : Json.Map φ) (write : Write) : (d.propose live backend raw write).Stands := by
  cases write with
  | ended recorded =>
      change (d.answered live (live.state.save backend raw recorded)).Stands
      rcases d.answered_cases live backend raw recorded with ⟨-, hkept⟩ | ⟨proposal, hok, hsaved⟩
      · rw [hkept]
        exact hstands
      · rw [hsaved]
        obtain ⟨hdown, hup⟩ := hstands.saved hlive (State.consider_isRead hok)
        exact hdown.withLive hup
  | cut landed =>
      unfold Device.propose
      cases hconsider : State.consider backend raw with
      | error invalid => exact hstands
      | ok proposal =>
          cases landed with
          | true => exact (hstands.saved hlive (State.consider_isRead hconsider)).1
          | false => exact hstands.crash

/-! ## Recording a verdict -/

/-- What is recorded of a verdict on a document. -/
def Stored.ofVerdict (document : Json.Map φ) : Except Failure Unit → Stored φ
  | .ok () => { document := document, outcome := .applied, failure := none, replaced := none }
  | .error failure =>
      { document := document, outcome := .failed, failure := some failure, replaced := none }

/-- A verdict is recorded of the configuration held. -/
theorem State.storedNow_settle (state : State φ) (verdict : Except Failure Unit) :
    (state.settle verdict).storedNow = Stored.ofVerdict state.held.raw verdict := by
  cases verdict <;> rfl

/-- A verdict settles. -/
theorem Stored.ofVerdict_outcome (document : Json.Map φ) (verdict : Except Failure Unit) :
    (ofVerdict document verdict).outcome ≠ .verifying := by
  cases verdict <;> simp [ofVerdict]

/-- A configurator whose verification ended. -/
theorem Live.Stands.settle {live : Live φ} {savings : List (Saving φ)} {judged : List Nat}
    (hlive : live.Stands savings judged) (verdict : Except Failure Unit) (after : List Nat) :
    Live.Stands { state := live.state.settle verdict, verification := none } savings after := by
  constructor
  · simpa [(State.settle_held live.state verdict).2] using hlive.held
  · intro v hv
    cases hv
  · intro _
    cases verdict <;> simp [State.settle]

/-- A device with a verdict recorded, of the configuration it was reached on. -/
theorem Device.Stands.judge {d : Device φ} {live : Live φ} {v : Verifying φ}
    (hstands : d.Stands) (hlive : live.Stands d.savings d.judged)
    (hv : live.verification = some v) (verdict : Except Failure Unit) :
    Device.Stands { d.judge (live.state.settle verdict) v.number with live := none } := by
  have hverifying := hlive.verifying v hv
  have hsome : d.savings ≠ [] := by
    intro hnil
    simpa [hnil] using hverifying.saved
  constructor
  · intro hnil
    exact absurd hnil hsome
  · intro _
    refine ⟨(live.state.settle verdict).storedNow, rfl, ?_⟩
    rw [State.storedNow_settle]
    constructor
    · cases verdict <;> exact hverifying.saved
    · cases verdict <;> exact ⟨live.state.held, hlive.held⟩
    · intro houtcome
      exact absurd houtcome (Stored.ofVerdict_outcome _ _)
    · intro _
      refine ⟨?_, by cases verdict <;> rfl⟩
      change d.savings.length ∈ v.number :: d.judged
      simp [hverifying.number]
  · simp
  · change (v.number :: d.judged).Nodup
    rw [hverifying.number]
    exact List.nodup_cons.mpr ⟨hverifying.unjudged, hstands.once⟩
  · intro n hn
    rcases List.mem_cons.mp hn with hnew | hold
    · rw [hnew, hverifying.number]
      exact Nat.le_refl _
    · exact hstands.numbered n hold

/-- A verdict keeps what a device keeps. -/
theorem Device.Stands.settle {d : Device φ} {live : Live φ} {v : Verifying φ}
    (hstands : d.Stands) (hlive : live.Stands d.savings d.judged)
    (hv : live.verification = some v) (verdict : Except Failure Unit) (write : Write) :
    (d.settle live v verdict write).Stands := by
  match write with
  | .ended (.ok ()) =>
      exact (hstands.judge hlive hv verdict).withLive (hlive.settle verdict _)
  | .ended (.error _) => exact hstands.withLive (hlive.settle verdict _)
  | .cut true => exact hstands.judge hlive hv verdict
  | .cut false => exact hstands.crash

/-! ## Starting again -/

/-- The last record stands for a state of the configuration it is of. -/
theorem Stored.Stands.stored {stored : Stored φ} {savings : List (Saving φ)}
    {judged : List Nat} (hstored : stored.Stands savings judged) :
    ∃ state, State.stored stored = .ok state ∧ state.held.IsRead ∧
      state.held.raw = stored.document ∧ state.outcome = stored.outcome ∧
      ∀ replaced : Proposal φ, replaced.IsRead → stored.replaced = some replaced.raw →
        state.replaced = some replaced := by
  obtain ⟨held, hheld⟩ := hstored.held
  have hraw := State.parse_raw hheld
  have hread := isRead_of_parse hheld
  by_cases houtcome : stored.outcome = .verifying
  · obtain ⟨-, replaced, hreplaced, hrecorded, -⟩ := hstored.verifying houtcome
    unfold Proposal.IsRead at hreplaced
    refine ⟨_, by simp only [State.stored, hheld, hrecorded, hreplaced, bind, Except.bind,
      pure, Except.pure]; rfl, hread, hraw, rfl, ?_⟩
    intro other hother hsame
    unfold Proposal.IsRead at hother
    rw [hrecorded, Option.some.injEq] at hsame
    rw [← hsame, hreplaced, Except.ok.injEq] at hother
    rw [hother]
  · have hnone := (hstored.settled houtcome).2
    refine ⟨_, by simp only [State.stored, hheld, hnone, bind, Except.bind,
      pure, Except.pure]; rfl, hread, hraw, rfl, ?_⟩
    intro other _ hsame
    rw [hnone] at hsame
    cases hsame

/-- Whether or not it is put in force, a configuration is held. -/
theorem State.restore_held (state : State φ) (restored : Except Failure Unit) :
    (state.restore restored).held = state.held := by
  cases restored <;> rfl

/-- A settled configuration stays so, whether or not it is put in force. -/
theorem State.restore_outcome {state : State φ} (restored : Except Failure Unit)
    (houtcome : state.outcome ≠ .verifying) : (state.restore restored).outcome ≠ .verifying := by
  cases restored with
  | ok _ => exact houtcome
  | error failure => simp [restore, cannotRun]

/-- The configuration loaded is held. -/
theorem Live.ofState_held (state : State φ) (restored : Except Failure Unit) (number : Nat) :
    (ofState state restored number).state.held = state.held := by
  unfold ofState
  split
  · rfl
  · exact State.restore_held state restored

/-- It is being verified where it was. -/
theorem Live.ofState_outcome (state : State φ) (restored : Except Failure Unit) (number : Nat) :
    (ofState state restored number).state.outcome = .verifying ↔ state.outcome = .verifying := by
  unfold ofState
  split
  · rfl
  · rename_i houtcome
    exact iff_of_false (State.restore_outcome restored houtcome) houtcome

/-- A configurator that puts in force what it loaded, where that was settled. -/
theorem Live.Stands.ofSettled {state : State φ} {savings : List (Saving φ)}
    {judged : List Nat} (restored : Except Failure Unit) (hread : state.held.IsRead)
    (houtcome : state.outcome ≠ .verifying) :
    (Live.ofState state restored savings.length).Stands savings judged := by
  unfold Live.ofState
  rw [if_neg houtcome]
  constructor
  · rw [State.restore_held]
    exact hread
  · intro v hv
    cases hv
  · intro _
    exact State.restore_outcome restored houtcome

/-- A configurator that loads the last record. -/
theorem Stored.Stands.loaded {stored : Stored φ} {savings : List (Saving φ)}
    {judged : List Nat} (hstored : stored.Stands savings judged) (fallback : Json.Map φ)
    (restored : Except Failure Unit) :
    ∃ state, State.load (.ok (some stored)) fallback = .ok state ∧
      state.held.raw = stored.document ∧ state.outcome = stored.outcome ∧
      (Live.ofState state restored savings.length).Stands savings judged := by
  obtain ⟨state, hstate, hread, hraw, houtcome, hreplaced⟩ := hstored.stored
  refine ⟨state, by simp [State.load, hstate], hraw, houtcome, ?_⟩
  by_cases hverifying : state.outcome = .verifying
  · obtain ⟨hunjudged, replaced, hisread, hrecorded, hbaseline⟩ :=
      hstored.verifying (houtcome ▸ hverifying)
    have hsame := hreplaced replaced hisread hrecorded
    unfold Live.ofState
    rw [if_pos hverifying]
    constructor
    · exact hread
    · intro v hv
      rw [← Option.some.inj hv]
      exact {
        outcome := hverifying
        number := rfl
        unjudged := hunjudged
        document := rfl
        saved := by rw [hraw, hstored.document]
        replaced := ⟨replaced, hisread, hsame, by simp [State.replacedDocument, hsame]⟩
        baseline := by simp [State.replacedDocument, hsame, hbaseline] }
    · intro hnone
      cases hnone
  · exact .ofSettled restored hread hverifying

/-- What a device that has recorded nothing holds is settled. -/
theorem State.ofFallback_ok {fallback : Json.Map φ} {state : State φ}
    (hstate : ofFallback fallback = .ok state) :
    state.held.IsRead ∧ state.held.raw = fallback ∧ state.outcome ≠ .verifying := by
  obtain ⟨held, hheld, hpure⟩ := Fallible.bind_ok.mp hstate
  rw [← Fallible.pure_ok.mp hpure]
  exact ⟨isRead_of_parse hheld, parse_raw hheld, Outcome.noConfusion⟩

/-- Where no record is loaded, the fallback is what is held. -/
theorem State.load_unrecorded {recorded : Except String (Option (Stored φ))}
    (fallback : Json.Map φ) (hnone : ∀ stored, recorded ≠ .ok (some stored)) :
    load recorded fallback = ofFallback fallback := by
  unfold load
  split
  · rename_i stored
    exact absurd rfl (hnone stored)
  · rfl

/-- The last record is still being verified exactly where no verdict on the last
proposal saved was recorded. -/
theorem Stored.Stands.verifying_iff {stored : Stored φ} {savings : List (Saving φ)}
    {judged : List Nat} (hstored : stored.Stands savings judged) :
    stored.outcome = .verifying ↔ savings.length ∉ judged := by
  constructor
  · intro houtcome
    exact (hstored.verifying houtcome).1
  · intro hunjudged
    by_cases houtcome : stored.outcome = .verifying
    · exact houtcome
    · exact absurd (hstored.settled houtcome).1 hunjudged

/-- A start that reads the record holds what was recorded last, and verifies it
where no verdict on it was recorded. -/
theorem Device.Stands.start_read {d d' : Device φ} (hstands : d.Stands)
    {fallback : Json.Map φ} {restored : Except Failure Unit} (hsavings : d.savings ≠ [])
    (hstart : d.start none fallback restored = some d') :
    ∃ live, d' = { d with live := some live } ∧ live.Stands d.savings d.judged ∧
      d.savings.head?.map (·.document) = some live.state.held.raw ∧
      (live.state.outcome = .verifying ↔ d.savings.length ∉ d.judged) := by
  obtain ⟨stored, hfile, hstored⟩ := hstands.recorded hsavings
  obtain ⟨state, hload, hraw, houtcome, hlive⟩ := hstored.loaded fallback restored
  have hloaded : State.load (load d.file none) fallback = .ok state := by
    rw [hfile, load_recorded, hload]
  unfold Device.start at hstart
  rw [hloaded] at hstart
  refine ⟨_, (Option.some.inj hstart).symm, hlive, ?_, ?_⟩
  · rw [Live.ofState_held, hraw, hstored.document]
  · rw [Live.ofState_outcome, houtcome, hstored.verifying_iff]

/-- A start that reads no record holds the fallback, settled. -/
theorem Device.start_unread {d d' : Device φ} {unreadable : Option String}
    {fallback : Json.Map φ} {restored : Except Failure Unit}
    (hnone : ∀ stored, load d.file unreadable ≠ .ok (some stored))
    (hstart : d.start unreadable fallback restored = some d') :
    ∃ live, d' = { d with live := some live } ∧
      live.Stands d.savings d.judged ∧ live.state.held.raw = fallback ∧
      live.state.outcome ≠ .verifying := by
  unfold Device.start at hstart
  rw [State.load_unrecorded fallback hnone] at hstart
  rcases hfallback : State.ofFallback fallback with invalid | state
  · simp [hfallback] at hstart
  · obtain ⟨hread, hraw, houtcome⟩ := State.ofFallback_ok hfallback
    rw [hfallback] at hstart
    refine ⟨_, (Option.some.inj hstart).symm, .ofSettled restored hread houtcome, ?_, ?_⟩
    · rw [Live.ofState_held, hraw]
    · rw [ne_eq, Live.ofState_outcome]
      exact houtcome

/-- A start keeps what a device keeps. -/
theorem Device.Stands.start {d d' : Device φ} (hstands : d.Stands)
    {unreadable : Option String} {fallback : Json.Map φ} {restored : Except Failure Unit}
    (hstart : d.start unreadable fallback restored = some d') : d'.Stands := by
  by_cases hnone : ∀ stored, load d.file unreadable ≠ .ok (some stored)
  · obtain ⟨live, rfl, hlive, -, -⟩ := Device.start_unread hnone hstart
    exact hstands.withLive hlive
  · have hread : unreadable = none := by
      cases unreadable with
      | none => rfl
      | some err => exact absurd (by simp [load]) hnone
    have hsavings : d.savings ≠ [] := by
      intro hnil
      rw [hread] at hnone
      exact hnone (hstands.unsaved hnil)
    rw [hread] at hstart
    obtain ⟨live, rfl, hlive, -, -⟩ := hstands.start_read hsavings hstart
    exact hstands.withLive hlive

/-! ## Runs -/

section Runs

variable [BEq φ] [ToString φ]

/-- A step keeps what a device keeps. -/
theorem Device.Stands.step {d d' : Device φ} {a : Device.Step φ} (hstands : d.Stands)
    (htake : d.take a = some d') : d'.Stands := by
  cases a with
  | start unreadable fallback restored =>
      cases hlive : d.live with
      | none =>
          simp only [Device.take, hlive] at htake
          exact hstands.start htake
      | some live => simp [Device.take, hlive] at htake
  | propose backend raw write =>
      cases hlive : d.live with
      | none => simp [Device.take, hlive] at htake
      | some live =>
          simp only [Device.take, hlive, Option.map_some, Option.some.injEq] at htake
          rw [← htake]
          exact hstands.propose (hstands.live live hlive) backend raw write
  | settle verdict write =>
      cases hlive : d.live with
      | none => simp [Device.take, hlive] at htake
      | some live =>
          cases hv : live.verification with
          | none => simp [Device.take, hlive, hv] at htake
          | some v =>
              simp only [Device.take, hlive, hv, Option.map_some, Option.some.injEq] at htake
              rw [← htake]
              exact hstands.settle (hstands.live live hlive) hv verdict write
  | crash =>
      simp only [Device.take, Option.some.injEq] at htake
      rw [← htake]
      exact hstands.crash

/-- What a device keeps holds over its life. -/
theorem recording_stands {d : Device φ} (hreach : (recording φ).Reachable d) : d.Stands := by
  apply hreach.invariant
  · intro d hinitial
    exact {
      unsaved := fun _ => hinitial.file
      recorded := fun hsome => absurd hinitial.savings hsome
      live := by simp [hinitial.live]
      once := by simp [hinitial.judged]
      numbered := by simp [hinitial.judged] }
  · intro d a d' _ hstands htake
    exact hstands.step htake

/-- What a step leaves of the configuration held and of the file. -/
structure Device.Faithful (d : Device φ) (a : Device.Step φ) (d' : Device φ) : Prop where
  /-- A verdict is on the last proposal saved, held, whose verification gave it. -/
  judged : ∀ verdict write, a = .settle verdict write →
    ∃ live v saving earlier, d.live = some live ∧ live.verification = some v ∧
      d.savings = saving :: earlier ∧ v.number = d.savings.length ∧
      live.state.held.raw = saving.document ∧
      Document.parse saving.document = .ok v.document ∧
      (d'.file = d.file ∧ d'.judged = d.judged ∨
        d'.file = some (.ok (Stored.ofVerdict saving.document verdict).toJson) ∧
          d'.judged = d.savings.length :: d.judged)
  /-- No other step records one, and no proposal saved has two recorded. -/
  judges : d'.judged ≠ d.judged → ∃ verdict write, a = .settle verdict write
  once : d'.judged.Nodup
  /-- A proposal refused changes nothing. -/
  refused : ∀ backend raw recorded live invalid, a = .propose backend raw (.ended recorded) →
    d.live = some live → live.state.save backend raw recorded = .error invalid → d' = d
  /-- A start that can read the file holds the last document recorded, and
  verifies it where no verdict on it was recorded. -/
  restarted : ∀ fallback restored saving earlier, a = .start none fallback restored →
    d.savings = saving :: earlier →
    ∃ live, d' = { d with live := some live } ∧ live.state.held.raw = saving.document ∧
      (live.state.outcome = .verifying ↔ d.savings.length ∉ d.judged)
  /-- A start that cannot holds the fallback, and leaves the file. -/
  unread : ∀ err fallback restored, a = .start (some err) fallback restored →
    ∃ live, d' = { d with live := some live } ∧ live.state.held.raw = fallback ∧
      live.verification = none
  /-- The last proposal saved is verified, and verified again, against the
  configuration that the first of its chain replaced. -/
  verifying : ∀ live, d'.live = some live → live.state.outcome = .verifying →
    ∃ v saving earlier, live.verification = some v ∧ d'.savings = saving :: earlier ∧
      v.number = d'.savings.length ∧ live.state.held.raw = saving.document ∧
      Document.parse saving.document = .ok v.document ∧
      baseline d'.savings = some v.replacing

omit [BEq φ] [ToString φ] in
/-- A configurator that verifies what it holds verifies the last proposal saved. -/
theorem Verifying.Stands.saving {v : Verifying φ} {state : State φ}
    {savings : List (Saving φ)} {judged : List Nat} (hv : v.Stands state savings judged)
    (hread : state.held.IsRead) :
    ∃ saving earlier, savings = saving :: earlier ∧ state.held.raw = saving.document ∧
      Document.parse saving.document = .ok v.document := by
  have hsaved := hv.saved
  cases savings with
  | nil => cases hsaved
  | cons saving earlier =>
      have hraw : saving.document = state.held.raw := Option.some.inj hsaved
      refine ⟨saving, earlier, rfl, hraw.symm, ?_⟩
      rw [hraw, hv.document]
      exact hread.document

omit [BEq φ] [ToString φ] in
/-- A verdict is recorded of the configuration it was reached on, or not at all. -/
theorem Device.settle_records (d : Device φ) (live : Live φ) (v : Verifying φ)
    (verdict : Except Failure Unit) (write : Write) :
    (d.settle live v verdict write).file = d.file ∧
        (d.settle live v verdict write).judged = d.judged ∨
      (d.settle live v verdict write).file =
          some (.ok (Stored.ofVerdict live.state.held.raw verdict).toJson) ∧
        (d.settle live v verdict write).judged = v.number :: d.judged := by
  rw [← State.storedNow_settle]
  match write with
  | .ended (.ok ()) => exact .inr ⟨rfl, rfl⟩
  | .ended (.error _) => exact .inl ⟨rfl, rfl⟩
  | .cut true => exact .inr ⟨rfl, rfl⟩
  | .cut false => exact .inl ⟨rfl, rfl⟩

/-- A proposal records no verdict. -/
theorem Device.propose_judged (d : Device φ) (live : Live φ) (backend : Backend φ)
    (raw : Json.Map φ) (write : Write) :
    (d.propose live backend raw write).judged = d.judged := by
  cases write with
  | ended recorded =>
      change (d.answered live (live.state.save backend raw recorded)).judged = d.judged
      cases live.state.save backend raw recorded <;> rfl
  | cut landed =>
      unfold Device.propose
      cases State.consider backend raw with
      | error invalid => rfl
      | ok proposal => cases landed <;> rfl

/-- Over the life of a device, whatever is proposed, judged and cut off: a verdict
is recorded, once, of the proposal whose verification reached it; a proposal
refused changes nothing; and a start that can read the file holds the last
document recorded, verified again against what it was first judged against. -/
theorem recording_faithful {d d' : Device φ} {a : Device.Step φ}
    (hreach : (recording φ).Reachable d) (hstep : (recording φ).step d a d') :
    d.Faithful a d' := by
  have hstands := recording_stands hreach
  have hafter : d'.Stands := hstands.step hstep
  have htake : d.take a = some d' := hstep
  constructor
  · rintro verdict write rfl
    cases hlive : d.live with
    | none => simp [Device.take, hlive] at htake
    | some live =>
        cases hv : live.verification with
        | none => simp [Device.take, hlive, hv] at htake
        | some v =>
            simp only [Device.take, hlive, hv, Option.map_some, Option.some.injEq] at htake
            have hkept := hstands.live live hlive
            have hverifying := hkept.verifying v hv
            obtain ⟨saving, earlier, hsavings, hraw, hparse⟩ := hverifying.saving hkept.held
            refine ⟨live, v, saving, earlier, rfl, hv, hsavings, hverifying.number, hraw,
              hparse, ?_⟩
            rw [← htake, ← hraw, ← hverifying.number]
            exact d.settle_records live v verdict write
  · intro hchanged
    cases a with
    | start unreadable fallback restored =>
        cases hlive : d.live with
        | some live => simp [Device.take, hlive] at htake
        | none =>
            simp only [Device.take, hlive, Device.start] at htake
            split at htake
            · rw [← Option.some.inj htake] at hchanged
              exact absurd rfl hchanged
            · cases htake
    | propose backend raw write =>
        cases hlive : d.live with
        | none => simp [Device.take, hlive] at htake
        | some live =>
            simp only [Device.take, hlive, Option.map_some, Option.some.injEq] at htake
            rw [← htake, Device.propose_judged] at hchanged
            exact absurd rfl hchanged
    | settle verdict write => exact ⟨verdict, write, rfl⟩
    | crash =>
        rw [← Option.some.inj htake] at hchanged
        exact absurd rfl hchanged
  · exact hafter.once
  · rintro backend raw recorded live invalid rfl hlive hrefused
    simp only [Device.take, hlive, Option.map_some, Option.some.injEq, Device.propose,
      hrefused, Device.answered] at htake
    exact htake.symm
  · rintro fallback restored saving earlier rfl hsavings
    cases hlive : d.live with
    | some live => simp [Device.take, hlive] at htake
    | none =>
        simp only [Device.take, hlive] at htake
        have hsome : d.savings ≠ [] := by simp [hsavings]
        obtain ⟨live, hlast, -, hraw, houtcome⟩ := hstands.start_read hsome htake
        refine ⟨live, hlast, ?_, houtcome⟩
        simpa [hsavings] using hraw.symm
  · rintro err fallback restored rfl
    cases hlive : d.live with
    | some live => simp [Device.take, hlive] at htake
    | none =>
        simp only [Device.take, hlive] at htake
        obtain ⟨live, hlast, hkept, hraw, houtcome⟩ :=
          Device.start_unread (by simp [load]) htake
        refine ⟨live, hlast, hraw, ?_⟩
        rcases hv : live.verification with _ | v
        · rfl
        · exact absurd (hkept.verifying v hv).outcome houtcome
  · intro live hlive houtcome
    have hkept := hafter.live live hlive
    rcases hv : live.verification with _ | v
    · exact absurd houtcome (hkept.settled hv)
    · have hverifying := hkept.verifying v hv
      obtain ⟨saving, earlier, hsavings, hraw, hparse⟩ := hverifying.saving hkept.held
      exact ⟨v, saving, earlier, rfl, hsavings, hverifying.number, hraw, hparse,
        hverifying.baseline⟩

end Runs

/-! ## A file that cannot be read -/

/-- The smallest document. -/
def smallest : Json.Map Nat :=
  [("attachments", .array [])]

/-- The smallest document, with a member no device reads. -/
def annotated : Json.Map Nat :=
  [("attachments", .array []), ("note", .null)]

/-- A device on which nothing was recorded. -/
def blank : Device Nat where
  file := none
  live := none
  savings := []
  judged := []

/-- A device on which one proposal was saved, cut off while it was verified. -/
def interrupted : Device Nat where
  file := some (.ok (Stored.toJson {
    document := smallest
    outcome := .verifying
    failure := none
    replaced := some annotated }))
  live := none
  savings := [{ document := smallest, before := empty, waiting := false }]
  judged := []

/-- A backend that refuses nothing. -/
def permissive : Backend Nat where
  capabilities := []
  check _ := .ok ()

/-- The steps that lead there. -/
def interruption : List (Device.Step Nat) :=
  [.start none annotated (.ok ()), .propose permissive smallest (.ended (.ok ())), .crash]

/-- A device is interrupted so. -/
theorem interrupted_reachable : (recording Nat).Reachable interrupted := by
  have hblank : Device.Initial blank := {
    file := by
      intro stored hload
      cases hload
    live := rfl
    savings := rfl
    judged := rfl }
  have hrun : Transition.System.run Device.take blank interruption = some interrupted := rfl
  exact .of_run (.start hblank) (fun _ _ _ _ htake => htake) hrun

/-- The interrupted device starts again, and verifies what it saved again. -/
theorem recording_faithful_interrupted :
    ∃ d', interrupted.Faithful (.start none annotated (.ok ())) d' ∧
      d'.live.map (fun live => live.verification.isSome) = some true :=
  ⟨_, recording_faithful interrupted_reachable rfl, rfl⟩

/-- A start that cannot read the file does not hold the last document recorded. -/
theorem start_holds_fallback :
    ¬ ∀ (d d' : Device Nat) (unreadable : Option String) (fallback : Json.Map Nat)
      (restored : Except Failure Unit) (saving : Saving Nat) (live : Live Nat),
      (recording Nat).Reachable d →
      (recording Nat).step d (.start unreadable fallback restored) d' →
      d.savings.head? = some saving → d'.live = some live →
      live.state.held.raw = saving.document := by
  intro hclaim
  have hlast := hclaim interrupted _ (some "Input/output error (os error 5)") annotated
    (.ok ()) _ _ interrupted_reachable rfl rfl rfl
  have hlength := congrArg List.length hlast
  cases hlength

end Bliti.Network.Session
