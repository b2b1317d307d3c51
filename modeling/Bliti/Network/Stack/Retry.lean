import Bliti.Network.Select.Changes
import Bliti.Network.Stack.Driver.Evolve

/-!
# The network stack - failed candidates are tried again

A candidate that failed is tried again by a timer, or waits to be once nothing is
pending.  A timer that fires while every interface its candidate could use is
established is dropped and never set again, and configuring the document already
held forgets every timer without noting anew what has failed; the runs in which
neither happens strand no candidate.

Main results:

- Theorem `driving_noneStranded`: the runs that drop no retry strand none.
-/

namespace Bliti.Network.Stack

open Std (ExtTreeMap ExtTreeSet)
open Channel.Config Select Probe

variable {φ : Type}

namespace Driver

/-! ## What is to be tried again -/

/-- A candidate is unavailable past its carrier: the selector holds a failure for
it, and it is otherwise available. -/
def Failing (d : Driver φ) (rank : Nat) : Prop :=
  ∃ fault, d.selector.decision.states[rank]? = some (.unavailable fault) ∧
    fault.reached ≠ .carrier

/-- A candidate is to be tried again: it is noted to have failed, or a retry of
the document configured is outstanding. -/
def TriedAgain (d : Driver φ) (rank : Nat) : Prop :=
  rank ∈ d.failed ∨ ∃ wait, .retry rank d.generation wait ∈ d.work

/-- Where no command is pending, every candidate turned on that failed, is
otherwise available and could go where nothing is established is to be tried
again. -/
def NoneStranded (d : Driver φ) : Prop :=
  d.pending = none → ∀ (rank : Nat) (attachment : Attachment φ) (fault : Fault),
    d.selector.document.attachments[rank]? = some attachment → attachment.enabled = true →
    d.selector.failures[rank]? = some fault → d.selector.Available attachment →
    (∀ interface, d.selector.MayUse attachment interface →
      carriesEstablished d.selector.decision interface = false) →
    d.TriedAgain rank

/-- The invariant: the decision is in force, no failure is of a carrier, and every
candidate unavailable past its carrier is to be tried again, some excepted. -/
structure Tries (excepted : Nat → Prop) (d : Driver φ) : Prop where
  settled : Settled d.selector
  late : ∀ (rank : Nat) (fault : Fault), d.selector.failures[rank]? = some fault →
    fault.reached ≠ .carrier
  tried : ∀ rank, d.Failing rank → excepted rank ∨ d.TriedAgain rank

namespace Tries

variable {excepted : Nat → Prop} {d d' : Driver φ}

/-- The invariant turns on the selection, and what is to be tried again. -/
theorem aside (htries : Tries excepted d) (haside : Aside d d') : Tries excepted d' where
  settled := haside.selector ▸ htries.settled
  late := haside.selector ▸ htries.late
  tried := by
    intro rank hfailing
    unfold Failing at hfailing
    rw [haside.selector] at hfailing
    rcases htries.tried rank hfailing with hexcepted | hnoted | ⟨wait, hwork⟩
    · exact .inl hexcepted
    · exact .inr (.inl (haside.failed ▸ hnoted))
    · exact .inr (.inr ⟨wait, haside.generation ▸ haside.work _ hwork⟩)

/-- What was unavailable for a failure is so for the one remembered. -/
theorem fault_of_failing (hsettled : Settled d.selector) {rank : Nat}
    (hfailing : d.Failing rank) : ∃ fault, d.selector.failures[rank]? = some fault := by
  obtain ⟨fault, hstate, hpast⟩ := hfailing
  obtain ⟨attachment, -, hidle⟩ := hsettled.idleAs rank _ hstate id
  cases hidle with
  | outOfReach reason hon hout => exact absurd rfl hpast
  | failed fault hon hhas hfault => exact ⟨fault, hfault⟩

/-- A candidate that failed and is otherwise available is unavailable past its
carrier. -/
theorem failing_of_fault (htries : Tries excepted d) {rank : Nat} {attachment : Attachment φ}
    {fault : Fault} (hat : d.selector.document.attachments[rank]? = some attachment)
    (hon : attachment.enabled = true) (hfault : d.selector.failures[rank]? = some fault)
    (havailable : d.selector.Available attachment) : d.Failing rank := by
  have hlt : rank < d.selector.decision.states.length := by
    rw [htries.settled.length_states]
    exact (List.getElem?_eq_some_iff.mp hat).1
  obtain ⟨state, hstate⟩ : ∃ state, d.selector.decision.states[rank]? = some state :=
    ⟨_, List.getElem?_eq_getElem hlt⟩
  have hidle : ¬ state.IsLinked := by
    intro hlinked
    obtain ⟨interface, link, hlink, rfl⟩ :=
      (htries.settled.state_iff rank state hstate).mp hlinked
    obtain ⟨_, -, -, hnone, -⟩ := htries.settled.mayLink interface link hlink
    rw [hfault] at hnone
    cases hnone
  obtain ⟨attachment', hat', hidleAs⟩ := htries.settled.idleAs rank state hstate hidle
  obtain rfl : attachment = attachment' := Option.some.inj (hat.symm.trans hat')
  cases hidleAs with
  | off hoff => simp [hon] at hoff
  | outOfReach reason hon hout => exact absurd havailable hout
  | failed fault hon hhas hfault => exact ⟨fault, hstate, htries.late rank fault hfault⟩
  | standby hon hhas hnone =>
      rw [hfault] at hnone
      cases hnone

/-- The invariant, with nothing excepted, strands no candidate. -/
theorem noneStranded (htries : Tries (fun _ => False) d) : d.NoneStranded := by
  intro hpending rank attachment fault hat hon hfault havailable hfree
  have hfailing := htries.failing_of_fault hat hon hfault havailable
  exact (htries.tried rank hfailing).resolve_left id

variable [BEq φ]

/-- An event fed notes what it fails. -/
theorem feed (htries : Tries excepted d) {event : Event} (hpast : PastCarrier event) :
    Tries excepted (d.feed event) := by
  have hfollowed : Followed { d with selector := (d.selector.handle event).1 } (d.feed event)
      (d.selector.handle event).2 :=
    follow_followed _ _
  have hselector : (d.feed event).selector = (d.selector.handle event).1 := hfollowed.selector
  refine ⟨?_, ?_, ?_⟩
  · rw [hselector]
    exact Selector.settle_settled _
  · intro rank fault hfault
    have hkept : (d.selector.handle event).1.failures = (d.selector.observe event).failures :=
      (Selector.settle_keeps _).2.2.2.2
    rw [hselector, hkept] at hfault
    rcases d.selector.failures_observe event hfault with hbefore | ⟨attempt, rfl⟩
    · exact htries.late rank fault hbefore
    · exact hpast
  · intro rank hfailing
    obtain ⟨fault, hstate, hfault⟩ := hfailing
    rw [hselector] at hstate
    rcases d.selector.mem_handle_state event hstate with hbefore | hreported
    · rcases htries.tried rank ⟨fault, hbefore, hfault⟩ with hexcepted | hnoted | ⟨wait, hwork⟩
      · exact .inl hexcepted
      · exact .inr (.inl (hfollowed.failed rank hnoted))
      · refine .inr (.inr ⟨wait, ?_⟩)
        rw [hfollowed.work, hfollowed.generation]
        exact hwork
    · exact .inr (.inl (hfollowed.noted rank fault hreported hfault))

theorem evolves (htries : Tries excepted d) (hevolves : Evolves d d') : Tries excepted d' := by
  induction hevolves with
  | refl => exact htries
  | aside _ haside ih => exact ih.aside haside
  | fed _ hpast ih => exact ih.feed hpast

/-- A candidate being tried again is not unavailable for a failure. -/
theorem feedRetry {candidate : Nat} (htries : Tries (fun rank => rank = candidate) d) :
    Tries (fun _ => False) (d.feed (.retry candidate)) := by
  have hfed : Tries (fun rank => rank = candidate) (d.feed (.retry candidate)) :=
    htries.feed trivial
  refine ⟨hfed.settled, hfed.late, ?_⟩
  intro rank hfailing
  rcases hfed.tried rank hfailing with rfl | htried
  · obtain ⟨fault, hfault⟩ := fault_of_failing hfed.settled hfailing
    have hselector : (d.feed (.retry rank)).selector = (d.selector.handle (.retry rank)).1 :=
      (follow_followed _ _).selector
    rw [hselector, d.selector.failures_retry rank] at hfault
    cases hfault
  · exact .inr htried

end Tries

variable [BEq φ]

/-! ## One turn -/

/-- A turn drops no retry: a retry of the document configured finds its candidate
free to go somewhere, where that candidate is still unavailable, and a document
configured anew is not the one held, where a candidate is. -/
def DropsNone (d : Driver φ) : Turn φ → Prop
  | .ended _ (.retry candidate generation) =>
      generation = d.generation → d.Failing candidate → d.worthRetrying candidate = true
  | .command (.apply document _ _) | .command (.restore document _) =>
      (document == d.selector.document) = true → ∀ rank, ¬ d.Failing rank
  | _ => True

/-- Configuring another document notes every candidate unavailable under it. -/
theorem Tries.configure {d d' : Driver φ} {document : Document φ}
    (htries : Tries (fun _ => False) d)
    (hheld : (document == d.selector.document) = true → ∀ rank, ¬ d.Failing rank)
    (hconfigure : d.configure document = .ok d') : Tries (fun _ => False) d' := by
  obtain ⟨changes, hconfigured⟩ := configure_configured hconfigure
  rcases Selector.configure_cases hconfigured.selected with
    ⟨hsame, hselector, -⟩ | ⟨hsettled, -, -, hreported, hfailures⟩
  · refine ⟨hselector ▸ htries.settled, hselector ▸ htries.late, ?_⟩
    intro rank hfailing
    unfold Failing at hfailing
    rw [hselector] at hfailing
    exact absurd hfailing (hheld hsame rank)
  · refine ⟨hsettled, ?_, ?_⟩
    · intro rank fault hfault
      obtain ⟨old, hold⟩ := hfailures rank fault hfault
      exact htries.late old fault hold
    · intro rank hfailing
      obtain ⟨fault, hstate, hpast⟩ := hfailing
      exact .inr (.inl (hconfigured.noted rank fault (hreported rank _ hstate) hpast))

/-- A retry's wait being over strands no candidate, where its own is free. -/
theorem Tries.retryOver {d : Driver φ} {candidate generation wait : Nat}
    (htries : Tries (fun _ => False) d)
    (hfree : generation = d.generation → d.Failing candidate →
      d.worthRetrying candidate = true) :
    Tries (fun _ => False)
      ({ d with work := d.work.erase (.retry candidate generation wait) }.retryOver candidate
        generation) := by
  have hleft (rank : Nat) (hfailing : d.Failing rank)
      (hother : rank ≠ candidate ∨ generation ≠ d.generation) :
      ({ d with work := d.work.erase (.retry candidate generation wait) } :
        Driver φ).TriedAgain rank := by
    rcases (htries.tried rank hfailing).resolve_left id with hnoted | ⟨wait', hwork⟩
    · exact .inl hnoted
    · refine .inr ⟨wait', (List.mem_erase_of_ne ?_).mpr hwork⟩
      intro hequal
      simp only [Work.retry.injEq] at hequal
      rcases hother with hrank | hgeneration
      · exact hrank hequal.1
      · exact hgeneration hequal.2.1.symm
  have hexcept : Tries (fun rank => rank = candidate)
      ({ d with work := d.work.erase (.retry candidate generation wait) } : Driver φ) := by
    refine ⟨htries.settled, htries.late, ?_⟩
    intro rank hfailing
    by_cases hrank : rank = candidate
    · exact .inl hrank
    · exact .inr (hleft rank hfailing (.inl hrank))
  unfold Driver.retryOver
  split
  · exact hexcept.feedRetry
  · rename_i hdropped
    refine ⟨htries.settled, htries.late, ?_⟩
    intro rank hfailing
    right
    apply hleft rank hfailing
    by_cases hrank : rank = candidate
    · right
      intro hgeneration
      subst hrank
      apply hdropped
      simp only [Bool.and_eq_true, beq_iff_eq]
      exact ⟨hgeneration, hfree hgeneration hfailing⟩
    · exact .inl hrank

/-- A command strands no candidate, where it drops no retry. -/
theorem Tries.command {d : Driver φ} {command : Command φ}
    (htries : Tries (fun _ => False) d) (hdrops : d.DropsNone (.command command)) :
    Tries (fun _ => False) (d.command command) := by
  cases command with
  | apply document replacing reply =>
      unfold Driver.command
      simp only
      split
      · rename_i hconfigure
        have hconfigured := htries.configure hdrops hconfigure
        exact hconfigured.aside ((pending_aside _ _).trans (scanForPending_aside _))
      · exact htries.aside (d.reply_aside _ _)
  | restore document reply =>
      unfold Driver.command
      simp only
      split
      · rename_i hconfigure
        exact (htries.configure hdrops hconfigure).aside (pending_aside _ _)
      · exact htries.aside (d.reply_aside _ _)

/-- What a turn takes in strands no candidate, where it drops no retry. -/
theorem Tries.takeIn {d : Driver φ} {turn : Turn φ} (htries : Tries (fun _ => False) d)
    (hdrops : d.DropsNone turn) (hturn : d.canTurn turn = true) :
    Tries (fun _ => False) (d.takeIn turn) := by
  cases turn with
  | command command => exact htries.command hdrops
  | observed observation => exact htries.evolves (d.observe_evolves observation)
  | ended work internal =>
      by_cases hretry : ∃ candidate generation wait, work = .retry candidate generation wait
      · obtain ⟨candidate, generation, wait, rfl⟩ := hretry
        obtain rfl : internal = .retry candidate generation := by
          simp only [canTurn, Bool.and_eq_true] at hturn
          cases internal <;> simp_all [Work.ends]
        exact htries.retryOver hdrops
      · -- Other work ending takes no retry away.
        have hleft : Tries (fun _ => False) ({ d with work := d.work.erase work } : Driver φ) := by
          refine ⟨htries.settled, htries.late, ?_⟩
          intro rank hfailing
          rcases (htries.tried rank hfailing).resolve_left id with hnoted | ⟨wait, hwork⟩
          · exact .inr (.inl hnoted)
          · refine .inr (.inr ⟨wait, (List.mem_erase_of_ne ?_).mpr hwork⟩)
            intro hequal
            exact hretry ⟨rank, d.generation, wait, hequal.symm⟩
        exact hleft.evolves (internal_evolves _ internal)

omit [BEq φ] in
/-- Each candidate noted is set to be tried again. -/
theorem mem_foldl_retryLater {ranks : List Nat} {rank : Nat} (hrank : rank ∈ ranks)
    (d : Driver φ) :
    ∃ wait, .retry rank d.generation wait ∈ (ranks.foldl retryLater d).work := by
  induction ranks generalizing d with
  | nil => cases hrank
  | cons first rest ih =>
      rcases List.mem_cons.mp hrank with rfl | hrest
      · have haside := Aside.foldl retryLater_aside rest (d.retryLater rank)
        exact ⟨_, haside.work _ (List.mem_append_right _ List.mem_cons_self)⟩
      · exact ih hrest (d.retryLater first)

omit [BEq φ] in
/-- Answering and setting what failed to be tried again strands no candidate. -/
theorem Tries.settle {d : Driver φ} (htries : Tries (fun _ => False) d) :
    Tries (fun _ => False) d.settle := by
  have hanswered := htries.aside d.answer_aside
  unfold Driver.settle
  simp only
  split
  · have haside := Aside.foldl retryLater_aside d.answer.failed.toList
      { d.answer with failed := ∅ }
    refine ⟨by rw [haside.selector]; exact hanswered.settled,
      by rw [haside.selector]; exact hanswered.late, ?_⟩
    intro rank hfailing
    unfold Failing at hfailing
    rw [haside.selector] at hfailing
    right
    right
    rw [haside.generation]
    rcases (hanswered.tried rank hfailing).resolve_left id with hnoted | ⟨wait, hmem⟩
    · exact mem_foldl_retryLater (ExtTreeSet.mem_toList.mpr hnoted) _
    · exact ⟨wait, haside.work _ hmem⟩
  · exact hanswered

/-- A turn strands no candidate, where it drops no retry. -/
theorem Tries.turn {d : Driver φ} {turn : Turn φ} (htries : Tries (fun _ => False) d)
    (hdrops : d.DropsNone turn) (hturn : d.canTurn turn = true) :
    Tries (fun _ => False) (d.turn turn) := by
  have htaken := htries.takeIn hdrops hturn
  exact ((htaken.aside (kick_aside _)).settle).aside (sweep_aside _)

omit [BEq φ] in
/-- The driver starts with nothing to try again. -/
theorem new_tries {shared : Shared φ} {radios : List RadioInfo} {selector : Selector φ}
    (hnew : Selector.new shared.hardware
      { attachments := [], hotspot := none, regulatoryDomain := none } = .ok selector) :
    Tries (fun _ => False) (Driver.new shared radios selector) := by
  obtain ⟨hdocument, -, hfailures⟩ := Selector.new_keeps hnew
  have hsettled := Selector.new_settled hnew
  refine ⟨hsettled, ?_, ?_⟩
  · intro rank fault hfault
    simp [Driver.new, hfailures] at hfault
  · intro rank hfailing
    obtain ⟨fault, hstate, -⟩ := hfailing
    have hlt := (List.getElem?_eq_some_iff.mp hstate).1
    have hlength : selector.decision.states.length = 0 := by
      rw [hsettled.length_states, hdocument]
      rfl
    change rank < selector.decision.states.length at hlt
    omega

end Driver

/-- No run of the driver that drops no retry strands a candidate. -/
theorem driving_noneStranded [BEq φ] {shared : Shared φ} {d : Driver φ}
    (hreach : ((driving shared).guarded Driver.DropsNone).Reachable d) : d.NoneStranded := by
  have htries : Driver.Tries (fun _ => False) d := by
    refine hreach.invariant ?_ ?_
    · intro d hstart
      obtain ⟨radios, selector, hnew, rfl⟩ := hstart
      exact Driver.new_tries hnew
    · intro d turn d' _ htries hstep
      obtain ⟨hdrops, htake⟩ := hstep
      obtain ⟨hturn, rfl⟩ := Driver.takeTurn_some htake
      exact htries.turn hdrops hturn
  exact htries.noneStranded

/-! ## A retry dropped -/

/-- A document of nothing. -/
def nothing : Document Nat where
  attachments := []
  hotspot := none
  regulatoryDomain := none

/-- A leased candidate above one with an address of its own, on one port. -/
def leasedOverStatic : Document Nat where
  attachments := [
    { label := "leased"
      enabled := true
      verify := true
      nameservers := []
      kind := .wiredDynamic "eth0" },
    { label := "static"
      enabled := true
      verify := true
      nameservers := []
      kind := .wiredStatic "eth0" ["192.0.2.9/24"] "192.0.2.1" }]
  hotspot := none
  regulatoryDomain := none

/-- The address of the second candidate. -/
def ownAddress : IpAddr := toLex (false, 0xc0000209)

/-- The gateway of the second candidate. -/
def ownGateway : IpAddr := toLex (false, 0xc0000201)

/-- A device with one wired port, on which everything renders. -/
def portShared : Shared Nat where
  hardware := onePort
  render _ _ := .ok none
  capabilities _ := []
  reading := {
    network := fun text => if text == "192.0.2.9/24" then some ownAddress else none
    address := fun text => if text == "192.0.2.1" then some ownGateway else none }

/-- Its driver as it starts. -/
def portDriver : Option (Driver Nat) :=
  (Selector.new onePort nothing).toOption.map (.new portShared [])

/-- An apply that changed nothing the driver asks after. -/
def appliedWell (taken : Nat) (attempts : List Attempt) : Driver.Turn Nat :=
  .ended (.applying taken attempts)
    (.applied (.ok { regdom := false, iwdConfig := false }) taken attempts)

/-- The document is configured. -/
def configured : Driver.Turn Nat :=
  .command (.apply leasedOverStatic nothing 0)

/-- The first candidate is leased no address, and the second is established on the
port. -/
def secondEstablished : List (Driver.Turn Nat) :=
  [.observed (.carrier "eth0" true),
    appliedWell 1 [],
    appliedWell 2 [⟨1⟩],
    .ended (.deadline ⟨1⟩ 1 LEASE) (.deadline ⟨1⟩ 1),
    appliedWell 3 [⟨2⟩],
    .observed (.address "eth0" ownAddress false true),
    .ended (.probing ⟨2⟩ ownAddress ownGateway) (.probed ⟨2⟩ (.ok ()))]

/-- The first one's retry then fires, and the second loses its address. -/
def retryDropped : List (Driver.Turn Nat) :=
  [.ended (.retry 0 1 RETRY) (.retry 0 1),
    .observed (.address "eth0" ownAddress false false)]

/-- Where turns of that driver lead, the driver started on a selector of a
document of nothing. -/
theorem portDriver_run {turns : List (Driver.Turn Nat)} {p : Driver Nat → Bool}
    (hrun : ((portDriver.bind fun d =>
      Transition.System.run Driver.takeTurn d turns).any p) = true) :
    ∃ selector d, Selector.new onePort nothing = .ok selector ∧
      Transition.System.run Driver.takeTurn (.new portShared [] selector) turns = some d ∧
      p d = true := by
  obtain ⟨d, hrun, hp⟩ := (Option.any_eq_true _ _).mp hrun
  obtain ⟨start, hstart, hrun⟩ := Option.bind_eq_some_iff.mp hrun
  obtain ⟨selector, hnew, rfl⟩ := Option.map_eq_some_iff.mp hstart
  refine ⟨selector, d, ?_, hrun, hp⟩
  rcases hresult : Selector.new onePort nothing with invalid | accepted
  · simp [hresult, Except.toOption] at hnew
  · rw [hresult] at hnew
    exact congrArg Except.ok (Option.some.inj hnew)

/-- Before the retry fires none is dropped, and the first candidate is to be tried
again. -/
theorem driving_noneStranded_retrying : ∃ d : Driver Nat, d.pending = none ∧
    d.selector.failures[0]?.isSome = true ∧ d.NoneStranded := by
  have hrun : ((portDriver.bind fun d =>
      Transition.System.run Driver.takeTurn d (configured :: secondEstablished)).any fun d =>
        d.pending.isNone && d.selector.failures[0]?.isSome) = true := by
    decide +kernel
  obtain ⟨selector, d, hnew, hrun, hd⟩ := portDriver_run hrun
  simp only [Bool.and_eq_true, Option.isNone_iff_eq_none] at hd
  -- The first turn configures another document; no other drops a retry anywhere.
  have hother : (Driver.new portShared [] selector).DropsNone configured := by
    intro hsame
    have hdocument : (Driver.new portShared [] selector).selector.document = nothing :=
      (Selector.new_keeps hnew).1
    rw [hdocument] at hsame
    exact absurd hsame (by decide)
  have hdrops : ∀ turn ∈ secondEstablished, ∀ d : Driver Nat, d.DropsNone turn := by
    intro turn hturn d
    simp only [secondEstablished, appliedWell, List.mem_cons, List.not_mem_nil, or_false] at hturn
    rcases hturn with rfl | rfl | rfl | rfl | rfl | rfl | rfl <;> exact trivial
  rw [Transition.System.run_cons _ rfl] at hrun
  have hreach := Transition.System.Reachable.of_run
    (M := (driving portShared).guarded Driver.DropsNone)
    (.next (a := configured) (.start ⟨[], selector, hnew, rfl⟩) ⟨hother, rfl⟩)
    (fun turn hturn d d' htake => ⟨hdrops turn hturn d, htake⟩) hrun
  exact ⟨d, hd.1, hd.2, driving_noneStranded hreach⟩

/-- Whether a candidate is on that port. -/
def onEth0 : AttachmentKind Nat → Bool
  | .wiredDynamic interface => interface == "eth0"
  | _ => false

/-- Whether work is a retry of the first candidate. -/
def retriesFirst : Work → Bool
  | .retry 0 _ _ => true
  | _ => false

/-- Whether the first candidate could be brought up on the port and is left
alone. -/
def leavesFirst (d : Driver Nat) : Bool :=
  d.pending.isNone &&
    (d.selector.document.attachments[0]?.any fun attachment =>
      attachment.enabled && onEth0 attachment.kind) &&
    d.selector.failures[0]?.isSome && d.selector.carrier.contains "eth0" &&
    !carriesEstablished d.selector.decision "eth0" &&
    !d.failed.contains 0 && d.work.all fun work => !retriesFirst work

/-- A candidate so left alone is stranded. -/
theorem not_noneStranded_of_leavesFirst {d : Driver Nat} (hleaves : leavesFirst d = true) :
    ¬ d.NoneStranded := by
  simp only [leavesFirst, Bool.and_eq_true, Option.isNone_iff_eq_none, Option.any_eq_true,
    Option.isSome_iff_exists, Bool.not_eq_true', List.all_eq_true] at hleaves
  obtain ⟨⟨⟨⟨⟨⟨hpending, attachment, hat, hon, hkind⟩, fault, hfault⟩, hcarrier⟩, hfree⟩,
    hnoted⟩, hwork⟩ := hleaves
  obtain ⟨interface, hwired⟩ : ∃ interface, attachment.kind = .wiredDynamic interface := by
    unfold onEth0 at hkind
    split at hkind
    · exact ⟨_, ‹_›⟩
    · cases hkind
  have hport : interface = "eth0" := by simpa [onEth0, hwired] using hkind
  have huse (other : String) : d.selector.MayUse attachment other ↔ other = "eth0" := by
    simp only [Selector.MayUse, hwired, hport]
    exact and_iff_left hcarrier
  intro hnone
  rcases hnone hpending 0 attachment fault hat hon hfault ⟨"eth0", (huse "eth0").mpr rfl⟩
    (fun other hother => (huse other).mp hother ▸ hfree) with hagain | ⟨wait, hretry⟩
  · have hcontains : d.failed.contains 0 = true := hagain
    rw [hnoted] at hcontains
    cases hcontains
  · have hleft := hwork _ hretry
    cases hleft

/-- The first candidate has failed and the port is free, and nothing will try it
again. -/
theorem retryDropped_strands :
    ¬ ∀ d : Driver Nat, (driving portShared).Reachable d → d.NoneStranded := by
  intro hnone
  have hrun : ((portDriver.bind fun d =>
      Transition.System.run Driver.takeTurn d
        (configured :: secondEstablished ++ retryDropped)).any leavesFirst) = true := by
    decide +kernel
  obtain ⟨selector, d, hnew, hrun, hleaves⟩ := portDriver_run hrun
  have hreach : (driving portShared).Reachable d :=
    Transition.System.Reachable.of_run (.start ⟨[], selector, hnew, rfl⟩)
      (fun _ _ _ _ htake => htake) hrun
  exact not_noneStranded_of_leavesFirst hleaves (hnone d hreach)

end Bliti.Network.Stack
