import Bliti.Network.Stack.Driver.Run

/-!
# The network stack - what a turn of the driver does to selection

Every function of the driver either leaves selection aside, touching only what
it remembers of verifying, applying and answering, or feeds the selector an
event.  So what holds of a selection fed events holds of a turn.
-/

namespace Bliti.Network.Stack

open Std (ExtTreeMap ExtTreeSet)
open Channel.Config Select Probe

variable {φ : Type}

namespace Driver

/-! ## Leaving selection aside -/

/-- A driver is another but for what leaves selection aside: what it has started
only grows. -/
structure Aside (d d' : Driver φ) : Prop where
  shared : d'.shared = d.shared
  selector : d'.selector = d.selector
  document : d'.document = d.document
  states : d'.states = d.states
  generation : d'.generation = d.generation
  failed : d'.failed = d.failed
  work : ∀ work ∈ d.work, work ∈ d'.work

namespace Aside

theorem refl (d : Driver φ) : Aside d d :=
  ⟨rfl, rfl, rfl, rfl, rfl, rfl, fun _ hwork => hwork⟩

theorem trans {d d' d'' : Driver φ} (hone : Aside d d') (hother : Aside d' d'') :
    Aside d d'' where
  shared := hother.shared.trans hone.shared
  selector := hother.selector.trans hone.selector
  document := hother.document.trans hone.document
  states := hother.states.trans hone.states
  generation := hother.generation.trans hone.generation
  failed := hother.failed.trans hone.failed
  work := fun work hwork => hother.work work (hone.work work hwork)

theorem foldl {α : Type} {f : Driver φ → α → Driver φ} (hone : ∀ d a, Aside d (f d a))
    (items : List α) (d : Driver φ) : Aside d (items.foldl f d) := by
  induction items generalizing d with
  | nil => exact .refl d
  | cons a rest ih => exact (hone d a).trans (ih (f d a))

end Aside

theorem start_aside (d : Driver φ) (work : Work) : Aside d (d.start work) :=
  ⟨rfl, rfl, rfl, rfl, rfl, rfl, fun _ hwork => List.mem_append_left _ hwork⟩

theorem updateCheck_aside (d : Driver φ) (check : Check) : Aside d (d.updateCheck check) :=
  ⟨rfl, rfl, rfl, rfl, rfl, rfl, fun _ hwork => hwork⟩

theorem deadline_aside (d : Driver φ) (attempt : Attempt) (wait : Nat) :
    Aside d (d.deadline attempt wait) := by
  unfold deadline
  split
  · exact .refl d
  · exact (d.updateCheck_aside _).trans (start_aside _ _)

theorem addressDeadline_aside (d : Driver φ) (attempt : Attempt) :
    Aside d (d.addressDeadline attempt) := by
  unfold addressDeadline
  split
  · exact .refl d
  · exact d.deadline_aside _ _

theorem rejoin_aside (d : Driver φ) (attempt : Attempt) : Aside d (d.rejoin attempt) := by
  unfold rejoin
  split
  · exact .refl d
  · split
    · exact .refl d
    · exact d.start_aside _

theorem evaluateGateway_aside (d : Driver φ) (attempt : Attempt) (check : Check) :
    Aside d (d.evaluateGateway attempt check) := by
  unfold evaluateGateway
  split
  · exact .refl d
  · split
    · exact .refl d
    · exact (d.updateCheck_aside _).trans (start_aside _ _)

theorem failPending_aside (d : Driver φ) (failure : Failure) :
    Aside d (d.failPending failure) := by
  unfold failPending
  split
  · exact ⟨rfl, rfl, rfl, rfl, rfl, rfl, fun _ hwork => hwork⟩
  · exact .refl d

theorem kick_aside (d : Driver φ) : Aside d d.kick := by
  have hset (d d' : Driver φ) (h : d' = { d with
      taken := d'.taken, hotspotScanning := d'.hotspotScanning, done := d'.done
      idle := d'.idle, bounce := d'.bounce, hostapd := d'.hostapd }) : Aside d d' := by
    rw [h]
    exact ⟨rfl, rfl, rfl, rfl, rfl, rfl, fun _ hwork => hwork⟩
  unfold kick
  split
  · exact .refl d
  · simp only
    split
    · exact (hset d _ rfl).trans (failPending_aside _ _)
    · exact (hset d _ rfl).trans (failPending_aside _ _)
    · refine Aside.trans ?_ (start_aside _ _)
      refine Aside.trans ?_ (hset _ _ rfl)
      split
      · exact (hset d _ rfl).trans (failPending_aside _ _)
      · exact hset d _ rfl

theorem answer_aside (d : Driver φ) : Aside d d.answer := by
  unfold answer
  split
  · exact .refl d
  · split
    · exact .refl d
    · exact ⟨rfl, rfl, rfl, rfl, rfl, rfl, fun _ hwork => hwork⟩

theorem reply_aside (d : Driver φ) (reply : Nat) (answer : Except Failure Unit) :
    Aside d (d.reply reply answer) :=
  ⟨rfl, rfl, rfl, rfl, rfl, rfl, fun _ hwork => hwork⟩

theorem pending_aside (d : Driver φ) (pending : Option (Pending × Nat)) :
    Aside d { d with pending := pending } :=
  ⟨rfl, rfl, rfl, rfl, rfl, rfl, fun _ hwork => hwork⟩

theorem retryLater_aside (d : Driver φ) (candidate : Nat) : Aside d (d.retryLater candidate) :=
  ⟨rfl, rfl, rfl, rfl, rfl, rfl, fun _ hwork => List.mem_append_left _ hwork⟩

theorem settle_aside (d : Driver φ) :
    Aside d d.settle ∨ Aside { d.answer with failed := ∅ } d.settle := by
  unfold settle
  simp only
  split
  · exact .inr (Aside.foldl retryLater_aside _ _)
  · exact .inl d.answer_aside

theorem sweep_aside (d : Driver φ) : Aside d d.sweep := by
  have hlater (d : Driver φ) (radio : String) : Aside d (d.sweepLater radio) := by
    unfold sweepLater
    split
    · exact .refl d
    · exact ⟨rfl, rfl, rfl, rfl, rfl, rfl, fun _ hwork => List.mem_append_left _ hwork⟩
  have hone (d : Driver φ) (radio : String) : Aside d (d.sweepOne radio) := by
    unfold sweepOne
    split
    · exact .refl d
    · refine Aside.trans ?_ (hlater _ radio)
      exact ⟨rfl, rfl, rfl, rfl, rfl, rfl, fun _ hwork => hwork⟩
  unfold sweep
  refine Aside.trans ?_ (Aside.foldl hone _ _)
  exact ⟨rfl, rfl, rfl, rfl, rfl, rfl, fun _ hwork => hwork⟩

theorem sweptOn_aside (d : Driver φ) (radio : String) (token : Nat) :
    Aside d (d.sweptOn radio token) := by
  unfold sweptOn sweepLater
  split
  · split
    · exact .refl d
    · exact ⟨rfl, rfl, rfl, rfl, rfl, rfl, fun _ hwork => List.mem_append_left _ hwork⟩
  · exact .refl d

theorem scanForPending_aside (d : Driver φ) : Aside d d.scanForPending := by
  have hone (d : Driver φ) (radio : RadioInfo) : Aside d (d.scanOneForPending radio) := by
    unfold scanOneForPending
    split
    · exact .refl d
    · exact ⟨rfl, rfl, rfl, rfl, rfl, rfl, fun _ hwork => List.mem_append_left _ hwork⟩
  unfold scanForPending
  simp only
  split
  · exact .refl d
  · exact Aside.foldl hone _ _

theorem reprobe_aside (d : Driver φ) : Aside d d.reprobe :=
  ⟨rfl, rfl, rfl, rfl, rfl, rfl, fun _ hwork => List.mem_append_left _ hwork⟩

theorem reprobed_aside (d : Driver φ) (result : Except String (List RadioInfo)) :
    Aside d (d.reprobed result) := by
  unfold reprobed
  simp only
  have hset (d : Driver φ) (radios : List RadioInfo) (again reprobing : Bool) : Aside d
      { d with radios := radios, reprobeAgain := again, reprobing := reprobing } :=
    ⟨rfl, rfl, rfl, rfl, rfl, rfl, fun _ hwork => hwork⟩
  split
  · split
    · exact (hset d _ _ _).trans (reprobe_aside _)
    · exact hset d _ _ _
  · split
    · exact (hset d _ _ _).trans (reprobe_aside _)
    · exact hset d _ _ _

/-! ## Following -/

/-- A driver is another but for its checks and the failures it notes, which only
grow. -/
structure Notes (d d' : Driver φ) : Prop where
  shared : d'.shared = d.shared
  selector : d'.selector = d.selector
  document : d'.document = d.document
  states : d'.states = d.states
  generation : d'.generation = d.generation
  work : d'.work = d.work
  failed : ∀ rank ∈ d.failed, rank ∈ d'.failed

namespace Notes

theorem refl (d : Driver φ) : Notes d d :=
  ⟨rfl, rfl, rfl, rfl, rfl, rfl, fun _ hrank => hrank⟩

theorem trans {d d' d'' : Driver φ} (hone : Notes d d') (hother : Notes d' d'') :
    Notes d d'' where
  shared := hother.shared.trans hone.shared
  selector := hother.selector.trans hone.selector
  document := hother.document.trans hone.document
  states := hother.states.trans hone.states
  generation := hother.generation.trans hone.generation
  work := hother.work.trans hone.work
  failed := fun rank hrank => hother.failed rank (hone.failed rank hrank)

end Notes

theorem begin_notes [BEq φ] (d : Driver φ) (interface : String) (link : Link) :
    Notes d (d.begin interface link) := by
  unfold begin
  simp only
  split <;> exact ⟨rfl, rfl, rfl, rfl, rfl, rfl, fun _ hrank => hrank⟩

theorem followOne_notes [BEq φ] (d : Driver φ) (change : Change) :
    Notes d (d.followOne change) := by
  cases change with
  | link interface link =>
      have hchecks (wanted : Nat) (checks : ExtTreeMap Nat Check) :
          Notes d { d with wanted := wanted, checks := checks } :=
        ⟨rfl, rfl, rfl, rfl, rfl, rfl, fun _ hrank => hrank⟩
      simp only [followOne]
      split
      · split
        · exact hchecks _ _
        · exact (hchecks _ _).trans (begin_notes _ _ _)
      · exact hchecks _ _
  | hotspot placement => exact ⟨rfl, rfl, rfl, rfl, rfl, rfl, fun _ hrank => hrank⟩
  | defaultRoute candidate => exact .refl d
  | state candidate state =>
      simp only [followOne]
      split
      · exact ⟨rfl, rfl, rfl, rfl, rfl, rfl, fun _ hrank => hrank⟩
      · exact ⟨rfl, rfl, rfl, rfl, rfl, rfl, fun _ hrank => hrank⟩
      · split
        · refine ⟨rfl, rfl, rfl, rfl, rfl, rfl, ?_⟩
          intro rank hrank
          exact ExtTreeSet.mem_insert.mpr (.inr hrank)
        · exact .refl d
      · exact .refl d

theorem foldl_followOne_notes [BEq φ] (changes : List Change) (d : Driver φ) :
    Notes d (changes.foldl followOne d) := by
  induction changes generalizing d with
  | nil => exact .refl d
  | cons change rest ih => exact (d.followOne_notes change).trans (ih (d.followOne change))

/-- A candidate reported unavailable past its carrier is noted to have failed. -/
theorem mem_failed_foldl_followOne [BEq φ] {changes : List Change} {rank : Nat} {fault : Fault}
    (hreported : .state rank (.unavailable fault) ∈ changes)
    (hpast : fault.reached ≠ .carrier) (d : Driver φ) :
    rank ∈ (changes.foldl followOne d).failed := by
  induction changes generalizing d with
  | nil => cases hreported
  | cons change rest ih =>
      rcases List.mem_cons.mp hreported with hfirst | hrest
      · apply (foldl_followOne_notes rest _).failed
        rw [← hfirst]
        simp [followOne, hpast]
      · exact ih hrest (d.followOne change)

/-- What following the selector leaves of the driver. -/
structure Followed (d d' : Driver φ) (changes : List Change) : Prop where
  shared : d'.shared = d.shared
  selector : d'.selector = d.selector
  document : d'.document = d.document
  generation : d'.generation = d.generation
  work : d'.work = d.work
  failed : ∀ rank ∈ d.failed, rank ∈ d'.failed
  noted : ∀ (rank : Nat) (fault : Fault), .state rank (.unavailable fault) ∈ changes →
    fault.reached ≠ .carrier → rank ∈ d'.failed
  states : d'.states = if changes.any isState then
    some (d.selector.decision.states.map entry) else d.states

/-- Following the selector notes what failed, and publishes what changed. -/
theorem follow_followed [BEq φ] (d : Driver φ) (changes : List Change) :
    Followed d (d.follow changes) changes := by
  have hnotes := foldl_followOne_notes changes d
  have hnoted (rank : Nat) (fault : Fault) (hreported : .state rank (.unavailable fault) ∈ changes)
      (hpast : fault.reached ≠ .carrier) : rank ∈ (changes.foldl followOne d).failed :=
    mem_failed_foldl_followOne hreported hpast d
  unfold follow
  simp only
  split
  · rename_i hstate
    refine ⟨hnotes.shared, hnotes.selector, hnotes.document, hnotes.generation, hnotes.work,
      hnotes.failed, hnoted, ?_⟩
    rw [if_pos hstate]
    simp [publish, hnotes.selector]
  · rename_i hstate
    refine ⟨hnotes.shared, hnotes.selector, hnotes.document, hnotes.generation, hnotes.work,
      hnotes.failed, hnoted, ?_⟩
    rw [if_neg hstate, hnotes.states]

/-- What configuring a document leaves of the driver. -/
structure Configured [BEq φ] (d d' : Driver φ) (document : Document φ)
    (changes : List Change) : Prop where
  selected : d.selector.configure document = .ok (d'.selector, changes)
  shared : d'.shared = d.shared
  document : d'.document = document
  generation : d'.generation = d.generation + 1
  noted : ∀ (rank : Nat) (fault : Fault), .state rank (.unavailable fault) ∈ changes →
    fault.reached ≠ .carrier → rank ∈ d'.failed
  states : d'.states = some (d'.selector.decision.states.map entry)

/-- Configuring a document selects among it, notes what failed and publishes its
states. -/
theorem configure_configured [BEq φ] {d d' : Driver φ} {document : Document φ}
    (hconfigure : d.configure document = .ok d') :
    ∃ changes, Configured d d' document changes := by
  unfold configure at hconfigure
  rcases hselect : d.selector.configure document with invalid | ⟨selector, changes⟩
  · simp [hselect, bind, Except.bind] at hconfigure
  · simp only [hselect, bind, Except.bind, pure, Except.pure, Except.ok.injEq] at hconfigure
    subst hconfigure
    have hfollowed := follow_followed { d with
      selector := selector
      document := document
      last := d.last.map fun _ previous => previous.filter (keeps document)
      configured := true
      generation := d.generation + 1
      backoff := ∅
      failed := ∅
      placed := ∅
      wanted := d.wanted + 1
      checks := d.checks.filterMap fun _ check =>
        carriedOver selector.decision.links.values check } changes
    refine ⟨changes, ?_, hfollowed.shared, hfollowed.document, hfollowed.generation,
      hfollowed.noted, rfl⟩
    have hselector : (follow _ changes).publish.selector = selector := hfollowed.selector
    rw [hselect, hselector]

/-! ## Evolving -/

/-- An event fed at no stage before the driver verifies: no attempt is failed at
its carrier, which the selector observes for itself. -/
def PastCarrier : Event → Prop
  | .failed _ stage _ _ => stage ≠ .carrier
  | _ => True

variable [BEq φ]

/-- One driver is another after events fed, and whatever leaves selection
aside. -/
inductive Evolves : Driver φ → Driver φ → Prop
  | refl (d : Driver φ) : Evolves d d
  | aside {d d' d'' : Driver φ} (hbefore : Evolves d d') (haside : Aside d' d'') :
      Evolves d d''
  | fed {d d' : Driver φ} {event : Event} (hbefore : Evolves d d')
      (hpast : PastCarrier event) : Evolves d (d'.feed event)

namespace Evolves

theorem trans {d d' d'' : Driver φ} (hone : Evolves d d') (hother : Evolves d' d'') :
    Evolves d d'' := by
  induction hother with
  | refl => exact hone
  | aside _ haside ih => exact .aside ih haside
  | fed _ hpast ih => exact .fed ih hpast

/-- What leaves selection aside. -/
theorem ofAside {d d' : Driver φ} (haside : Aside d d') : Evolves d d' :=
  .aside (.refl d) haside

/-- An event fed. -/
theorem ofFeed (d : Driver φ) {event : Event} (hpast : PastCarrier event) :
    Evolves d (d.feed event) :=
  .fed (.refl d) hpast

theorem foldl {α : Type} {f : Driver φ → α → Driver φ} (hone : ∀ d a, Evolves d (f d a))
    (items : List α) (d : Driver φ) : Evolves d (items.foldl f d) := by
  induction items generalizing d with
  | nil => exact .refl d
  | cons a rest ih => exact (hone d a).trans (ih (f d a))

end Evolves

theorem fail_evolves (d : Driver φ) (attempt : Attempt) {stage : Stage}
    (hstage : stage ≠ .carrier) (member : List Segment) (reason : String) :
    Evolves d (d.fail attempt stage member reason) :=
  .ofFeed d hstage

theorem stationChannel_evolves (d : Driver φ) (interface : String) (frequency : Option Nat) :
    Evolves d (d.stationChannel interface frequency) := by
  unfold stationChannel
  split
  · exact .ofFeed d trivial
  · exact .ofAside (d.start_aside _)

theorem evaluate_evolves (d : Driver φ) (attempt : Attempt) :
    Evolves d (d.evaluate attempt) := by
  unfold evaluate
  split
  · exact .refl d
  · split
    · exact .refl d
    · split
      · split
        · exact .refl d
        · have hfed (check : Check) : Evolves d (((d.updateCheck check).feed
              (.passed attempt .addressing)).deadline attempt ROUTE) := by
            refine .aside ?_ (deadline_aside _ _ _)
            exact .fed (.ofAside (d.updateCheck_aside check)) trivial
          simp only
          split
          · exact hfed _
          · split
            · exact .aside (hfed _) (evaluateGateway_aside _ _ _)
            · exact hfed _
      · exact .ofAside (d.evaluateGateway_aside _ _)
      · split
        · exact d.fail_evolves attempt (by decide) _ _
        · exact .refl d
      · exact .refl d
      · exact .refl d

theorem rescanned_evolves (d : Driver φ) (attempt : Attempt) :
    Evolves d (d.rescanned attempt) := by
  unfold rescanned
  split
  · exact .refl d
  · split
    · exact .refl d
    · split
      · exact .refl d
      · simp only
        split <;> exact d.fail_evolves attempt (by decide) _ _

theorem associated_evolves (d : Driver φ) (attempt : Attempt)
    (result : Except String Joined) : Evolves d (d.associated attempt result) := by
  unfold associated
  split
  · exact .refl d
  · split
    · exact .refl d
    · split
      · exact .refl d
      · split
        · split
          · exact d.fail_evolves attempt (by decide) _ _
          · refine Evolves.trans ?_ (evaluate_evolves _ attempt)
            refine .aside ?_ (addressDeadline_aside _ attempt)
            refine Evolves.trans ?_ (stationChannel_evolves _ _ _)
            refine .fed (.ofAside ?_) trivial
            exact ⟨rfl, rfl, rfl, rfl, rfl, rfl, fun _ hwork => hwork⟩
        · split
          · split
            · exact .ofAside (d.start_aside _)
            · exact d.rescanned_evolves attempt
          · exact d.fail_evolves attempt (by decide) _ _

theorem associate_evolves (d : Driver φ) (attempt : Attempt) :
    Evolves d (d.associate attempt) := by
  unfold associate
  split
  · exact .refl d
  · split
    · exact .refl d
    · simp only
      split
      · split
        · exact d.associated_evolves attempt _
        · exact .ofAside (d.start_aside _)
      · exact .ofAside (d.start_aside _)

theorem rejoined_evolves (d : Driver φ) (attempt : Attempt) (result : Except String Joined) :
    Evolves d (d.rejoined attempt result) := by
  unfold rejoined
  split
  · exact .refl d
  · split
    · exact d.stationChannel_evolves _ _
    · exact d.fail_evolves attempt (by decide) _ _

theorem arm_evolves (d : Driver φ) (attempt : Attempt) : Evolves d (d.arm attempt) := by
  have hset (check : Check) : Evolves d (d.updateCheck check) :=
    .ofAside (d.updateCheck_aside check)
  unfold arm
  split
  · exact .refl d
  · split
    · exact .refl d
    · simp only
      split
      · split
        · exact hset _
        · exact (hset _).trans (associate_evolves _ attempt)
      · exact Evolves.trans (.aside (hset _) (addressDeadline_aside _ attempt))
          (evaluate_evolves _ attempt)
      · exact (hset _).trans (evaluate_evolves _ attempt)

theorem probed_evolves (d : Driver φ) (attempt : Attempt) (result : Except String Unit) :
    Evolves d (d.probed attempt result) := by
  have hset (check : Check) : Evolves d (d.updateCheck check) :=
    .ofAside (d.updateCheck_aside check)
  unfold probed
  split
  · exact .refl d
  · simp only
    split
    · exact hset _
    · split
      · exact .fed (hset _) trivial
      · exact (hset _).trans (fail_evolves _ attempt (by decide) _ _)

theorem deadlinePassed_evolves (d : Driver φ) (attempt : Attempt) (timer : Nat) :
    Evolves d (d.deadlinePassed attempt timer) := by
  unfold deadlinePassed
  split
  · exact .refl d
  · split
    · exact .refl d
    · split
      · exact d.fail_evolves attempt (by decide) _ _
      · exact d.fail_evolves attempt (by decide) _ _
      · exact .refl d

/-! ## Observations and work ended -/

theorem scannedForPending_evolves (d : Driver φ) (radio : String) :
    Evolves d (d.scannedForPending radio) := by
  have hscanning (scanning : ExtTreeMap String Nat) (wanted : Nat) :
      Aside d { d with scanning := scanning, wanted := wanted } :=
    ⟨rfl, rfl, rfl, rfl, rfl, rfl, fun _ hwork => hwork⟩
  have hchecks (d : Driver φ) (checks : ExtTreeMap Nat Check) :
      Aside d { d with checks := checks } :=
    ⟨rfl, rfl, rfl, rfl, rfl, rfl, fun _ hwork => hwork⟩
  unfold scannedForPending
  split
  · exact .refl d
  · split
    · exact .ofAside (hscanning _ _)
    · simp only
      refine Evolves.trans ?_ (Evolves.foldl associate_evolves _ _)
      refine .ofAside (Aside.trans ?_ (hchecks _ _))
      split
      · exact (hscanning _ _).trans (kick_aside _)
      · exact hscanning _ _

theorem hear_evolves (d : Driver φ) (interface : String) (networks : ExtTreeMap String Int)
    (scanned : Bool) : Evolves d (d.hear interface networks scanned) := by
  unfold hear
  simp only
  have hheard (heard : ExtTreeMap String (ExtTreeMap String Int)) :
      Evolves d { d with heard := heard } :=
    .ofAside ⟨rfl, rfl, rfl, rfl, rfl, rfl, fun _ hwork => hwork⟩
  refine Evolves.trans ?_ (Evolves.foldl ?_ _ _)
  · split
    · refine (hheard _).trans (Evolves.foldl ?_ _ _)
      intro d ssid
      exact .ofFeed d trivial
    · exact hheard _
  · intro d entry
    split
    · exact .ofFeed d trivial
    · exact .refl d

theorem stationEvent_evolves (d : Driver φ) (interface : String) (station : Station) :
    Evolves d (d.stationEvent interface station) := by
  unfold stationEvent
  simp only
  have hset (stations : ExtTreeMap String Station) (joined : ExtTreeMap String Joined)
      (bounce : Option String) :
      Evolves d { d with stations := stations, joined := joined, bounce := bounce } :=
    .ofAside ⟨rfl, rfl, rfl, rfl, rfl, rfl, fun _ hwork => hwork⟩
  split
  · exact hset _ _ _
  · split
    · split
      · exact (hset _ _ _).trans (stationChannel_evolves _ _ _)
      · exact hset _ _ _
    · exact hset _ _ _
    · split
      · exact .aside (hset _ _ _) (rejoin_aside _ _)
      · exact (hset _ _ _).trans (fail_evolves _ _ (by decide) _ _)

theorem announce_evolves (d : Driver φ) (interface : String) (observation : Observation) :
    Evolves d (d.announce interface observation) := by
  unfold announce
  simp only
  refine Evolves.trans ?_ (Evolves.foldl evaluate_evolves _ _)
  exact .ofAside ⟨rfl, rfl, rfl, rfl, rfl, rfl, fun _ hwork => hwork⟩

theorem observe_evolves (d : Driver φ) (observation : Observation) :
    Evolves d (d.observe observation) := by
  have hset (links : Links) : Evolves d { d with links := links } :=
    .ofAside ⟨rfl, rfl, rfl, rfl, rfl, rfl, fun _ hwork => hwork⟩
  unfold observe
  split
  · exact .ofFeed d trivial
  · exact d.hear_evolves _ _ _
  · exact d.stationEvent_evolves _ _
  · split
    · exact .ofAside ⟨rfl, rfl, rfl, rfl, rfl, rfl, fun _ hwork => hwork⟩
    · exact .ofAside d.reprobe_aside
  all_goals
    simp only
    split
    · exact hset _
    · exact (hset _).trans (announce_evolves _ _ _)

theorem appliedEnd_evolves (d : Driver φ) (result : Except ApplyError Changes) (taken : Nat)
    (attempts : List Attempt) : Evolves d (d.appliedEnd result taken attempts) := by
  unfold appliedEnd
  simp only
  have hset : Aside d { d with idle := true, done := taken } :=
    ⟨rfl, rfl, rfl, rfl, rfl, rfl, fun _ hwork => hwork⟩
  refine Evolves.trans (.ofAside ?_) (Evolves.foldl arm_evolves _ _)
  split
  · rename_i changes
    have hreprobed : Aside d (if changes.regdom = true then
        ({ d with idle := true, done := taken } : Driver φ).reprobe
        else { d with idle := true, done := taken }) := by
      split
      · exact hset.trans (reprobe_aside _)
      · exact hset
    split
    · split
      · exact hreprobed.trans (scanForPending_aside _)
      · exact hreprobed
    · exact hreprobed
  · exact hset.trans (failPending_aside _ _)

theorem scannedEnd_evolves (d : Driver φ) (interface : String)
    (result : Except String (ExtTreeMap String Int)) (scanner : Scanner) :
    Evolves d (d.scannedEnd interface result scanner) := by
  have hscanner (d' : Driver φ) (hheard : Evolves d d') :
      Evolves d (d'.scannedFor interface scanner) := by
    cases scanner with
    | pending => exact hheard.trans (scannedForPending_evolves _ _)
    | sweep token => exact .aside hheard (sweptOn_aside _ _ _)
    | refused attempt => exact hheard.trans (rescanned_evolves _ _)
  cases result with
  | ok networks => exact hscanner _ (d.hear_evolves _ _ _)
  | error reason => exact hscanner _ (.refl d)

theorem retryOver_evolves (d : Driver φ) (candidate generation : Nat) :
    Evolves d (d.retryOver candidate generation) := by
  unfold retryOver
  split
  · exact .ofFeed d trivial
  · exact .refl d

theorem internal_evolves (d : Driver φ) (internal : Internal) :
    Evolves d (d.internal internal) := by
  cases internal with
  | applied result taken attempts => exact d.appliedEnd_evolves result taken attempts
  | reprobed result => exact .ofAside (d.reprobed_aside result)
  | scanned interface result scanner => exact d.scannedEnd_evolves interface result scanner
  | sweep radio token =>
      unfold Driver.internal sweepNow
      simp only
      split
      · exact .ofAside (d.start_aside _)
      · exact .refl d
  | associated attempt result => exact d.associated_evolves attempt result
  | operating interface frequency =>
      cases frequency with
      | none => exact .refl d
      | some frequency => exact .ofFeed d trivial
  | rejoined attempt result => exact d.rejoined_evolves attempt result
  | deadline attempt timer => exact d.deadlinePassed_evolves attempt timer
  | probed attempt result => exact d.probed_evolves attempt result
  | retry candidate generation => exact d.retryOver_evolves candidate generation

/-- A turn taken could be. -/
theorem takeTurn_some {d d' : Driver φ} {turn : Turn φ} (htake : d.takeTurn turn = some d') :
    d.canTurn turn = true ∧ d' = d.turn turn := by
  unfold takeTurn at htake
  split at htake
  · rename_i hturn
    exact ⟨hturn, (Option.some.inj htake).symm⟩
  · cases htake

end Driver

end Bliti.Network.Stack
