import Bliti.Network.Select.Attempts
import Bliti.Network.Stack.Publishes
import Bliti.Network.Stack.Retry

/-!
# The network stack - the driver and the selector in lockstep

How far each attempt has got is held twice: by the selector, which reports it,
and by the driver's check on the attempt, which moves it on.  Between two events
the two agree.

Main results:

- Theorem `driving_inStep`: every reachable driver is in step.
- Theorem `driving_selects`: what a driver selects is what its selector comes to alone.
-/

namespace Bliti.Network.Stack

open Std (ExtTreeMap ExtTreeSet)
open Channel.Config Select Probe

variable {φ : Type}

/-! ## The invariant -/

/-- What the selector holds, as a check has it. -/
def Check.asHeld (check : Check) : Held where
  link := { candidate := check.candidate, attempt := check.attempt }
  atStage := check.atStage

/-- Where a check is: its interface, and its attempt at which candidate and at
which stage. -/
def Check.place (check : Check) : String × Held :=
  (check.interface, check.asHeld)

/-- Checks of exactly the attempts held, each as it is held. -/
structure Checked (checks : ExtTreeMap Nat Check) (held : ExtTreeMap String Held) : Prop where
  keyed : ∀ (id : Nat) (check : Check), checks[id]? = some check → check.attempt.id = id
  agrees : ∀ (id : Nat) (check : Check), checks[id]? = some check →
    held[check.interface]? = some check.asHeld
  checked : ∀ (i : String) (h : Held), held[i]? = some h → h.link.attempt.id ∈ checks

/-- The driver and the selector agree on every attempt. -/
structure Driver.Lockstep (d : Driver φ) : Prop where
  settled : Settled d.selector
  attempting : d.selector.Attempting
  shown : d.selector.Shown
  sized : d.document.attachments.length = d.selector.document.attachments.length
  checks : Checked d.checks d.selector.held

/-- The attempt of a check is the one it is keyed by. -/
theorem Attempt.eq_of_id {attempt other : Attempt} (hid : attempt.id = other.id) :
    attempt = other := by
  cases attempt
  cases other
  simpa using hid

namespace Driver

/-- A check as it is held, and the attempt it is held under. -/
theorem Lockstep.held {d : Driver φ} (hlockstep : d.Lockstep) {attempt : Attempt}
    {check : Check} (hcheck : d.checkOf attempt = some check) :
    check.attempt = attempt ∧ d.selector.held[check.interface]? = some check.asHeld :=
  ⟨Attempt.eq_of_id (hlockstep.checks.keyed _ check hcheck),
    hlockstep.checks.agrees _ check hcheck⟩

/-! ## Following a selection -/

/-- A driver part-way through what a selection changed: each check is of an
attempt held, as it is held, or of one no longer held whose interface is still to
be followed; each attempt held has its check or is still to be followed. -/
structure Following (d : Driver φ) (changes : List Change) : Prop where
  keyed : ∀ (id : Nat) (check : Check), d.checks[id]? = some check → check.attempt.id = id
  agrees : ∀ (id : Nat) (check : Check), d.checks[id]? = some check →
    d.selector.held[check.interface]? = some check.asHeld ∨
      (∀ (i : String) (h : Held), d.selector.held[i]? = some h →
        h.link.attempt ≠ check.attempt) ∧ ∃ link, .link check.interface link ∈ changes
  checked : ∀ (i : String) (h : Held), d.selector.held[i]? = some h →
    h.link.attempt.id ∈ d.checks ∨
      .link i (some h.link) ∈ changes ∧ ∃ stage, h.atStage = some stage
  reported : ∀ (i : String) (link : Option Link), .link i link ∈ changes →
    link = d.selector.held[i]?.map (·.link)

/-- A change that is of no link leaves the checks for the rest to follow. -/
theorem Following.skip {d d' : Driver φ} {change : Change} {rest : List Change}
    (hfollowing : d.Following (change :: rest))
    (hchange : ∀ interface link, change ≠ .link interface link)
    (hchecks : d'.checks = d.checks) (hselector : d'.selector = d.selector) :
    d'.Following rest := by
  have htail : ∀ interface link, .link interface link ∈ change :: rest →
      Change.link interface link ∈ rest := by
    intro interface link hmem
    rcases List.mem_cons.mp hmem with hsame | hmem
    · exact absurd hsame.symm (hchange interface link)
    · exact hmem
  constructor
  · rw [hchecks]
    exact hfollowing.keyed
  · rw [hchecks, hselector]
    intro id check hcheck
    rcases hfollowing.agrees id check hcheck with hkept | ⟨hnot, link, hmem⟩
    · exact .inl hkept
    · exact .inr ⟨hnot, link, htail _ _ hmem⟩
  · rw [hchecks, hselector]
    intro i h hheld
    rcases hfollowing.checked i h hheld with hmem | ⟨hmem, hstage⟩
    · exact .inl hmem
    · exact .inr ⟨htail _ _ hmem, hstage⟩
  · rw [hselector]
    intro i link hmem
    exact hfollowing.reported i link (List.mem_cons_of_mem _ hmem)

/-- Checks superseded on an interface go. -/
theorem Following.drop {d : Driver φ} {interface : String} {link : Option Link}
    {rest : List Change} (hfollowing : d.Following (.link interface link :: rest))
    (wanted : Nat) :
    Following { d with
      wanted := wanted
      checks := d.checks.filter fun _ check => !check.superseded interface link }
      (.link interface link :: rest) ∧
    ∀ (id : Nat) (check : Check),
      (d.checks.filter fun _ check => !check.superseded interface link)[id]? = some check →
      d.selector.held[check.interface]? = some check.asHeld ∨
        (∀ (i : String) (h : Held), d.selector.held[i]? = some h →
          h.link.attempt ≠ check.attempt) ∧ ∃ link, .link check.interface link ∈ rest := by
  have hlink := hfollowing.reported interface link List.mem_cons_self
  have hbefore : ∀ (id : Nat) (check : Check),
      (d.checks.filter fun _ check => !check.superseded interface link)[id]? = some check →
      d.checks[id]? = some check ∧ check.superseded interface link = false := by
    intro id check hcheck
    rw [ExtTreeMap.getElem?_filter', Option.filter_eq_some_iff] at hcheck
    exact ⟨hcheck.1, by simpa using hcheck.2⟩
  constructor
  · constructor
    · intro id check hcheck
      exact hfollowing.keyed id check (hbefore id check hcheck).1
    · intro id check hcheck
      exact hfollowing.agrees id check (hbefore id check hcheck).1
    · intro i h hheld
      rcases hfollowing.checked i h hheld with hmem | hnew
      · left
        obtain ⟨check, hcheck⟩ :=
          Option.isSome_iff_exists.mp (ExtTreeMap.mem_iff_isSome_getElem?.mp hmem)
        have hsame := Attempt.eq_of_id (hfollowing.keyed _ check hcheck)
        rw [ExtTreeMap.mem_iff_isSome_getElem?, ExtTreeMap.getElem?_filter', hcheck]
        rcases hfollowing.agrees _ check hcheck with hkept | ⟨hnot, -⟩
        · -- A check of what the interface holds is not superseded there.
          have hstays : check.superseded interface link = false := by
            by_cases hon : check.interface = interface
            · rw [hlink, ← hon, hkept]
              simp [Check.superseded, Check.asHeld]
            · simp [Check.superseded, hon]
          simp [hstays]
        · exact absurd hsame.symm (hnot i h hheld)
      · exact .inr hnew
    · exact hfollowing.reported
  · intro id check hcheck
    obtain ⟨hcheck, hstays⟩ := hbefore id check hcheck
    rcases hfollowing.agrees id check hcheck with hkept | ⟨hnot, other, hmem⟩
    · exact .inl hkept
    · right
      refine ⟨hnot, other, ?_⟩
      rcases List.mem_cons.mp hmem with hsame | hmem
      · -- A check on this interface that stayed is of what it holds.
        simp only [Change.link.injEq] at hsame
        exfalso
        rw [hlink] at hstays
        rcases hheld : d.selector.held[interface]? with _ | h
        · simp [Check.superseded, hsame.1, hheld] at hstays
        · have hne := hnot interface h hheld
          simp [Check.superseded, hsame.1, hheld, hne] at hstays
      · exact hmem

section

variable [BEq φ]

/-- Beginning an attempt held checks it, as it is held. -/
theorem begin_checks {d : Driver φ} (hshown : d.selector.Shown) {i : String} {h : Held}
    (hheld : d.selector.held[i]? = some h) {stage : Stage} (hstage : h.atStage = some stage)
    (hlt : h.link.candidate < d.document.attachments.length) :
    ∃ check : Check, (d.begin i h.link).checks = d.checks.insert h.link.attempt.id check ∧
      check.interface = i ∧ check.asHeld = h := by
  have hstate : d.selector.decision.states[h.link.candidate]? = some (.verifying stage) := by
    rw [hshown i h hheld]
    simp [heldState, hstage]
  have hattachment := List.getElem?_eq_getElem hlt
  unfold begin
  rw [hstate, hattachment]
  refine ⟨_, rfl, rfl, ?_⟩
  obtain ⟨link, atStage⟩ := h
  dsimp only at hstage
  rw [hstage]
  rfl

/-- Beginning an attempt leaves selection aside. -/
theorem begin_selector (d : Driver φ) (interface : String) (link : Link) :
    (d.begin interface link).selector = d.selector :=
  (d.begin_notes interface link).selector

/-- Beginning the attempt an interface holds, where there is no check on it,
leaves the rest to follow. -/
theorem Following.begin {d : Driver φ} {interface : String} {link : Link}
    {rest : List Change} (hfollowing : d.Following (.link interface (some link) :: rest))
    (hshown : d.selector.Shown)
    (hrange : ∀ (i : String) (h : Held), d.selector.held[i]? = some h →
      h.link.candidate < d.document.attachments.length)
    (hrest : ∀ (id : Nat) (check : Check), d.checks[id]? = some check →
      d.selector.held[check.interface]? = some check.asHeld ∨
        (∀ (i : String) (h : Held), d.selector.held[i]? = some h →
          h.link.attempt ≠ check.attempt) ∧ ∃ link, .link check.interface link ∈ rest)
    (hnone : link.attempt.id ∉ d.checks) : (d.begin interface link).Following rest := by
  have hlink := hfollowing.reported interface (some link) List.mem_cons_self
  obtain ⟨held, hheld, rfl⟩ := Option.map_eq_some_iff.mp hlink.symm
  have hnew : ∃ stage, held.atStage = some stage := by
    rcases hfollowing.checked interface held hheld with hmem | ⟨-, hstage⟩
    · exact absurd hmem hnone
    · exact hstage
  obtain ⟨stage, hstage⟩ := hnew
  obtain ⟨check, hchecks, hon, hasHeld⟩ :=
    begin_checks hshown hheld hstage (hrange interface held hheld)
  have hattempt : check.attempt = held.link.attempt := by
    rw [← hasHeld]
    rfl
  constructor
  · intro id other hother
    rw [hchecks, OrderedMap.getElem?_insert_ite] at hother
    split at hother
    · rename_i hid
      rw [← Option.some.inj hother, hattempt, hid]
    · exact hfollowing.keyed id other hother
  · intro id other hother
    rw [begin_selector]
    rw [hchecks, OrderedMap.getElem?_insert_ite] at hother
    split at hother
    · left
      rw [← Option.some.inj hother, hon, hasHeld, hheld]
    · exact hrest id other hother
  · intro i h hi
    rw [begin_selector] at hi
    rw [hchecks, OrderedMap.mem_insert_iff]
    rcases hfollowing.checked i h hi with hmem | ⟨hmem, hnew⟩
    · exact .inl (.inr hmem)
    · rcases List.mem_cons.mp hmem with hsame | hmem
      · simp only [Change.link.injEq, Option.some.injEq] at hsame
        rw [hsame.2]
        exact .inl (.inl rfl)
      · exact .inr ⟨hmem, hnew⟩
  · intro i other hmem
    rw [begin_selector]
    exact hfollowing.reported i other (List.mem_cons_of_mem _ hmem)

/-- Following a candidate's state leaves the checks. -/
theorem followOne_state_checks (d : Driver φ) (candidate : Nat) (state : State) :
    (d.followOne (.state candidate state)).checks = d.checks := by
  simp only [followOne]
  split
  · rfl
  · rfl
  · split
    · rfl
    · rfl
  · rfl

/-- Following one change leaves the rest to follow. -/
theorem Following.followOne {d : Driver φ} {change : Change} {rest : List Change}
    (hshown : d.selector.Shown)
    (hrange : ∀ (i : String) (h : Held), d.selector.held[i]? = some h →
      h.link.candidate < d.document.attachments.length)
    (hfollowing : d.Following (change :: rest)) : (d.followOne change).Following rest := by
  cases change with
  | hotspot placement => exact hfollowing.skip (by intro i l h; cases h) rfl rfl
  | defaultRoute candidate => exact hfollowing.skip (by intro i l h; cases h) rfl rfl
  | state candidate state =>
      apply hfollowing.skip (by intro i l h; cases h)
      · exact d.followOne_state_checks candidate state
      · exact (d.followOne_notes _).selector
  | link interface link =>
      obtain ⟨hdropped, hrest⟩ := hfollowing.drop (d.wanted + 1)
      have hreported : ∀ (i : String) (link : Option Link), .link i link ∈ rest →
          link = d.selector.held[i]?.map (·.link) := by
        intro i link hmem
        exact hfollowing.reported i link (List.mem_cons_of_mem _ hmem)
      cases link with
      | none =>
          refine ⟨hdropped.keyed, hrest, ?_, hreported⟩
          intro i h hheld
          rcases hdropped.checked i h hheld with hmem | ⟨hmem, hstage⟩
          · exact .inl hmem
          · rcases List.mem_cons.mp hmem with hsame | hmem
            · simp at hsame
            · exact .inr ⟨hmem, hstage⟩
      | some link =>
          simp only [Driver.followOne]
          split
          · -- The attempt is one carried over, which has its check.
            rename_i hcontains
            refine ⟨hdropped.keyed, hrest, ?_, hreported⟩
            intro i h hi
            rcases hdropped.checked i h hi with hmem | ⟨hmem, hstage⟩
            · exact .inl hmem
            · rcases List.mem_cons.mp hmem with heq | hmem
              · simp only [Change.link.injEq, Option.some.injEq] at heq
                left
                rw [heq.2]
                exact ExtTreeMap.contains_iff_mem.mp hcontains
              · exact .inr ⟨hmem, hstage⟩
          · rename_i hcontains
            apply hdropped.begin hshown hrange hrest
            intro hmem
            exact hcontains (ExtTreeMap.contains_iff_mem.mpr hmem)

theorem Following.foldl {changes : List Change} {d : Driver φ}
    (hshown : d.selector.Shown)
    (hrange : ∀ (i : String) (h : Held), d.selector.held[i]? = some h →
      h.link.candidate < d.document.attachments.length)
    (hfollowing : d.Following changes) :
    Checked (changes.foldl Driver.followOne d).checks d.selector.held := by
  induction changes generalizing d with
  | nil =>
      constructor
      · exact hfollowing.keyed
      · intro id check hcheck
        rcases hfollowing.agrees id check hcheck with hkept | ⟨-, link, hmem⟩
        · exact hkept
        · cases hmem
      · intro i h hheld
        rcases hfollowing.checked i h hheld with hmem | ⟨hmem, -⟩
        · exact hmem
        · cases hmem
  | cons change rest ih =>
      have hnotes := d.followOne_notes change
      have hnext := hfollowing.followOne hshown hrange
      rw [List.foldl_cons, ← hnotes.selector]
      apply ih
      · rw [hnotes.selector]
        exact hshown
      · rw [hnotes.selector, hnotes.document]
        exact hrange
      · exact hnext

/-- Following what a selection changed puts the checks in step with it, where
those of the attempts it kept were. -/
theorem follow_lockstep {d : Driver φ} {before : Selector φ} {changes : List Change}
    (hrelinks : before.Relinks d.selector changes) (hbefore : before.Attempting)
    (hsettled : Settled d.selector) (hattempting : d.selector.Attempting)
    (hshown : d.selector.Shown)
    (hsized : d.document.attachments.length = d.selector.document.attachments.length)
    (hkeyed : ∀ (id : Nat) (check : Check), d.checks[id]? = some check → check.attempt.id = id)
    (hagrees : ∀ (id : Nat) (check : Check), d.checks[id]? = some check →
      before.held[check.interface]? = some check.asHeld)
    (hchecked : ∀ (i : String) (h : Held), d.selector.held[i]? = some h →
      before.held[i]? = some h → h.link.attempt.id ∈ d.checks) :
    (d.follow changes).Lockstep := by
  have hfollowing : d.Following changes := by
    constructor
    · exact hkeyed
    · intro id check hcheck
      have hheld := hagrees id check hcheck
      by_cases hkept : d.selector.held[check.interface]? = some check.asHeld
      · exact .inl hkept
      · right
        -- Nothing else holds the attempt, so the interface holds another or none.
        have hnot : ∀ (i : String) (h : Held), d.selector.held[i]? = some h →
            h.link.attempt ≠ check.attempt := by
          intro i h hi hsame
          rcases hrelinks.kept i h hi with hsaid | hfresh
          · obtain rfl := hbefore.distinct i check.interface h check.asHeld hsaid hheld hsame
            rw [hsaid] at hheld
            rw [← hheld] at hkept
            exact hkept hi
          · exact hfresh.ne hbefore hheld hsame
        refine ⟨hnot, _, hrelinks.changed check.interface ?_⟩
        rw [hheld]
        intro hsame
        obtain ⟨h, hi, hattempt⟩ := Option.map_eq_some_iff.mp hsame.symm
        exact hnot _ h hi hattempt
    · intro i h hi
      rcases hrelinks.kept i h hi with hkept | hfresh
      · exact .inl (hchecked i h hi hkept)
      · right
        have hchanged := hrelinks.changed i
        rw [hi] at hchanged
        refine ⟨hchanged ?_, hfresh.2⟩
        intro hsame
        obtain ⟨old, hold, hattempt⟩ := Option.map_eq_some_iff.mp hsame
        exact hfresh.ne hbefore hold hattempt.symm
    · exact hrelinks.reported
  have hrange : ∀ (i : String) (h : Held), d.selector.held[i]? = some h →
      h.link.candidate < d.document.attachments.length := by
    intro i h hi
    rw [hsized]
    exact hsettled.inRange hi
  have hchecks := hfollowing.foldl hshown hrange
  have hnotes := foldl_followOne_notes changes d
  unfold follow
  have hlockstep : (changes.foldl followOne d).Lockstep := by
    constructor
    · rw [hnotes.selector]
      exact hsettled
    · rw [hnotes.selector]
      exact hattempting
    · rw [hnotes.selector]
      exact hshown
    · rw [hnotes.selector, hnotes.document]
      exact hsized
    · rw [hnotes.selector]
      exact hchecks
  split
  · exact ⟨hlockstep.settled, hlockstep.attempting, hlockstep.shown, hlockstep.sized,
      hlockstep.checks⟩
  · exact hlockstep

/-- An event fed puts the checks in step with the selection it leads to, where
they are with what is held once it is in. -/
theorem feed_lockstep {d : Driver φ} {event : Event} (hsettled : Settled d.selector)
    (hattempting : d.selector.Attempting)
    (hsized : d.document.attachments.length = d.selector.document.attachments.length)
    (hchecks : Checked d.checks (d.selector.observe event).held) :
    (d.feed event).Lockstep := by
  have hobserved := Selector.observe_attempting hattempting event
  have hafter : ({ d with selector := (d.selector.handle event).1 } : Driver φ).selector =
      (d.selector.handle event).1 := rfl
  apply follow_lockstep (d := { d with selector := (d.selector.handle event).1 })
    (Selector.handle_relinks hsettled hattempting event) hobserved
  · exact Selector.settle_settled _
  · exact Selector.settle_attempting hobserved
  · exact Selector.settle_shown _
  · rw [hafter, Selector.handle_document]
    exact hsized
  · exact hchecks.keyed
  · exact hchecks.agrees
  · intro i h _ hheld
    exact hchecks.checked i h hheld

/-- An event that passes no stage keeps the driver in step. -/
theorem Lockstep.feed {d : Driver φ} (hlockstep : d.Lockstep) {event : Event}
    (hevent : ∀ attempt stage, event ≠ .passed attempt stage) : (d.feed event).Lockstep := by
  apply feed_lockstep hlockstep.settled hlockstep.attempting hlockstep.sized
  rw [Selector.observe_held _ hevent]
  exact hlockstep.checks

/-- A check moved on to the next stage, and the selector told that it passed the
one before, are in step. -/
theorem Lockstep.pass {d : Driver φ} (hlockstep : d.Lockstep) (moved : Check)
    {attempt : Attempt} {check : Check} {stage : Stage} (hcheck : d.checkOf attempt = some check)
    (hstage : check.atStage = some stage)
    (hmoved : moved.asHeld = { check.asHeld with
      atStage := stage.next (isWirelessAt d.selector.document check.candidate) })
    (hon : moved.interface = check.interface) :
    ((d.updateCheck moved).feed (.passed attempt stage)).Lockstep := by
  obtain ⟨hattempt, hheld⟩ := hlockstep.held hcheck
  have hsame : moved.attempt = attempt := by
    rw [← hattempt]
    exact congrArg (·.link.attempt) hmoved
  have hpassed := Selector.observe_passed hlockstep.attempting hheld hstage
  have hobserved : (d.selector.observe (.passed attempt stage)).held =
      d.selector.held.insert check.interface moved.asHeld := by
    rw [hmoved, ← hattempt]
    exact hpassed
  apply feed_lockstep (d := d.updateCheck moved) hlockstep.settled hlockstep.attempting
    hlockstep.sized
  have hchecks := hlockstep.checks
  change Checked (d.checks.insert moved.attempt.id moved)
    (d.selector.observe (.passed attempt stage)).held
  rw [hobserved]
  constructor
  · intro id other hother
    rw [OrderedMap.getElem?_insert_ite] at hother
    split at hother
    · rename_i hid
      rw [← Option.some.inj hother, hid]
    · exact hchecks.keyed id other hother
  · intro id other hother
    rw [OrderedMap.getElem?_insert_ite] at hother
    rw [OrderedMap.getElem?_insert_ite]
    split at hother
    · rw [← Option.some.inj hother, if_pos hon.symm]
    · rename_i hid
      have hothers := hchecks.agrees id other hother
      rw [if_neg]
      · exact hothers
      · intro hinterface
        rw [← hinterface, hheld, Option.some.injEq] at hothers
        apply hid
        rw [hsame, ← hattempt, ← hchecks.keyed id other hother]
        exact congrArg (·.link.attempt.id) hothers
  · intro i h hi
    rw [OrderedMap.getElem?_insert_ite] at hi
    rw [OrderedMap.mem_insert_iff]
    split at hi
    · left
      rw [← Option.some.inj hi]
      rfl
    · exact .inr (hchecks.checked i h hi)

end

/-! ## What leaves the checks where they are -/

/-- The checks are in step where each is where one in step is. -/
theorem Lockstep.ofPlaces {d d' : Driver φ} (hlockstep : d.Lockstep)
    (hselector : d'.selector = d.selector) (hdocument : d'.document = d.document)
    (hplaces : ∀ id : Nat, d'.checks[id]?.map Check.place = d.checks[id]?.map Check.place) :
    d'.Lockstep := by
  have hbefore : ∀ (id : Nat) (check : Check), d'.checks[id]? = some check →
      ∃ old, d.checks[id]? = some old ∧ old.interface = check.interface ∧
        old.asHeld = check.asHeld := by
    intro id check hcheck
    have hplace := hplaces id
    rw [hcheck, Option.map_some] at hplace
    obtain ⟨old, hold, hsame⟩ := Option.map_eq_some_iff.mp hplace.symm
    simp only [Check.place, Prod.mk.injEq] at hsame
    exact ⟨old, hold, hsame⟩
  constructor
  · rw [hselector]
    exact hlockstep.settled
  · rw [hselector]
    exact hlockstep.attempting
  · rw [hselector]
    exact hlockstep.shown
  · rw [hselector, hdocument]
    exact hlockstep.sized
  · rw [hselector]
    constructor
    · intro id check hcheck
      obtain ⟨old, hold, -, hheld⟩ := hbefore id check hcheck
      rw [← hlockstep.checks.keyed id old hold]
      exact congrArg (·.link.attempt.id) hheld.symm
    · intro id check hcheck
      obtain ⟨old, hold, hinterface, hheld⟩ := hbefore id check hcheck
      rw [← hinterface, ← hheld]
      exact hlockstep.checks.agrees id old hold
    · intro i h hi
      have hmem := hlockstep.checks.checked i h hi
      rw [ExtTreeMap.mem_iff_isSome_getElem?] at hmem ⊢
      have hplace := congrArg Option.isSome (hplaces h.link.attempt.id)
      simpa [hmem] using hplace

theorem Lockstep.ofEq {d d' : Driver φ} (hlockstep : d.Lockstep)
    (hselector : d'.selector = d.selector) (hdocument : d'.document = d.document)
    (hchecks : d'.checks = d.checks) : d'.Lockstep := by
  apply hlockstep.ofPlaces hselector hdocument
  intro id
  rw [hchecks]

theorem Lockstep.update {d : Driver φ} (hlockstep : d.Lockstep) {attempt : Attempt}
    {check moved : Check} (hcheck : d.checkOf attempt = some check)
    (hplace : moved.place = check.place) : (d.updateCheck moved).Lockstep := by
  obtain ⟨hattempt, -⟩ := hlockstep.held hcheck
  have hsame : moved.attempt = attempt := by
    rw [← hattempt]
    exact congrArg (·.2.link.attempt) hplace
  refine hlockstep.ofPlaces ?_ ?_ ?_
  · rfl
  · rfl
  intro id
  change (d.checks.insert moved.attempt.id moved)[id]?.map Check.place = _
  rw [OrderedMap.getElem?_insert_ite]
  split
  · rename_i hid
    rw [← hid, hsame]
    have hbefore : d.checks[attempt.id]? = some check := hcheck
    rw [hbefore, Option.map_some, Option.map_some, hplace]
  · rfl

theorem Lockstep.mapChecks {d : Driver φ} (hlockstep : d.Lockstep) {f : Nat → Check → Check}
    (hplace : ∀ id check, (f id check).place = check.place) :
    Lockstep { d with checks := d.checks.map f } := by
  refine hlockstep.ofPlaces ?_ ?_ ?_
  · rfl
  · rfl
  intro id
  change (d.checks.map f)[id]?.map Check.place = _
  rw [ExtTreeMap.getElem?_map]
  rcases d.checks[id]? with _ | check
  · rfl
  · exact congrArg some (hplace id check)

/-- Starting work keeps the driver in step. -/
theorem Lockstep.start {d : Driver φ} (hlockstep : d.Lockstep) (work : Work) :
    (d.start work).Lockstep :=
  hlockstep.ofEq rfl rfl rfl

theorem Lockstep.foldl {α : Type} {f : Driver φ → α → Driver φ}
    (hone : ∀ d a, d.Lockstep → (f d a).Lockstep) {items : List α} {d : Driver φ}
    (hlockstep : d.Lockstep) : (items.foldl f d).Lockstep := by
  induction items generalizing d with
  | nil => exact hlockstep
  | cons a rest ih => exact ih (hone d a hlockstep)

theorem Lockstep.deadline {d : Driver φ} (hlockstep : d.Lockstep) (attempt : Attempt)
    (wait : Nat) : (d.deadline attempt wait).Lockstep := by
  unfold Driver.deadline
  split
  · exact hlockstep
  · rename_i check hcheck
    apply Lockstep.start
    exact hlockstep.update hcheck rfl

theorem Lockstep.addressDeadline {d : Driver φ} (hlockstep : d.Lockstep)
    (attempt : Attempt) : (d.addressDeadline attempt).Lockstep := by
  unfold Driver.addressDeadline
  split
  · exact hlockstep
  · exact hlockstep.deadline _ _

theorem Lockstep.rejoin {d : Driver φ} (hlockstep : d.Lockstep) (attempt : Attempt) :
    (d.rejoin attempt).Lockstep := by
  unfold Driver.rejoin
  split
  · exact hlockstep
  · split
    · exact hlockstep
    · exact hlockstep.start _

/-- Failing the command waiting leaves the checks. -/
theorem failPending_checks (d : Driver φ) (failure : Failure) :
    (d.failPending failure).checks = d.checks := by
  unfold Driver.failPending
  split
  · rfl
  · rfl

theorem kick_checks (d : Driver φ) : d.kick.checks = d.checks := by
  unfold Driver.kick
  split
  · rfl
  · simp only
    split
    · rw [failPending_checks]
    · rw [failPending_checks]
    · split
      · exact failPending_checks _ _
      · rfl

theorem Lockstep.failPending {d : Driver φ} (hlockstep : d.Lockstep) (failure : Failure) :
    (d.failPending failure).Lockstep :=
  hlockstep.ofEq (d.failPending_aside failure).selector (d.failPending_aside failure).document
    (d.failPending_checks failure)

theorem Lockstep.kick {d : Driver φ} (hlockstep : d.Lockstep) : d.kick.Lockstep :=
  hlockstep.ofEq d.kick_aside.selector d.kick_aside.document d.kick_checks

theorem Lockstep.settle {d : Driver φ} (hlockstep : d.Lockstep) : d.settle.Lockstep := by
  have hanswer : d.answer.Lockstep := by
    unfold Driver.answer
    split
    · exact hlockstep
    · split
      · exact hlockstep
      · exact hlockstep.ofEq rfl rfl rfl
  unfold Driver.settle
  simp only
  split
  · apply Lockstep.foldl
    · intro d candidate hlockstep
      apply Lockstep.start
      exact hlockstep.ofEq rfl rfl rfl
    · exact hanswer.ofEq rfl rfl rfl
  · exact hanswer

theorem Lockstep.sweepLater {d : Driver φ} (hlockstep : d.Lockstep) (radio : String) :
    (d.sweepLater radio).Lockstep := by
  unfold Driver.sweepLater
  split
  · exact hlockstep
  · apply Lockstep.start
    exact hlockstep.ofEq rfl rfl rfl

theorem Lockstep.sweep {d : Driver φ} (hlockstep : d.Lockstep) : d.sweep.Lockstep := by
  unfold Driver.sweep
  apply Lockstep.foldl
  · intro d radio hlockstep
    unfold Driver.sweepOne
    split
    · exact hlockstep
    · apply Lockstep.sweepLater
      exact hlockstep.ofEq rfl rfl rfl
  · exact hlockstep.ofEq rfl rfl rfl

theorem Lockstep.scanForPending {d : Driver φ} (hlockstep : d.Lockstep) :
    d.scanForPending.Lockstep := by
  unfold Driver.scanForPending
  simp only
  split
  · exact hlockstep
  · apply Lockstep.foldl
    · intro d radio hlockstep
      unfold Driver.scanOneForPending
      split
      · exact hlockstep
      · apply Lockstep.start
        exact hlockstep.ofEq rfl rfl rfl
    · exact hlockstep

theorem Lockstep.reprobe {d : Driver φ} (hlockstep : d.Lockstep) : d.reprobe.Lockstep := by
  apply Lockstep.start
  exact hlockstep.ofEq rfl rfl rfl

theorem Lockstep.reprobed {d : Driver φ} (hlockstep : d.Lockstep)
    (result : Except String (List RadioInfo)) : (d.reprobed result).Lockstep := by
  have hagain (radios : List RadioInfo) : Lockstep { d with radios := radios } :=
    hlockstep.ofEq rfl rfl rfl
  unfold Driver.reprobed
  cases result with
  | ok radios =>
      simp only
      split
      · apply Lockstep.reprobe
        exact (hagain radios).ofEq rfl rfl rfl
      · exact (hagain radios).ofEq rfl rfl rfl
  | error err =>
      simp only
      split
      · apply Lockstep.reprobe
        exact hlockstep.ofEq rfl rfl rfl
      · exact hlockstep.ofEq rfl rfl rfl

theorem Lockstep.sweptOn {d : Driver φ} (hlockstep : d.Lockstep) (radio : String)
    (token : Nat) : (d.sweptOn radio token).Lockstep := by
  unfold Driver.sweptOn
  split
  · exact hlockstep.sweepLater _
  · exact hlockstep

theorem Lockstep.evaluateGateway {d : Driver φ} (hlockstep : d.Lockstep) {attempt : Attempt}
    {check : Check} (hcheck : d.checkOf attempt = some check) :
    (d.evaluateGateway attempt check).Lockstep := by
  unfold Driver.evaluateGateway
  split
  · exact hlockstep
  · split
    · exact hlockstep
    · apply Lockstep.start
      exact hlockstep.update hcheck rfl

/-! ## Verifying an attempt -/

section

variable [BEq φ]

/-- Failing an attempt keeps the driver in step. -/
theorem Lockstep.fail {d : Driver φ} (hlockstep : d.Lockstep) (attempt : Attempt)
    (stage : Stage) (member : List Segment) (reason : String) :
    (d.fail attempt stage member reason).Lockstep :=
  hlockstep.feed (by intro other passed hevent; cases hevent)

theorem Lockstep.stationChannel {d : Driver φ} (hlockstep : d.Lockstep) (interface : String)
    (frequency : Option Nat) : (d.stationChannel interface frequency).Lockstep := by
  unfold Driver.stationChannel
  split
  · exact hlockstep.feed (by intro other passed hevent; cases hevent)
  · exact hlockstep.start _

/-- So does moving an attempt on as far as its link takes it: the check passes
addressing as the selector is told. -/
theorem Lockstep.evaluate {d : Driver φ} (hlockstep : d.Lockstep) (attempt : Attempt) :
    (d.evaluate attempt).Lockstep := by
  unfold Driver.evaluate
  split
  · exact hlockstep
  · rename_i check hcheck
    split
    · exact hlockstep
    · split
      · rename_i hstage
        split
        · exact hlockstep
        · have hpassed := (hlockstep.pass
            { check with atStage := some .gateway, timer := check.timer + 1 }
            hcheck hstage rfl rfl).deadline attempt ROUTE
          simp only
          split
          · exact hpassed
          · rename_i moved hmoved
            split
            · exact hpassed.evaluateGateway hmoved
            · exact hpassed
      · exact hlockstep.evaluateGateway hcheck
      · split
        · exact hlockstep.fail _ _ _ _
        · exact hlockstep
      · exact hlockstep
      · exact hlockstep

theorem Lockstep.rescanned {d : Driver φ} (hlockstep : d.Lockstep) (attempt : Attempt) :
    (d.rescanned attempt).Lockstep := by
  unfold Driver.rescanned
  split
  · exact hlockstep
  · split
    · exact hlockstep
    · split
      · exact hlockstep
      · simp only
        split
        · exact hlockstep.fail _ _ _ _
        · exact hlockstep.fail _ _ _ _

theorem Lockstep.associated {d : Driver φ} (hlockstep : d.Lockstep) (attempt : Attempt)
    (result : Except String Joined) : (d.associated attempt result).Lockstep := by
  unfold Driver.associated
  split
  · exact hlockstep
  · rename_i check hcheck
    split
    · exact hlockstep
    · rename_i hat
      have hstage : check.atStage = some .association := by simpa using hat
      split
      · exact hlockstep
      · split
        · rename_i joined
          split
          · exact hlockstep.fail _ _ _ _
          · have hjoined : Lockstep { d with
                joined := d.joined.insert check.interface joined } :=
              hlockstep.ofEq rfl rfl rfl
            have hpassed := hjoined.pass { check with atStage := some .addressing }
              hcheck hstage rfl rfl
            exact ((hpassed.stationChannel _ _).addressDeadline _).evaluate _
        · split
          · split
            · exact hlockstep.start _
            · exact hlockstep.rescanned _
          · exact hlockstep.fail _ _ _ _

theorem Lockstep.associate {d : Driver φ} (hlockstep : d.Lockstep) (attempt : Attempt) :
    (d.associate attempt).Lockstep := by
  unfold Driver.associate
  split
  · exact hlockstep
  · split
    · exact hlockstep
    · simp only
      split
      · split
        · exact hlockstep.associated _ _
        · exact hlockstep.start _
      · exact hlockstep.start _

theorem Lockstep.rejoined {d : Driver φ} (hlockstep : d.Lockstep) (attempt : Attempt)
    (result : Except String Joined) : (d.rejoined attempt result).Lockstep := by
  unfold Driver.rejoined
  split
  · exact hlockstep
  · split
    · exact hlockstep.stationChannel _ _
    · exact hlockstep.fail _ _ _ _

theorem Lockstep.arm {d : Driver φ} (hlockstep : d.Lockstep) (attempt : Attempt) :
    (d.arm attempt).Lockstep := by
  unfold Driver.arm
  split
  · exact hlockstep
  · rename_i check hcheck
    split
    · exact hlockstep
    · have harmed : (d.updateCheck { check with armed := true }).Lockstep :=
        hlockstep.update hcheck rfl
      simp only
      split
      · split
        · exact hlockstep.update hcheck rfl
        · exact harmed.associate _
      · exact (harmed.addressDeadline _).evaluate _
      · exact harmed.evaluate _

theorem Lockstep.probed {d : Driver φ} (hlockstep : d.Lockstep) (attempt : Attempt)
    (result : Except String Unit) : (d.probed attempt result).Lockstep := by
  unfold Driver.probed
  split
  · exact hlockstep
  · rename_i check hcheck
    have hprobed : (d.updateCheck { check with probing := false }).Lockstep :=
      hlockstep.update hcheck rfl
    simp only
    split
    · exact hprobed
    · rename_i hat
      have hstage : check.atStage = some .gateway := by simpa using hat
      split
      · exact hlockstep.pass { check with probing := false, atStage := none }
          hcheck hstage rfl rfl
      · exact hprobed.fail _ _ _ _

theorem Lockstep.deadlinePassed {d : Driver φ} (hlockstep : d.Lockstep) (attempt : Attempt)
    (timer : Nat) : (d.deadlinePassed attempt timer).Lockstep := by
  unfold Driver.deadlinePassed
  split
  · exact hlockstep
  · split
    · exact hlockstep
    · split
      · exact hlockstep.fail _ _ _ _
      · exact hlockstep.fail _ _ _ _
      · exact hlockstep

/-! ## Turns of the task -/

theorem Lockstep.scannedForPending {d : Driver φ} (hlockstep : d.Lockstep) (radio : String) :
    (d.scannedForPending radio).Lockstep := by
  unfold Driver.scannedForPending
  split
  · exact hlockstep
  · split
    · exact hlockstep.ofEq rfl rfl rfl
    · simp only
      have hscanned : Lockstep { d with scanning := d.scanning.erase radio } :=
        hlockstep.ofEq rfl rfl rfl
      apply Lockstep.foldl
      · intro d attempt hlockstep
        exact hlockstep.associate attempt
      · apply Lockstep.mapChecks
        · split
          · apply Lockstep.kick
            exact hscanned.ofEq rfl rfl rfl
          · exact hscanned
        · intro id check
          split <;> rfl

theorem Lockstep.hear {d : Driver φ} (hlockstep : d.Lockstep) (interface : String)
    (networks : ExtTreeMap String Int) (scanned : Bool) :
    (d.hear interface networks scanned).Lockstep := by
  have hnoted (heard : ExtTreeMap String (ExtTreeMap String Int)) :
      Lockstep { d with heard := heard } := hlockstep.ofEq rfl rfl rfl
  unfold Driver.hear
  simp only
  apply Lockstep.foldl
  · intro d network hlockstep
    split
    · exact hlockstep.feed (by intro other passed hevent; cases hevent)
    · exact hlockstep
  · split
    · apply Lockstep.foldl
      · intro d ssid hlockstep
        exact hlockstep.feed (by intro other passed hevent; cases hevent)
      · exact hnoted _
    · exact hnoted _

theorem Lockstep.stationEvent {d : Driver φ} (hlockstep : d.Lockstep) (interface : String)
    (station : Station) : (d.stationEvent interface station).Lockstep := by
  have hnoted (stations : ExtTreeMap String Station) (joined : ExtTreeMap String Joined) :
      Lockstep { d with stations := stations, joined := joined } := hlockstep.ofEq rfl rfl rfl
  unfold Driver.stationEvent
  simp only
  split
  · exact hnoted _ _
  · split
    · split
      · exact (hnoted _ _).stationChannel _ _
      · exact hnoted _ _
    · exact hnoted _ _
    · split
      · apply Lockstep.rejoin
        exact hlockstep.ofEq rfl rfl rfl
      · exact (hnoted _ _).fail _ _ _ _

theorem Lockstep.announce {d : Driver φ} (hlockstep : d.Lockstep) (interface : String)
    (observation : Observation) : (d.announce interface observation).Lockstep := by
  unfold Driver.announce
  apply Lockstep.foldl
  · intro d attempt hlockstep
    exact hlockstep.evaluate attempt
  · apply hlockstep.mapChecks
    intro id check
    split
    · unfold Check.announced
      split <;> rfl
    · rfl

theorem Lockstep.observe {d : Driver φ} (hlockstep : d.Lockstep) (observation : Observation) :
    (d.observe observation).Lockstep := by
  unfold Driver.observe
  split
  · exact hlockstep.feed (by intro other passed hevent; cases hevent)
  · exact hlockstep.hear _ _ _
  · exact hlockstep.stationEvent _ _
  · split
    · exact hlockstep.ofEq rfl rfl rfl
    · exact hlockstep.reprobe
  all_goals
    have hnoted (links : Links) : Lockstep { d with links := links } :=
      hlockstep.ofEq rfl rfl rfl
    split
    split
    · exact hnoted _
    · exact (hnoted _).announce _ _

theorem Lockstep.appliedEnd {d : Driver φ} (hlockstep : d.Lockstep)
    (result : Except ApplyError Changes) (taken : Nat) (attempts : List Attempt) :
    (d.appliedEnd result taken attempts).Lockstep := by
  have hended : Lockstep { d with idle := true, done := taken } := hlockstep.ofEq rfl rfl rfl
  unfold Driver.appliedEnd
  simp only
  apply Lockstep.foldl
  · intro d attempt hlockstep
    exact hlockstep.arm attempt
  · split
    · rename_i changes
      have hprobed : Lockstep (if changes.regdom then
          Driver.reprobe { d with idle := true, done := taken }
          else { d with idle := true, done := taken }) := by
        split
        · exact hended.reprobe
        · exact hended
      split
      · split
        · exact hprobed.scanForPending
        · exact hprobed
      · exact hprobed
    · exact hended.failPending _

theorem Lockstep.scannedEnd {d : Driver φ} (hlockstep : d.Lockstep) (interface : String)
    (result : Except String (ExtTreeMap String Int)) (scanner : Scanner) :
    (d.scannedEnd interface result scanner).Lockstep := by
  have hasked {d : Driver φ} (hlockstep : d.Lockstep) :
      (d.scannedFor interface scanner).Lockstep := by
    cases scanner with
    | pending => exact hlockstep.scannedForPending interface
    | sweep token => exact hlockstep.sweptOn interface token
    | refused attempt => exact hlockstep.rescanned attempt
  unfold Driver.scannedEnd
  split
  · exact hasked (hlockstep.hear _ _ _)
  · exact hasked hlockstep

theorem Lockstep.internal {d : Driver φ} (hlockstep : d.Lockstep) (internal : Internal) :
    (d.internal internal).Lockstep := by
  cases internal with
  | applied result taken attempts => exact hlockstep.appliedEnd result taken attempts
  | reprobed result => exact hlockstep.reprobed result
  | scanned interface result scanner => exact hlockstep.scannedEnd interface result scanner
  | sweep radio token =>
      simp only [Driver.internal, Driver.sweepNow]
      split
      · exact hlockstep.start _
      · exact hlockstep
  | associated attempt result => exact hlockstep.associated attempt result
  | operating interface frequency =>
      simp only [Driver.internal]
      split
      · exact hlockstep.feed (by intro other passed hevent; cases hevent)
      · exact hlockstep
  | rejoined attempt result => exact hlockstep.rejoined attempt result
  | deadline attempt timer => exact hlockstep.deadlinePassed attempt timer
  | probed attempt result => exact hlockstep.probed attempt result
  | retry candidate generation =>
      simp only [Driver.internal, Driver.retryOver]
      split
      · exact hlockstep.feed (by intro other passed hevent; cases hevent)
      · exact hlockstep

/-! ## Documents -/

/-- The candidates the driver and the selector run are as many, once another
document is configured. -/
theorem configured_sized {s s' : Selector φ} {document : Document φ} {changes : List Change}
    (hconfigure : s.configure document = .ok (s', changes)) :
    document.attachments.length = s'.document.attachments.length := by
  rcases Selector.configure_cases hconfigure with ⟨hsame, rfl, -⟩ | ⟨-, hdocument, -⟩
  · exact Document.length_of_beq hsame
  · rw [hdocument]

/-- A check carried over is of the same attempt, at the candidate its link is at. -/
theorem carriedOver_eq_some {links : List Link} {check moved : Check}
    (hmoved : carriedOver links check = some moved) :
    ∃ link ∈ links, link.attempt = check.attempt ∧
      moved = { check with candidate := link.candidate } := by
  unfold carriedOver at hmoved
  obtain ⟨link, hfound, hsame⟩ := Option.map_eq_some_iff.mp hmoved
  exact ⟨link, List.mem_of_find?_eq_some hfound, by simpa using List.find?_some hfound,
    hsame.symm⟩

theorem carriedOver_isSome {links : List Link} {check : Check} {link : Link}
    (hlink : link ∈ links) (hattempt : link.attempt = check.attempt) :
    (carriedOver links check).isSome := by
  unfold carriedOver
  rw [Option.isSome_map, List.find?_isSome]
  exact ⟨link, hlink, by simp [hattempt]⟩

/-- Configuring a document that is accepted keeps the driver in step: the checks
carried over move with their candidates, and the rest go. -/
theorem Lockstep.configure {d d' : Driver φ} {document : Document φ} (hlockstep : d.Lockstep)
    (hconfigure : d.configure document = .ok d') : d'.Lockstep := by
  unfold Driver.configure at hconfigure
  obtain ⟨⟨selector, changes⟩, hselector, hrest⟩ := Fallible.bind_ok.mp hconfigure
  obtain ⟨hattempting, hshown, moved, hmoved, hnext, hrelinks, hkept⟩ :=
    Selector.configure_relinks hlockstep.settled hlockstep.attempting hlockstep.shown hselector
  have hsettled := Selector.configure_settled hlockstep.settled hselector
  have hchecks := hlockstep.checks
  rw [← Fallible.pure_ok.mp hrest]
  refine Lockstep.ofEq ?_ (d := follow _ changes) rfl rfl rfl
  apply follow_lockstep hrelinks hmoved hsettled hattempting hshown (configured_sized hselector)
  · intro id check hcheck
    dsimp only at hcheck
    rw [ExtTreeMap.getElem?_filterMap'] at hcheck
    obtain ⟨old, hold, hcarried⟩ := Option.bind_eq_some_iff.mp hcheck
    obtain ⟨link, -, -, rfl⟩ := carriedOver_eq_some hcarried
    exact hchecks.keyed id old hold
  · intro id check hcheck
    dsimp only at hcheck
    rw [ExtTreeMap.getElem?_filterMap'] at hcheck
    obtain ⟨old, hold, hcarried⟩ := Option.bind_eq_some_iff.mp hcheck
    obtain ⟨link, hmem, hattempt, rfl⟩ := carriedOver_eq_some hcarried
    have hheld := hchecks.agrees id old hold
    obtain ⟨i, hlink⟩ := OrderedMap.mem_values_iff.mp hmem
    rw [hsettled.links_eq] at hlink
    obtain ⟨h, hi, rfl⟩ := Option.map_eq_some_iff.mp hlink
    rcases hrelinks.kept i h hi with hbefore | hfresh
    · obtain ⟨first, hfirst, hsame, hstage⟩ := hkept i h hbefore
      obtain rfl := hlockstep.attempting.distinct i old.interface first old.asHeld hfirst hheld
        (hsame.trans hattempt)
      rw [hfirst, Option.some.injEq] at hheld
      have hasHeld : Check.asHeld { old with candidate := h.link.candidate } = h := by
        obtain ⟨⟨candidate, attempt⟩, atStage⟩ := h
        dsimp only at hattempt hstage
        rw [← hstage, hattempt, hheld]
        rfl
      rw [hasHeld]
      exact hbefore
    · -- An attempt a check is on was handed out before.
      have hle := hlockstep.attempting.handed _ _ hheld
      have hlt := hfresh.1
      rw [hnext, hattempt] at hlt
      simp only [Check.asHeld] at hle
      omega
  · intro i h hi hbefore
    obtain ⟨old, hold, hattempt, -⟩ := hkept i h hbefore
    have hmem := hchecks.checked i old hold
    obtain ⟨check, hcheck⟩ :=
      Option.isSome_iff_exists.mp (ExtTreeMap.mem_iff_isSome_getElem?.mp hmem)
    have hsame := Attempt.eq_of_id (hchecks.keyed _ check hcheck)
    have hlink : h.link ∈ selector.decision.links.values := by
      rw [OrderedMap.mem_values_iff]
      refine ⟨i, ?_⟩
      dsimp only at hi
      rw [hsettled.links_eq, hi]
      rfl
    rw [hattempt] at hcheck hsame
    dsimp only
    rw [ExtTreeMap.mem_iff_isSome_getElem?, ExtTreeMap.getElem?_filterMap', hcheck,
      Option.bind_some]
    exact carriedOver_isSome hlink hsame.symm

/-- A command keeps the driver in step. -/
theorem Lockstep.command {d : Driver φ} (hlockstep : d.Lockstep) (command : Command φ) :
    (d.command command).Lockstep := by
  cases command with
  | apply document replacing reply =>
      simp only [Driver.command]
      rcases hconfigure : d.configure document with invalid | configured
      · exact hlockstep.ofEq rfl rfl rfl
      · apply Lockstep.scanForPending
        exact (hlockstep.configure hconfigure).ofEq rfl rfl rfl
  | restore document reply =>
      simp only [Driver.command]
      rcases hconfigure : d.configure document with invalid | configured
      · exact hlockstep.ofEq rfl rfl rfl
      · exact (hlockstep.configure hconfigure).ofEq rfl rfl rfl

/-- A turn keeps the driver in step. -/
theorem Lockstep.turn {d : Driver φ} (hlockstep : d.Lockstep) (turn : Turn φ) :
    (d.turn turn).Lockstep := by
  have htaken : (d.takeIn turn).Lockstep := by
    cases turn with
    | command command => exact hlockstep.command command
    | observed observation => exact hlockstep.observe observation
    | ended work internal =>
        apply Lockstep.internal
        exact hlockstep.ofEq rfl rfl rfl
  exact htaken.kick.settle.sweep

end

/-- A new driver is in step. -/
theorem new_lockstep {shared : Shared φ} {radios : List RadioInfo} {selector : Selector φ}
    (hnew : Selector.new shared.hardware
      { attachments := [], hotspot := none, regulatoryDomain := none } = .ok selector) :
    (Driver.new shared radios selector).Lockstep := by
  have hsettled := Selector.new_settled hnew
  obtain ⟨hattempting, hshown⟩ := Selector.new_attempting hnew
  have hdocument := (Selector.new_keeps hnew).1
  refine ⟨hsettled, hattempting, hshown, ?_, ?_⟩
  · change 0 = selector.document.attachments.length
    rw [hdocument]
    rfl
  · constructor
    · intro id check hcheck
      simp [Driver.new] at hcheck
    · intro id check hcheck
      simp [Driver.new] at hcheck
    · intro i h hi
      have hlt := hsettled.inRange hi
      rw [hdocument] at hlt
      exact absurd hlt (Nat.not_lt_zero _)

/-! ## Runs -/

/-- The driver's checks against the decision in force: each attempt linked has
its check, which names the link's interface and candidate and the stage the
selector holds the attempt at, and there is no other. -/
structure InStep (d : Driver φ) : Prop where
  keyed : ∀ id : Nat, id ∈ d.checks ↔ ∃ (interface : String) (link : Link),
    d.selector.decision.links[interface]? = some link ∧ link.attempt.id = id
  linked : ∀ (id : Nat) (check : Check), d.checks[id]? = some check →
    check.attempt.id = id ∧ d.selector.decision.links[check.interface]? =
      some { candidate := check.candidate, attempt := check.attempt }
  staged : ∀ (id : Nat) (check : Check), d.checks[id]? = some check →
    ∃ h : Held, d.selector.holding check.attempt = some (check.interface, h) ∧
      h.atStage = check.atStage
  verifying : ∀ (id : Nat) (check : Check), d.checks[id]? = some check → ∀ stage,
    d.selector.decision.states[check.candidate]? = some (.verifying stage) ↔
      check.atStage = some stage

/-- A driver in step has its checks in step with the decision. -/
theorem Lockstep.inStep {d : Driver φ} (hlockstep : d.Lockstep) : d.InStep := by
  have hchecks := hlockstep.checks
  have hlinks := hlockstep.settled.links_eq
  constructor
  · intro id
    constructor
    · intro hmem
      obtain ⟨check, hcheck⟩ :=
        Option.isSome_iff_exists.mp (ExtTreeMap.mem_iff_isSome_getElem?.mp hmem)
      refine ⟨check.interface, check.asHeld.link, ?_, hchecks.keyed id check hcheck⟩
      rw [hlinks, hchecks.agrees id check hcheck]
      rfl
    · intro hlinked
      obtain ⟨interface, link, hlink, rfl⟩ := hlinked
      rw [hlinks] at hlink
      obtain ⟨h, hheld, rfl⟩ := Option.map_eq_some_iff.mp hlink
      exact hchecks.checked interface h hheld
  · intro id check hcheck
    refine ⟨hchecks.keyed id check hcheck, ?_⟩
    rw [hlinks, hchecks.agrees id check hcheck]
    rfl
  · intro id check hcheck
    exact ⟨check.asHeld,
      Selector.holding_eq hlockstep.attempting (hchecks.agrees id check hcheck), rfl⟩
  · intro id check hcheck stage
    have hstate := hlockstep.shown _ _ (hchecks.agrees id check hcheck)
    change d.selector.decision.states[check.candidate]? = _ at hstate
    rw [hstate, Option.some.injEq]
    unfold heldState
    cases hat : check.asHeld.atStage with
    | some at_ =>
        have hsame : check.atStage = some at_ := hat
        simp [hsame]
    | none =>
        have hsame : check.atStage = none := hat
        simp only [hsame, reduceCtorEq, iff_false]
        split <;> simp

end Driver

/-- Between events, whatever is observed, answered late or asked in whatever
order, the driver's checks are in step with the selector's decision. -/
theorem driving_inStep [BEq φ] {shared : Shared φ} {d : Driver φ}
    (hreach : (driving shared).Reachable d) : d.InStep := by
  apply Driver.Lockstep.inStep
  apply hreach.invariant
  · rintro d ⟨radios, selector, hnew, rfl⟩
    exact Driver.new_lockstep hnew
  · intro d turn d' _ hlockstep htake
    rw [(Driver.takeTurn_some htake).2]
    exact hlockstep.turn turn

/-- With the second candidate established on the port, the driver is in step, and
believes the attempt past its last stage. -/
theorem driving_inStep_established : ∃ d : Driver Nat,
    (d.checks.values.any fun check => check.atStage.isNone) = true ∧ d.InStep := by
  have hrun : ((portDriver.bind fun d =>
      Transition.System.run Driver.takeTurn d (configured :: secondEstablished)).any fun d =>
        d.checks.values.any fun check => check.atStage.isNone) = true := by
    decide +kernel
  obtain ⟨selector, d, hnew, hrun, hd⟩ := portDriver_run hrun
  have hinit : (driving portShared).init (.new portShared [] selector) :=
    ⟨[], selector, hnew, rfl⟩
  exact ⟨d, hd, driving_inStep (.of_run (.start hinit) (fun _ _ _ _ htake => htake) hrun)⟩

/-! ## The driver and its selector -/

namespace Driver

variable [BEq φ] {d d' : Driver φ} {hardware : Hardware}

/-- What evolves the driver feeds its selector. -/
theorem Evolves.selects (hevolves : Evolves d d')
    (hreach : (selecting φ hardware).Reachable d.selector) :
    (selecting φ hardware).Reachable d'.selector := by
  induction hevolves with
  | refl => exact hreach
  | aside _ haside ih => rwa [haside.selector]
  | @fed d' event _ _ ih =>
      have hfollowed : Followed { d' with selector := (d'.selector.handle event).1 } (d'.feed event)
          (d'.selector.handle event).2 := follow_followed _ _
      rw [hfollowed.selector]
      exact .next (a := .handle event) ih ⟨_, rfl⟩

/-- A document configured is configured of the selector. -/
theorem selects_configure {document : Document φ} (hconfigure : d.configure document = .ok d')
    (hreach : (selecting φ hardware).Reachable d.selector) :
    (selecting φ hardware).Reachable d'.selector := by
  obtain ⟨changes, hconfigured⟩ := configure_configured hconfigure
  exact .next (a := .configure document) hreach ⟨changes, hconfigured.selected⟩

/-- A turn feeds the selector what it comes to. -/
theorem selects_turn (turn : Turn φ) (hreach : (selecting φ hardware).Reachable d.selector) :
    (selecting φ hardware).Reachable (d.turn turn).selector := by
  have hfinish : (d.turn turn).selector = (d.takeIn turn).selector := by
    unfold Driver.turn
    rw [(sweep_aside _).selector]
    rcases (d.takeIn turn).kick.settle_aside with haside | haside
    · rw [haside.selector, (kick_aside _).selector]
    · rw [haside.selector]
      exact ((answer_aside _).selector).trans (kick_aside _).selector
  rw [hfinish]
  cases turn with
  | command command =>
      cases command with
      | apply document replacing reply =>
          unfold Driver.takeIn Driver.command
          simp only
          split
          · rename_i hconfigure
            have hselects := selects_configure hconfigure hreach
            rwa [(scanForPending_aside _).selector]
          · exact hreach
      | restore document reply =>
          unfold Driver.takeIn Driver.command
          simp only
          split
          · rename_i hconfigure
            have hselects := selects_configure hconfigure hreach
            exact hselects
          · exact hreach
  | observed observation => exact (d.observe_evolves observation).selects hreach
  | ended work internal =>
      exact (internal_evolves { d with work := d.work.erase work } internal).selects hreach

end Driver

/-- Whatever the driver goes through, what it selects is what its selector comes to alone, from some
document and inputs, and what it publishes are the states decided there. -/
theorem driving_selects [BEq φ] {shared : Shared φ} {d : Driver φ}
    (hreach : (driving shared).Reachable d) :
    (selecting φ shared.hardware).Reachable d.selector ∧ d.Publishes := by
  apply hreach.invariant
  · rintro d ⟨radios, selector, hnew, rfl⟩
    exact ⟨.start ⟨_, hnew⟩, Driver.new_publishes hnew⟩
  · rintro d turn d' _ ⟨hselects, hpublishes⟩ htake
    rw [(Driver.takeTurn_some htake).2]
    refine ⟨Driver.selects_turn turn hselects, ?_⟩
    rcases hpublishes.turn turn with hcontinues | ⟨_, -, hruns⟩
    · exact hcontinues.publishes
    · exact hruns.publishes

/-- So it is once the second candidate is established on the port. -/
theorem driving_selects_established : ∃ d : Driver Nat, d.states.isSome = true ∧
    (selecting Nat onePort).Reachable d.selector ∧ d.Publishes := by
  have hrun : ((portDriver.bind fun d =>
      Transition.System.run Driver.takeTurn d (configured :: secondEstablished)).any fun d =>
        d.states.isSome) = true := by
    decide +kernel
  obtain ⟨selector, d, hnew, hrun, hd⟩ := portDriver_run hrun
  have hinit : (driving portShared).init (.new portShared [] selector) :=
    ⟨[], selector, hnew, rfl⟩
  exact ⟨d, hd, driving_selects (.of_run (.start hinit) (fun _ _ _ _ htake => htake) hrun)⟩

end Bliti.Network.Stack
