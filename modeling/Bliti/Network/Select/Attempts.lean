import Bliti.Library.Fallible
import Bliti.Network.Select.Changes

/-!
# Selection - the attempts held

What becomes of the attempts a selector holds as it selects again: each is kept
where it was, or dropped, and a candidate newly placed gets one never handed out
before.
-/

namespace Bliti.Network.Select

open Std (ExtTreeMap ExtTreeSet)
open Channel.Config

variable {φ : Type}

/-! ## Links that change -/

/-- A link that changes is reported. -/
theorem mem_diff_link {old new : Decision} {interface : String}
    (hchanged : old.links[interface]? ≠ new.links[interface]?) :
    .link interface new.links[interface]? ∈ diff old new := by
  have hmem : interface ∈ old.links.keys ++ new.links.keys := by
    rw [List.mem_append, ExtTreeMap.mem_keys, ExtTreeMap.mem_keys,
      ExtTreeMap.mem_iff_isSome_getElem?, ExtTreeMap.mem_iff_isSome_getElem?]
    rcases hold : old.links[interface]? with _ | link
    · rcases hnew : new.links[interface]? with _ | link
      · rw [hold, hnew] at hchanged
        exact absurd rfl hchanged
      · exact .inr rfl
    · exact .inl rfl
  unfold diff
  simp only [List.mem_append]
  left
  left
  left
  rw [List.mem_filterMap]
  refine ⟨interface, ?_, ?_⟩
  · simpa using hmem
  · simp [hchanged]

/-- A link reported is in force. -/
theorem links_of_mem_diff {old new : Decision} {interface : String} {link : Option Link}
    (hreported : .link interface link ∈ diff old new) : link = new.links[interface]? := by
  unfold diff at hreported
  simp only [List.mem_append] at hreported
  rcases hreported with ((hlink | hhotspot) | hdefault) | hstate
  · obtain ⟨other, -, hlink⟩ := List.mem_filterMap.mp hlink
    split at hlink
    · simp only [Option.some.injEq, Change.link.injEq] at hlink
      rw [← hlink.1, hlink.2]
    · cases hlink
  · split at hhotspot <;> simp at hhotspot
  · split at hdefault <;> simp at hdefault
  · obtain ⟨⟨state, rank⟩, -, hstate⟩ := List.mem_filterMap.mp hstate
    split at hstate <;> cases hstate

namespace Selector

/-! ## Attempts -/

/-- The attempts a selector holds: each on one interface, and handed out before. -/
structure Attempting (s : Selector φ) : Prop where
  distinct : ∀ (interface other : String) (h h' : Held), s.held[interface]? = some h →
    s.held[other]? = some h' → h.link.attempt = h'.link.attempt → interface = other
  handed : ∀ (interface : String) (h : Held), s.held[interface]? = some h →
    h.link.attempt.id ≤ s.nextAttempt

/-- What is held on an interface is new: an attempt not handed out before, yet to
pass a stage. -/
def Fresh (s : Selector φ) (h : Held) : Prop :=
  s.nextAttempt < h.link.attempt.id ∧ ∃ stage, h.atStage = some stage

/-- An attempt new to a selector is none it holds. -/
theorem Fresh.ne {s : Selector φ} {h held : Held} {interface : String} (hfresh : s.Fresh h)
    (hattempting : s.Attempting) (hheld : s.held[interface]? = some held) :
    h.link.attempt ≠ held.link.attempt := by
  intro hsame
  have hlt := hfresh.1
  have hle := hattempting.handed interface held hheld
  rw [hsame] at hlt
  omega

/-- One turn of the loop keeps what an interface held for the candidate, or hands out the
next attempt, at the first of its stages. -/
theorem holdOne_cases (s : Selector φ) (acc : ExtTreeMap String Held × Nat)
    (interface : String) (candidate : Nat) :
    ∃ h, (s.holdOne acc (interface, candidate)).1 = acc.1.insert interface h ∧
      (s.held[interface]? = some h ∧ (s.holdOne acc (interface, candidate)).2 = acc.2 ∨
        h.link.attempt.id = acc.2 + 1 ∧
          h.atStage = Stage.carrier.next (isWirelessAt s.document h.link.candidate) ∧
          (∀ old, s.held[interface]? = some old → old.link.candidate ≠ h.link.candidate) ∧
          (s.holdOne acc (interface, candidate)).2 = acc.2 + 1) := by
  unfold holdOne
  dsimp only
  split
  · rename_i kept hkept
    exact ⟨kept, rfl, .inl ⟨(Option.filter_eq_some_iff.mp hkept).1, rfl⟩⟩
  · rename_i hnone
    refine ⟨_, rfl, .inr ⟨rfl, rfl, fun old hold => ?_, rfl⟩⟩
    simpa using Option.filter_eq_none_iff.mp hnone old hold

/-- An attempt at the first of its stages is yet to pass one. -/
theorem atStage_of_first {h : Held} {wireless : Bool}
    (hstage : h.atStage = Stage.carrier.next wireless) : ∃ stage, h.atStage = some stage := by
  cases wireless with
  | true => exact ⟨.association, hstage⟩
  | false => exact ⟨.addressing, hstage⟩

/-- What the interfaces hold as candidates are placed on them, one by one: each
attempt kept from before or new, and none twice. -/
structure Holding (s : Selector φ) (taken : List (String × Nat))
    (acc : ExtTreeMap String Held × Nat) : Prop where
  grows : s.nextAttempt ≤ acc.2
  taken : ∀ (i : String) (h : Held), acc.1[i]? = some h → ∃ entry ∈ taken, entry.1 = i
  kept : ∀ (i : String) (h : Held), acc.1[i]? = some h → s.held[i]? = some h ∨
    s.Fresh h ∧ h.link.attempt.id ≤ acc.2
  distinct : ∀ (i j : String) (h h' : Held), acc.1[i]? = some h → acc.1[j]? = some h' →
    h.link.attempt = h'.link.attempt → i = j

/-- Holding one more candidate. -/
theorem Holding.holdOne {s : Selector φ} {taken : List (String × Nat)}
    {acc : ExtTreeMap String Held × Nat} (hattempting : s.Attempting)
    (hholding : s.Holding taken acc) {interface : String} {candidate : Nat} :
    s.Holding (taken ++ [(interface, candidate)]) (s.holdOne acc (interface, candidate)) := by
  obtain ⟨held, hmap, hheld⟩ := s.holdOne_cases acc interface candidate
  have hgrows : acc.2 ≤ (s.holdOne acc (interface, candidate)).2 := by
    rcases hheld with ⟨-, hnext⟩ | ⟨-, -, -, hnext⟩ <;> omega
  have hcases : ∀ (i : String) (h : Held),
      (s.holdOne acc (interface, candidate)).1[i]? = some h →
      interface = i ∧ h = held ∨ interface ≠ i ∧ acc.1[i]? = some h := by
    intro i h hi
    rw [hmap, OrderedMap.getElem?_insert_ite] at hi
    by_cases hsame : interface = i
    · rw [if_pos hsame, Option.some.injEq] at hi
      exact .inl ⟨hsame, hi.symm⟩
    · rw [if_neg hsame] at hi
      exact .inr ⟨hsame, hi⟩
  -- What the interface holds now is held on no interface taken before.
  have hapart : ∀ (i : String) (h : Held), interface ≠ i → acc.1[i]? = some h →
      held.link.attempt ≠ h.link.attempt := by
    intro i h hne hi hsame
    rcases hheld with ⟨hbefore, -⟩ | ⟨hid, -, -, -⟩
    · rcases hholding.kept i h hi with hkept | ⟨hfresh, -⟩
      · exact hne (hattempting.distinct _ _ _ _ hbefore hkept hsame)
      · exact hfresh.ne hattempting hbefore hsame.symm
    · have hle : h.link.attempt.id ≤ acc.2 := by
        rcases hholding.kept i h hi with hkept | ⟨-, hle⟩
        · exact (hattempting.handed i h hkept).trans hholding.grows
        · exact hle
      rw [← hsame] at hle
      omega
  constructor
  · exact hholding.grows.trans hgrows
  · intro i h hi
    rcases hcases i h hi with ⟨rfl, -⟩ | ⟨-, hbefore⟩
    · exact ⟨(interface, candidate), by simp, rfl⟩
    · obtain ⟨entry, hentry, hsame⟩ := hholding.taken i h hbefore
      exact ⟨entry, List.mem_append_left _ hentry, hsame⟩
  · intro i h hi
    rcases hcases i h hi with ⟨rfl, rfl⟩ | ⟨-, hbefore⟩
    · rcases hheld with ⟨hkept, -⟩ | ⟨hid, hstage, -, hnext⟩
      · exact .inl hkept
      · right
        have hbelow := hholding.grows
        refine ⟨⟨?_, atStage_of_first hstage⟩, ?_⟩ <;> omega
    · rcases hholding.kept i h hbefore with hkept | ⟨hfresh, hle⟩
      · exact .inl hkept
      · exact .inr ⟨hfresh, hle.trans hgrows⟩
  · intro i j h h' hi hj hsame
    rcases hcases i h hi with ⟨rfl, rfl⟩ | ⟨hne, hbefore⟩ <;>
      rcases hcases j h' hj with ⟨rfl, rfl⟩ | ⟨hne', hbefore'⟩
    · rfl
    · exact absurd hsame (hapart j h' hne' hbefore')
    · exact absurd hsame.symm (hapart i h hne hbefore)
    · exact hholding.distinct i j h h' hbefore hbefore' hsame

/-- What the interfaces hold once all candidates are placed. -/
theorem hold_attempts {s : Selector φ} (hattempting : s.Attempting)
    (links : ExtTreeMap String Nat) : s.Holding links.toList (s.hold links) := by
  apply OrderedMap.foldl_invariant_of_toList links s.holdOne s.Holding
  · constructor
    · exact Nat.le_refl _
    · intro i h hi
      simp at hi
    · intro i h hi
      simp at hi
    · intro i j h h' hi
      simp at hi
  · intro taken interface candidate acc _ _ hholding
    exact hholding.holdOne hattempting

/-! ## Selecting again -/

/-- The state of each candidate held is the one it is held at. -/
def Shown (s : Selector φ) : Prop :=
  ∀ (interface : String) (h : Held), s.held[interface]? = some h →
    s.decision.states[h.link.candidate]? = some (heldState s.decision.defaultRoute h)

/-- Selecting again shows what is held. -/
theorem settle_shown (s : Selector φ) : s.settle.1.Shown := by
  intro interface h hheld
  have hin : h.link.candidate ∈ s.placedStates := by
    rw [mem_placedStates]
    exact s.place_spec.below interface _ (s.hold_held.mp ⟨h, hheld, rfl⟩)
  obtain ⟨state, hstate⟩ := Option.isSome_iff_exists.mp (ExtTreeMap.mem_iff_isSome_getElem?.mp hin)
  rw [settle_states, hstate]
  rcases s.placedStates_cases hstate with ⟨other, h', hheld', hrank, rfl⟩ | ⟨hnot, -⟩
  · rw [s.hold_injective hheld hheld' hrank.symm]
    rfl
  · exact absurd (s.hold_held.mp ⟨h, hheld, rfl⟩) (hnot interface)

/-- What a selection makes of the attempts held before it: each is kept as it was
or dropped, the rest are new, and what is not kept is reported. -/
structure Relinks (s s' : Selector φ) (changes : List Change) : Prop where
  kept : ∀ (i : String) (h : Held), s'.held[i]? = some h → s.held[i]? = some h ∨ s.Fresh h
  changed : ∀ i : String, s.held[i]?.map (·.link.attempt) ≠ s'.held[i]?.map (·.link.attempt) →
    .link i (s'.held[i]?.map (·.link)) ∈ changes
  reported : ∀ (i : String) (link : Option Link), .link i link ∈ changes →
    link = s'.held[i]?.map (·.link)

theorem Relinks.refl (s : Selector φ) : Relinks s s [] where
  kept _ _ hheld := .inl hheld
  changed _ hne := absurd rfl hne
  reported _ _ hmem := absurd hmem List.not_mem_nil

/-- Selecting again holds each attempt on one interface. -/
theorem settle_attempting {s : Selector φ} (hattempting : s.Attempting) :
    s.settle.1.Attempting := by
  have hholding := hold_attempts hattempting s.place.links
  constructor
  · exact hholding.distinct
  · intro i h hi
    change h.link.attempt.id ≤ (s.hold s.place.links).2
    rcases hholding.kept i h hi with hkept | ⟨-, hle⟩
    · exact (hattempting.handed i h hkept).trans hholding.grows
    · exact hle

/-- Selecting again relinks, where the links in force before were those of
attempts held or forgotten since. -/
theorem settle_relinks {s : Selector φ} (hattempting : s.Attempting)
    (hlinks : ∀ (i : String) (link : Link), s.decision.links[i]? = some link →
      link.attempt.id ≤ s.nextAttempt)
    (hheld : ∀ (i : String) (h : Held), s.held[i]? = some h →
      ∃ link, s.decision.links[i]? = some link ∧ link.attempt = h.link.attempt) :
    Relinks s s.settle.1 s.settle.2 := by
  have hholding := hold_attempts hattempting s.place.links
  have hafter : ∀ i : String, s.settle.1.decision.links[i]? =
      s.settle.1.held[i]?.map (·.link) := s.settle_links
  have hkept : ∀ (i : String) (h : Held), s.settle.1.held[i]? = some h →
      s.held[i]? = some h ∨ s.Fresh h := by
    intro i h hi
    rcases hholding.kept i h hi with hkept | ⟨hfresh, -⟩
    · exact .inl hkept
    · exact .inr hfresh
  have hdiff : s.settle.2 = diff s.decision s.settle.1.decision := rfl
  constructor
  · exact hkept
  · intro i hne
    rw [← hafter, hdiff]
    apply mem_diff_link
    intro hsame
    apply hne
    rw [hafter] at hsame
    rcases hi : s.settle.1.held[i]? with _ | h
    · rcases hbefore : s.held[i]? with _ | h
      · rfl
      · obtain ⟨link, hlink, -⟩ := hheld i h hbefore
        rw [hlink, hi] at hsame
        cases hsame
    · rcases hkept i h hi with hbefore | hfresh
      · rw [hbefore]
      · rw [hi, Option.map_some] at hsame
        have hle := hlinks i h.link hsame
        have hlt := hfresh.1
        omega
  · intro i link hmem
    rw [← hafter]
    exact links_of_mem_diff hmem

/-! ## Observations -/

/-- The attempt held on an interface is the one found there. -/
theorem holding_eq {s : Selector φ} (hattempting : s.Attempting) {interface : String}
    {h : Held} (hheld : s.held[interface]? = some h) :
    s.holding h.link.attempt = some (interface, h) := by
  unfold holding
  rcases hfound : s.held.toList.find? fun entry => entry.2.link.attempt == h.link.attempt with
    _ | ⟨other, h'⟩
  · rw [List.find?_eq_none] at hfound
    have hmem : (interface, h) ∈ s.held.toList := by simpa using hheld
    simpa using hfound _ hmem
  · have hsame : h'.link.attempt = h.link.attempt := by simpa using List.find?_some hfound
    have hother : s.held[other]? = some h' := by simpa using List.mem_of_find?_eq_some hfound
    obtain rfl := hattempting.distinct other interface h' h hother hheld hsame
    obtain rfl := Option.some.inj (hother.symm.trans hheld)
    exact hfound

/-- An attempt found is held. -/
theorem held_of_holding {s : Selector φ} {attempt : Attempt} {interface : String} {h : Held}
    (hholding : s.holding attempt = some (interface, h)) : s.held[interface]? = some h := by
  simpa using List.mem_of_find?_eq_some hholding

/-- An observation leaves each interface its link, and hands out no attempt. -/
theorem observe_links (s : Selector φ) (event : Event) :
    (∀ i : String, (s.observe event).held[i]?.map (·.link) = s.held[i]?.map (·.link)) ∧
      (s.observe event).nextAttempt = s.nextAttempt := by
  cases event with
  | carrier interface up =>
      simp only [observe, carrierEvent, availableAnew]
      split
      · exact ⟨fun _ => rfl, rfl⟩
      · split
        · exact ⟨fun _ => rfl, rfl⟩
        · split <;> exact ⟨fun _ => rfl, rfl⟩
  | inRange interface ssid signal =>
      simp only [observe, inRange, availableAnew]
      split
      · exact ⟨fun _ => rfl, rfl⟩
      · split <;> exact ⟨fun _ => rfl, rfl⟩
  | outOfRange interface ssid => exact ⟨fun _ => rfl, rfl⟩
  | passed attempt stage =>
      simp only [observe, passed]
      split
      · rename_i interface held hholding
        split
        · refine ⟨fun i => ?_, rfl⟩
          rw [OrderedMap.getElem?_insert_ite]
          by_cases hsame : interface = i
          · rw [if_pos hsame, ← hsame, held_of_holding hholding]
            rfl
          · rw [if_neg hsame]
        · exact ⟨fun _ => rfl, rfl⟩
      · exact ⟨fun _ => rfl, rfl⟩
  | failed attempt stage member reason =>
      simp only [observe, failedEvent]
      split <;> exact ⟨fun _ => rfl, rfl⟩
  | stationChannel interface channel =>
      simp only [observe, stationChannel]
      split
      · exact ⟨fun _ => rfl, rfl⟩
      · split <;> exact ⟨fun _ => rfl, rfl⟩
  | retry candidate => exact ⟨fun _ => rfl, rfl⟩

/-- Only a stage passed changes what is held. -/
theorem observe_held (s : Selector φ) {event : Event}
    (hevent : ∀ attempt stage, event ≠ .passed attempt stage) :
    (s.observe event).held = s.held := by
  cases event with
  | carrier interface up =>
      simp only [observe, carrierEvent, availableAnew]
      split
      · rfl
      · split
        · rfl
        · split <;> rfl
  | inRange interface ssid signal =>
      simp only [observe, inRange, availableAnew]
      split
      · rfl
      · split <;> rfl
  | outOfRange interface ssid => rfl
  | passed attempt stage => exact absurd rfl (hevent attempt stage)
  | failed attempt stage member reason =>
      simp only [observe, failedEvent]
      split <;> rfl
  | stationChannel interface channel =>
      simp only [observe, stationChannel]
      split
      · rfl
      · split <;> rfl
  | retry candidate => rfl

/-- A stage passed by the attempt an interface holds moves it on. -/
theorem observe_passed {s : Selector φ} (hattempting : s.Attempting) {interface : String}
    {h : Held} (hheld : s.held[interface]? = some h) {stage : Stage}
    (hstage : h.atStage = some stage) :
    (s.observe (.passed h.link.attempt stage)).held =
      s.held.insert interface
        { h with atStage := stage.next (isWirelessAt s.document h.link.candidate) } := by
  simp only [observe, passed, holding_eq hattempting hheld, if_pos hstage]

/-- Observations keep each attempt on one interface. -/
theorem observe_attempting {s : Selector φ} (hattempting : s.Attempting) (event : Event) :
    (s.observe event).Attempting := by
  obtain ⟨hlinks, hnext⟩ := s.observe_links event
  have hbefore : ∀ (i : String) (h : Held), (s.observe event).held[i]? = some h →
      ∃ old, s.held[i]? = some old ∧ old.link = h.link := by
    intro i h hi
    have hlink := hlinks i
    rw [hi, Option.map_some] at hlink
    exact Option.map_eq_some_iff.mp hlink.symm
  constructor
  · intro i j h h' hi hj hsame
    obtain ⟨old, hold, hlink⟩ := hbefore i h hi
    obtain ⟨old', hold', hlink'⟩ := hbefore j h' hj
    apply hattempting.distinct i j old old' hold hold'
    rw [hlink, hlink', hsame]
  · intro i h hi
    obtain ⟨old, hold, hlink⟩ := hbefore i h hi
    rw [hnext, ← hlink]
    exact hattempting.handed i old hold

/-- Taking in an observation relinks what is held once it is in. -/
theorem handle_relinks {s : Selector φ} (hsettled : Settled s) (hattempting : s.Attempting)
    (event : Event) :
    Relinks (s.observe event) (s.handle event).1 (s.handle event).2 := by
  obtain ⟨hlinks, hnext⟩ := s.observe_links event
  have hdecision := (s.observe_keeps event).1
  have hsame : ∀ i : String, (s.observe event).decision.links[i]? =
      (s.observe event).held[i]?.map (·.link) := by
    intro i
    rw [hdecision, hsettled.links_eq, hlinks]
  have hobserved := observe_attempting hattempting event
  apply settle_relinks hobserved
  · intro i link hlink
    rw [hsame] at hlink
    obtain ⟨h, hheld, rfl⟩ := Option.map_eq_some_iff.mp hlink
    exact hobserved.handed i h hheld
  · intro i h hheld
    refine ⟨h.link, ?_, rfl⟩
    rw [hsame, hheld]
    rfl

/-! ## Documents -/

/-- Configuring a document relinks what is held once each attempt has moved to
where its candidate is now, or is forgotten. -/
theorem configure_relinks [BEq φ] {s s' : Selector φ} {document : Document φ}
    {changes : List Change} (hsettled : Settled s) (hattempting : s.Attempting)
    (hshown : s.Shown) (hconfigure : s.configure document = .ok (s', changes)) :
    s'.Attempting ∧ s'.Shown ∧ ∃ moved : Selector φ, moved.Attempting ∧
      moved.nextAttempt = s.nextAttempt ∧ Relinks moved s' changes ∧
      ∀ (i : String) (h : Held), moved.held[i]? = some h → ∃ old : Held,
        s.held[i]? = some old ∧ old.link.attempt = h.link.attempt ∧
          old.atStage = h.atStage := by
  unfold configure at hconfigure
  obtain ⟨_, -, hrest⟩ := Fallible.bind_ok.mp hconfigure
  split at hrest
  · have hsame := Fallible.pure_ok.mp hrest
    simp only [Prod.mk.injEq] at hsame
    rw [← hsame.1, ← hsame.2]
    refine ⟨hattempting, hshown, s, hattempting, rfl, .refl s, ?_⟩
    intro i h hheld
    exact ⟨h, hheld, rfl, rfl⟩
  · have hsettle := Fallible.pure_ok.mp hrest
    have hselector := congrArg Prod.fst hsettle
    have hchanges := congrArg Prod.snd hsettle
    dsimp only at hselector hchanges
    rw [← hselector, ← hchanges]
    generalize hmoved : ({ s with
      held := _, failures := _, document := _, decision := _ } : Selector φ) = moved
    have hkept : ∀ (i : String) (h : Held), moved.held[i]? = some h → ∃ old : Held,
        s.held[i]? = some old ∧ old.link.attempt = h.link.attempt ∧ old.atStage = h.atStage := by
      intro i h hi
      rw [← hmoved, ExtTreeMap.getElem?_filterMap'] at hi
      obtain ⟨old, hold, hmap⟩ := Option.bind_eq_some_iff.mp hi
      obtain ⟨new, -, hnew⟩ := Option.map_eq_some_iff.mp hmap
      rw [← hnew]
      exact ⟨old, hold, rfl, rfl⟩
    have hnext : moved.nextAttempt = s.nextAttempt := by rw [← hmoved]
    have hlinks : moved.decision.links = s.decision.links := by rw [← hmoved]
    have hafter : moved.Attempting := by
      constructor
      · intro i j h h' hi hj hsame
        obtain ⟨old, hold, hattempt, -⟩ := hkept i h hi
        obtain ⟨old', hold', hattempt', -⟩ := hkept j h' hj
        apply hattempting.distinct i j old old' hold hold'
        rw [hattempt, hattempt', hsame]
      · intro i h hi
        obtain ⟨old, hold, hattempt, -⟩ := hkept i h hi
        rw [hnext, ← hattempt]
        exact hattempting.handed i old hold
    refine ⟨settle_attempting hafter, settle_shown _, moved, hafter, hnext, ?_, hkept⟩
    apply settle_relinks hafter
    · intro i link hlink
      rw [hlinks, hsettled.links_eq] at hlink
      obtain ⟨old, hold, rfl⟩ := Option.map_eq_some_iff.mp hlink
      rw [hnext]
      exact hattempting.handed i old hold
    · intro i h hi
      obtain ⟨old, hold, hattempt, -⟩ := hkept i h hi
      refine ⟨old.link, ?_, hattempt⟩
      rw [hlinks, hsettled.links_eq, hold]
      rfl

/-- A new selector holds each attempt on one interface, and shows it. -/
theorem new_attempting {hardware : Hardware} {document : Document φ} {s : Selector φ}
    (hnew : Selector.new hardware document = .ok s) : s.Attempting ∧ s.Shown := by
  unfold Selector.new at hnew
  obtain ⟨_, -, hrest⟩ := Fallible.bind_ok.mp hnew
  rw [← Fallible.pure_ok.mp hrest]
  refine ⟨settle_attempting ?_, settle_shown _⟩
  constructor
  · intro i j h h' hi
    simp at hi
  · intro i h hi
    simp at hi

end Selector

end Bliti.Network.Select
