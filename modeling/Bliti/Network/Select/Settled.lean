import Bliti.Network.Select.Settle

/-!
# Selection - the decision in force

What holds of the decision of a selector over whole runs.  Every operation ends
by selecting again, or changes nothing, and selecting again establishes the
invariant from any state whatever; so it holds of every reachable selector.

Main results:

- Theorem `selecting_settled`: every reachable selector is settled.
-/

namespace Bliti.Network.Select

open Std (ExtTreeMap ExtTreeSet)
open Channel.Config

variable {φ : Type}

/-! ## The invariant -/

/-- The states of a candidate some interface brings up. -/
def State.IsLinked : State → Prop
  | .verifying _ | .up | .defaultRoute => True
  | .standby | .off | .unavailable _ => False

/-- The candidate at a rank is linked on some interface. -/
def Decision.Links (decision : Decision) (rank : Nat) : Prop :=
  ∃ (interface : String) (link : Link),
    decision.links[interface]? = some link ∧ link.candidate = rank

/-- The candidate at a rank is held on some interface past its last stage. -/
def Selector.Established (s : Selector φ) (rank : Nat) : Prop :=
  ∃ (interface : String) (held : Held), s.held[interface]? = some held ∧
    held.link.candidate = rank ∧ held.atStage = none

/-- The decision in force is that of what is remembered. -/
structure Settled (s : Selector φ) : Prop where
  links_eq : ∀ interface : String,
    s.decision.links[interface]? = s.held[interface]?.map (·.link)
  length_states : s.decision.states.length = s.document.attachments.length
  once : ∀ (interface other : String) (link link' : Link),
    s.decision.links[interface]? = some link → s.decision.links[other]? = some link' →
    link.candidate = link'.candidate → interface = other
  mayLink : ∀ (interface : String) (link : Link),
    s.decision.links[interface]? = some link → s.MayLink link.candidate interface
  state_iff : ∀ (rank : Nat) (state : State), s.decision.states[rank]? = some state →
    (state.IsLinked ↔ s.decision.Links rank)
  idleAs : ∀ (rank : Nat) (state : State), s.decision.states[rank]? = some state →
    ¬ state.IsLinked → ∃ attachment, s.document.attachments[rank]? = some attachment ∧
      s.IdleAs rank attachment state
  default_iff : ∀ rank, s.decision.defaultRoute = some rank ↔
    s.Established rank ∧ ∀ other, s.Established other → rank ≤ other
  default_none : s.decision.defaultRoute = none ↔ ∀ rank, ¬ s.Established rank
  state_default : ∀ rank, s.decision.states[rank]? = some .defaultRoute ↔
    s.decision.defaultRoute = some rank

/-- No selector looks past the end of its candidates. -/
theorem Settled.inRange {s : Selector φ} (hsettled : Settled s) {interface : String}
    {held : Held} (hheld : s.held[interface]? = some held) :
    held.link.candidate < s.document.attachments.length := by
  have hlink : s.decision.links[interface]? = some held.link := by
    rw [hsettled.links_eq, hheld]
    rfl
  obtain ⟨attachment, hat, -⟩ := hsettled.mayLink interface held.link hlink
  exact (List.getElem?_eq_some_iff.mp hat).1

/-! ## The loops of `settle` -/

namespace Selector

/-- One turn of the loop holds the candidate placed on the interface. -/
theorem holdOne_candidate (s : Selector φ) (acc : ExtTreeMap String Held × Nat)
    (interface : String) (candidate : Nat) :
    ∃ held, (s.holdOne acc (interface, candidate)).1 = acc.1.insert interface held ∧
      held.link.candidate = candidate := by
  unfold holdOne
  simp only
  split
  · rename_i kept hkept
    have hsame := Option.filter_eq_some_iff.mp hkept
    exact ⟨kept, rfl, by simpa using hsame.2⟩
  · refine ⟨_, rfl, ?_⟩
    rfl

/-- Each interface holds exactly the candidate placed on it. -/
theorem hold_candidate (s : Selector φ) (links : ExtTreeMap String Nat)
    (interface : String) :
    (s.hold links).1[interface]?.map (·.link.candidate) = links[interface]? := by
  have hloop := OrderedMap.foldl_invariant_of_toList links s.holdOne
    (fun taken acc =>
      (∀ entry ∈ taken, acc.1[entry.1]?.map (·.link.candidate) = some entry.2) ∧
      ∀ i : String, i ∈ acc.1 → ∃ entry ∈ taken, entry.1 = i)
    (∅, s.nextAttempt) (by simp) (by
      intro taken key value acc hkey hold hinv
      obtain ⟨held, hnext, hcandidate⟩ := s.holdOne_candidate acc key value
      constructor
      · intro entry hentry
        rw [hnext]
        rcases List.mem_append.mp hentry with hbefore | hlast
        · rw [OrderedMap.getElem?_insert_of_ne (Ne.symm (hold entry hbefore).2)]
          exact hinv.1 entry hbefore
        · rw [List.mem_singleton.mp hlast]
          simp [hcandidate]
      · intro i hi
        rw [hnext, OrderedMap.mem_insert_iff] at hi
        rcases hi with rfl | hi
        · exact ⟨(key, value), by simp, rfl⟩
        · obtain ⟨entry, hentry, hsame⟩ := hinv.2 i hi
          exact ⟨entry, List.mem_append_left _ hentry, hsame⟩)
  change (∀ entry ∈ links.toList, _) ∧ _ at hloop
  obtain ⟨hall, honly⟩ := hloop
  rcases hlink : links[interface]? with _ | candidate
  · rw [Option.map_eq_none_iff]
    by_contra hheld
    have hmem : interface ∈ (s.hold links).1 := by simpa using hheld
    obtain ⟨entry, hentry, rfl⟩ := honly interface hmem
    have hsome := ExtTreeMap.mem_toList_iff_getElem?_eq_some.mp hentry
    simp [hlink] at hsome
  · exact hall (interface, candidate) (by simpa using hlink)

/-- The state of a rank is that of a candidate held, or else its idle state. -/
theorem getElem?_allStates (idle : ExtTreeMap Nat State) (defaultRoute : Option Nat)
    (held : List Held) (rank : Nat) (state : State)
    (hstate : (allStates idle defaultRoute held)[rank]? = some state) :
    (∃ h ∈ held, h.link.candidate = rank ∧ state = heldState defaultRoute h) ∨
      idle[rank]? = some state := by
  have hloop := Loops.foldl_invariant_of_prefix
    (fun (states : ExtTreeMap Nat State) h =>
      states.insert h.link.candidate (heldState defaultRoute h)) held
    (fun taken states => ∀ state, states[rank]? = some state →
      (∃ h ∈ taken, h.link.candidate = rank ∧ state = heldState defaultRoute h) ∨
        idle[rank]? = some state) idle
  refine hloop (fun state h => Or.inr h) ?_ state hstate
  intro taken h rest states _ hinv state hafter
  rw [OrderedMap.getElem?_insert_ite] at hafter
  split at hafter
  · rename_i hsame
    exact .inl ⟨h, by simp, hsame, (Option.some.inj hafter).symm⟩
  · rcases hinv state hafter with ⟨h', hmem, hcandidate, hstate'⟩ | hidle
    · exact .inl ⟨h', List.mem_append_left _ hmem, hcandidate, hstate'⟩
    · exact .inr hidle

/-- The ranks with a state are those idle and those held. -/
theorem mem_allStates (idle : ExtTreeMap Nat State) (defaultRoute : Option Nat)
    (held : List Held) (rank : Nat) :
    rank ∈ allStates idle defaultRoute held ↔
      rank ∈ idle ∨ ∃ h ∈ held, h.link.candidate = rank := by
  unfold allStates
  induction held generalizing idle with
  | nil => simp
  | cons h rest ih =>
      rw [List.foldl_cons, ih, OrderedMap.mem_insert_iff]
      simp only [List.mem_cons, exists_eq_or_imp]
      tauto

/-- A rank is held on an interface exactly where it is placed there. -/
theorem hold_held (s : Selector φ) {links : ExtTreeMap String Nat} {interface : String}
    {rank : Nat} :
    (∃ h, (s.hold links).1[interface]? = some h ∧ h.link.candidate = rank) ↔
      links[interface]? = some rank := by
  rw [← s.hold_candidate links interface, Option.map_eq_some_iff]

/-- The least established candidate is one, and no other is below it. -/
theorem leastEstablished_eq_some {held : ExtTreeMap String Held} {rank : Nat} :
    leastEstablished held = some rank ↔
      (∃ (interface : String) (h : Held), held[interface]? = some h ∧
        h.link.candidate = rank ∧ h.atStage = none) ∧
      ∀ (interface : String) (h : Held), held[interface]? = some h → h.atStage = none →
        rank ≤ h.link.candidate := by
  unfold leastEstablished
  rw [List.min?_eq_some_iff]
  simp only [List.mem_map, List.mem_filter, OrderedMap.mem_values_iff,
    Option.isNone_iff_eq_none]
  constructor
  · rintro ⟨⟨h, ⟨⟨interface, hheld⟩, hdone⟩, hrank⟩, hleast⟩
    refine ⟨⟨interface, h, hheld, hrank, hdone⟩, fun other h' hother hdone' => ?_⟩
    exact hleast _ ⟨h', ⟨⟨other, hother⟩, hdone'⟩, rfl⟩
  · rintro ⟨⟨interface, h, hheld, hrank, hdone⟩, hleast⟩
    refine ⟨⟨h, ⟨⟨interface, hheld⟩, hdone⟩, hrank⟩, ?_⟩
    rintro _ ⟨h', ⟨⟨other, hother⟩, hdone'⟩, rfl⟩
    exact hleast other h' hother hdone'

/-- There is no least established candidate exactly where none is established. -/
theorem leastEstablished_eq_none {held : ExtTreeMap String Held} :
    leastEstablished held = none ↔
      ∀ (interface : String) (h : Held), held[interface]? = some h → h.atStage ≠ none := by
  unfold leastEstablished
  rw [List.min?_eq_none_iff, List.map_eq_nil_iff, List.filter_eq_nil_iff]
  simp only [OrderedMap.mem_values_iff, Option.isNone_iff_eq_none]
  constructor
  · intro hnone interface h hheld
    exact hnone h ⟨interface, hheld⟩
  · rintro hnone h ⟨interface, hheld⟩
    exact hnone interface h hheld

/-! ## Selecting again -/

/-- What selecting again leaves of the state, with the observations it keeps. -/
theorem settle_keeps (s : Selector φ) :
    s.settle.1.hardware = s.hardware ∧ s.settle.1.document = s.document ∧
      s.settle.1.carrier = s.carrier ∧ s.settle.1.heard = s.heard ∧
      s.settle.1.failures = s.failures := by
  simp [settle]

/-- What a candidate may do turns on the observations only. -/
theorem mayUse_settle (s : Selector φ) (attachment : Attachment φ) (interface : String) :
    s.settle.1.MayUse attachment interface ↔ s.MayUse attachment interface := by
  obtain ⟨hhardware, hdocument, hcarrier, hheard, hfailures⟩ := s.settle_keeps
  simp only [MayUse, hhardware, hcarrier, hheard]

/-- Selecting again does not change where a candidate may be linked. -/
theorem mayLink_settle (s : Selector φ) (rank : Nat) (interface : String) :
    s.settle.1.MayLink rank interface ↔ s.MayLink rank interface := by
  obtain ⟨hhardware, hdocument, hcarrier, hheard, hfailures⟩ := s.settle_keeps
  simp only [MayLink, mayUse_settle, hdocument, hfailures]

/-- Selecting again does not change why a candidate is idle. -/
theorem idleAs_settle {s : Selector φ} {rank : Nat} {attachment : Attachment φ}
    {state : State} (hidle : s.IdleAs rank attachment state) :
    s.settle.1.IdleAs rank attachment state := by
  obtain ⟨hhardware, hdocument, hcarrier, hheard, hfailures⟩ := s.settle_keeps
  have havailable : s.settle.1.Available attachment ↔ s.Available attachment := by
    simp only [Available, mayUse_settle]
  cases hidle with
  | off hoff => exact .off hoff
  | outOfReach reason hon hout =>
      exact .outOfReach reason hon (fun h => hout (havailable.mp h))
  | failed fault hon hhas hfault =>
      exact .failed fault hon (havailable.mpr hhas) (by rw [hfailures, hfault])
  | standby hon hhas hfault =>
      exact .standby hon (havailable.mpr hhas) (by rw [hfailures, hfault])

/-- The states of all candidates once placed, by rank. -/
def placedStates (s : Selector φ) : ExtTreeMap Nat State :=
  let held := (s.hold s.place.links).1
  allStates s.place.idle (leastEstablished held) held.values

/-- Every rank has a state, and nothing else has. -/
theorem mem_placedStates (s : Selector φ) (rank : Nat) :
    rank ∈ s.placedStates ↔ rank < s.document.attachments.length := by
  have hplaced := s.place_spec
  have hheld : (∃ h ∈ (s.hold s.place.links).1.values, h.link.candidate = rank) ↔
      ∃ interface : String, s.place.links[interface]? = some rank := by
    simp only [OrderedMap.mem_values_iff, ← s.hold_held]
    tauto
  unfold placedStates
  rw [mem_allStates, hheld, hplaced.idle_iff]
  constructor
  · rintro (⟨hlt, -⟩ | ⟨interface, hlink⟩)
    · exact hlt
    · exact hplaced.below interface rank hlink
  · intro hlt
    by_cases hlinked : ∃ interface : String, s.place.links[interface]? = some rank
    · exact .inr hlinked
    · exact .inl ⟨hlt, fun interface hlink => hlinked ⟨interface, hlink⟩⟩

/-- The state of a rank is its held one where it is linked, else its idle one. -/
theorem placedStates_cases (s : Selector φ) {rank : Nat} {state : State}
    (hstate : s.placedStates[rank]? = some state) :
    (∃ (interface : String) (h : Held),
      (s.hold s.place.links).1[interface]? = some h ∧ h.link.candidate = rank ∧
      state = heldState (leastEstablished (s.hold s.place.links).1) h) ∨
    ((∀ interface : String, s.place.links[interface]? ≠ some rank) ∧
      ∃ attachment, s.document.attachments[rank]? = some attachment ∧
        s.IdleAs rank attachment state) := by
  rcases getElem?_allStates _ _ _ rank state hstate with ⟨h, hmem, hrank, heq⟩ | hidle
  · obtain ⟨interface, hheld⟩ := OrderedMap.mem_values_iff.mp hmem
    exact .inl ⟨interface, h, hheld, hrank, heq⟩
  · have hin : rank ∈ s.place.idle :=
      ExtTreeMap.mem_iff_isSome_getElem?.mpr (by simp [hidle])
    exact .inr ⟨((s.place_spec.idle_iff rank).mp hin).2, s.place_spec.idleAs rank state hidle⟩

end Selector

/-- The state a held candidate is in is a linked one. -/
theorem heldState_isLinked (defaultRoute : Option Nat) (h : Held) :
    (heldState defaultRoute h).IsLinked := by
  unfold heldState
  split
  · trivial
  · split <;> trivial

/-- An idle candidate is in no linked state. -/
theorem Selector.IdleAs.not_isLinked {s : Selector φ} {rank : Nat}
    {attachment : Attachment φ} {state : State} (hidle : s.IdleAs rank attachment state) :
    ¬ state.IsLinked := by
  cases hidle <;> exact id

/-- A held candidate carries the default route exactly where it is established
and the least such. -/
theorem heldState_eq_defaultRoute {defaultRoute : Option Nat} {h : Held} :
    heldState defaultRoute h = .defaultRoute ↔
      h.atStage = none ∧ defaultRoute = some h.link.candidate := by
  unfold heldState
  rcases h.atStage with _ | stage
  · by_cases hdefault : some h.link.candidate = defaultRoute
    · simp [hdefault]
    · simp [hdefault, Ne.symm hdefault]
  · simp

namespace Selector

/-- The links in force are those of the attempts held. -/
theorem settle_links (s : Selector φ) (interface : String) :
    s.settle.1.decision.links[interface]? =
      (s.hold s.place.links).1[interface]?.map (·.link) := by
  simp [settle]

/-- The states in force are those of the ranks, by position. -/
theorem settle_states (s : Selector φ) (rank : Nat) :
    s.settle.1.decision.states[rank]? = s.placedStates[rank]? :=
  OrderedMap.getElem?_values_of_keys_lt s.mem_placedStates rank

/-- A link in force is of the candidate placed on the interface. -/
theorem placed_of_settle_links (s : Selector φ) {interface : String} {link : Link}
    (hlink : s.settle.1.decision.links[interface]? = some link) :
    s.place.links[interface]? = some link.candidate := by
  rw [settle_links, Option.map_eq_some_iff] at hlink
  obtain ⟨h, hheld, rfl⟩ := hlink
  exact s.hold_held.mp ⟨h, hheld, rfl⟩

/-- A rank is linked exactly where it is placed on some interface. -/
theorem settle_links_iff (s : Selector φ) (rank : Nat) :
    s.settle.1.decision.Links rank ↔
      ∃ interface : String, s.place.links[interface]? = some rank := by
  constructor
  · intro hlinks
    obtain ⟨interface, link, hlink, rfl⟩ := hlinks
    exact ⟨interface, s.placed_of_settle_links hlink⟩
  · intro hplaced
    obtain ⟨interface, hlink⟩ := hplaced
    obtain ⟨h, hheld, hrank⟩ := s.hold_held.mpr hlink
    refine ⟨interface, h.link, ?_, hrank⟩
    rw [settle_links, hheld]
    rfl

/-- Two attempts held at one candidate are the same. -/
theorem hold_injective (s : Selector φ) {interface other : String} {h h' : Held}
    (hheld : (s.hold s.place.links).1[interface]? = some h)
    (hheld' : (s.hold s.place.links).1[other]? = some h')
    (hrank : h.link.candidate = h'.link.candidate) : h = h' := by
  have hfirst := s.hold_held.mp ⟨h, hheld, rfl⟩
  have hsecond := s.hold_held.mp ⟨h', hheld', hrank.symm⟩
  obtain rfl := s.place_spec.injective interface other _ hfirst hsecond
  exact Option.some.inj (hheld.symm.trans hheld')

/-- A state in force is a linked one exactly where its rank is linked. -/
theorem settle_state_iff (s : Selector φ) {rank : Nat} {state : State}
    (hstate : s.settle.1.decision.states[rank]? = some state) :
    state.IsLinked ↔ s.settle.1.decision.Links rank := by
  rw [settle_states] at hstate
  rw [settle_links_iff]
  rcases s.placedStates_cases hstate with
    ⟨interface, h, hheld, hrank, rfl⟩ | ⟨hnot, attachment, hat, hidle⟩
  · exact iff_of_true (heldState_isLinked _ h)
      ⟨interface, s.hold_held.mp ⟨h, hheld, hrank⟩⟩
  · exact iff_of_false hidle.not_isLinked (fun ⟨interface, hlink⟩ => hnot interface hlink)

/-- The default route is the least candidate established. -/
theorem settle_default_iff (s : Selector φ) (rank : Nat) :
    s.settle.1.decision.defaultRoute = some rank ↔
      s.settle.1.Established rank ∧
        ∀ other, s.settle.1.Established other → rank ≤ other := by
  refine leastEstablished_eq_some.trans (and_congr_right fun _ => ?_)
  constructor
  · intro hleast other hestablished
    obtain ⟨interface, h, hheld, rfl, hdone⟩ := hestablished
    exact hleast interface h hheld hdone
  · intro hleast interface h hheld hdone
    exact hleast _ ⟨interface, h, hheld, rfl, hdone⟩

/-- There is no default route exactly where no candidate is established. -/
theorem settle_default_none (s : Selector φ) :
    s.settle.1.decision.defaultRoute = none ↔ ∀ rank, ¬ s.settle.1.Established rank := by
  refine leastEstablished_eq_none.trans ?_
  constructor
  · intro hnone rank hestablished
    obtain ⟨interface, h, hheld, -, hdone⟩ := hestablished
    exact hnone interface h hheld hdone
  · intro hnone interface h hheld hdone
    exact hnone _ ⟨interface, h, hheld, rfl, hdone⟩

/-- Only the candidate carrying the default route is in that state. -/
theorem settle_state_default (s : Selector φ) (rank : Nat) :
    s.settle.1.decision.states[rank]? = some .defaultRoute ↔
      s.settle.1.decision.defaultRoute = some rank := by
  rw [settle_states]
  constructor
  · intro hstate
    rcases s.placedStates_cases hstate with
      ⟨interface, h, hheld, rfl, heq⟩ | ⟨-, attachment, hat, hidle⟩
    · exact (heldState_eq_defaultRoute.mp heq.symm).2
    · exact absurd trivial hidle.not_isLinked
  · intro hdefault
    obtain ⟨⟨interface, h, hheld, rfl, hdone⟩, -⟩ := leastEstablished_eq_some.mp hdefault
    have hplaced := s.hold_held.mp ⟨h, hheld, rfl⟩
    have hin : h.link.candidate ∈ s.placedStates := by
      rw [mem_placedStates]
      exact s.place_spec.below interface _ hplaced
    obtain ⟨state, hstate⟩ :=
      Option.isSome_iff_exists.mp (ExtTreeMap.mem_iff_isSome_getElem?.mp hin)
    rcases s.placedStates_cases hstate with ⟨other, h', hheld', hrank, rfl⟩ | ⟨hnot, -⟩
    · obtain rfl := s.hold_injective hheld hheld' hrank.symm
      rw [hstate]
      exact congrArg some (heldState_eq_defaultRoute.mpr ⟨hdone, hdefault⟩)
    · exact absurd hplaced (hnot interface)

/-- Selecting again puts the decision of what is remembered in force. -/
theorem settle_settled (s : Selector φ) : Settled s.settle.1 where
  links_eq := s.settle_links
  length_states := OrderedMap.length_values_of_keys_lt s.mem_placedStates
  once := by
    intro interface other link link' hlink hlink' hrank
    have hfirst := s.placed_of_settle_links hlink
    have hsecond := s.placed_of_settle_links hlink'
    rw [← hrank] at hsecond
    exact s.place_spec.injective interface other _ hfirst hsecond
  mayLink := by
    intro interface link hlink
    rw [s.mayLink_settle]
    exact s.place_spec.mayLink interface _ (s.placed_of_settle_links hlink)
  state_iff := fun _ _ => s.settle_state_iff
  idleAs := by
    intro rank state hstate hnot
    rw [settle_states] at hstate
    rcases s.placedStates_cases hstate with
      ⟨interface, h, hheld, hrank, rfl⟩ | ⟨-, attachment, hat, hidle⟩
    · exact absurd (heldState_isLinked _ h) hnot
    · exact ⟨attachment, hat, s.idleAs_settle hidle⟩
  default_iff := s.settle_default_iff
  default_none := s.settle_default_none
  state_default := s.settle_state_default

end Selector

/-! ## Runs -/

/-- A new selector's decision is in force. -/
theorem Selector.new_settled {hardware : Hardware} {document : Document φ}
    {s : Selector φ} (hnew : Selector.new hardware document = .ok s) : Settled s := by
  unfold Selector.new at hnew
  rcases hcheck : check document hardware with invalid | accepted
  · simp [hcheck, bind, Except.bind] at hnew
  · simp only [hcheck, bind, Except.bind, pure, Except.pure, Except.ok.injEq] at hnew
    rw [← hnew]
    exact Selector.settle_settled _

/-- An accepted document's decision is in force. -/
theorem Selector.configure_settled [BEq φ] {s s' : Selector φ} {document : Document φ}
    {changes : List Change} (hsettled : Settled s)
    (hconfigure : s.configure document = .ok (s', changes)) : Settled s' := by
  unfold Selector.configure at hconfigure
  rcases hcheck : check document s.hardware with invalid | accepted
  · simp [hcheck, bind, Except.bind] at hconfigure
  · simp only [hcheck, bind, Except.bind, pure, Except.pure] at hconfigure
    split at hconfigure
    · simp only [Except.ok.injEq, Prod.mk.injEq] at hconfigure
      rw [← hconfigure.1]
      exact hsettled
    · simp only [Except.ok.injEq] at hconfigure
      have hafter : _ = s' := congrArg Prod.fst hconfigure
      rw [← hafter]
      exact Selector.settle_settled _

/-- The decision in force is that of what is remembered, in every selector any
events and documents lead to. -/
theorem selecting_settled [BEq φ] (hardware : Hardware) (s : Selector φ)
    (hreach : (selecting φ hardware).Reachable s) : Settled s := by
  refine hreach.invariant (fun s hstart => ?_) (fun s input s' _ hsettled hstep => ?_)
  · obtain ⟨document, hnew⟩ := hstart
    exact Selector.new_settled hnew
  · obtain ⟨changes, hfeed⟩ := hstep
    cases input with
    | handle event =>
        simp only [Selector.feed, Except.ok.injEq] at hfeed
        have hafter : (s.handle event).1 = s' := congrArg Prod.fst hfeed
        rw [← hafter]
        exact Selector.settle_settled _
    | configure document => exact Selector.configure_settled hsettled hfeed

/-! ### Two candidates on one port -/

/-- A device with one wired port. -/
def onePort : Hardware where
  wired := ["eth0"]
  radios := []

/-- A wired candidate on that port, named by its label. -/
def portCandidate (label : String) : Attachment φ where
  label := label
  enabled := true
  verify := false
  nameservers := []
  kind := .wiredDynamic "eth0"

/-- A document of two candidates on that port. -/
def twoOnPort : Document φ where
  attachments := [portCandidate "first", portCandidate "second"]
  hotspot := none
  regulatoryDomain := none

/-- The port gaining carrier brings up the first of the two, and the second
stands by. -/
theorem selecting_settled_onePort :
    ∃ s : Selector Nat, (selecting Nat onePort).Reachable s ∧ Settled s ∧
      s.decision.states = [.verifying .addressing, .standby] := by
  obtain ⟨start, hnew⟩ : ∃ start : Selector Nat, Selector.new onePort twoOnPort = .ok start :=
    ⟨_, rfl⟩
  let up : Event := .carrier "eth0" true
  have hreach : (selecting Nat onePort).Reachable (start.handle up).1 :=
    .next (a := .handle up) (.start ⟨twoOnPort, hnew⟩) ⟨(start.handle up).2, rfl⟩
  refine ⟨_, hreach, selecting_settled onePort _ hreach, ?_⟩
  have hstart : start = (Selector.new onePort twoOnPort).toOption.get (by decide) := by
    simp [hnew, Except.toOption]
  rw [hstart]
  decide

end Bliti.Network.Select
