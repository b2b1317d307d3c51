import Bliti.Network.Select.Settled

/-!
# Selection - what the changes report

The changes a selector returns against the decisions before and after, and what
an observation or another document does to the failures remembered.
-/

namespace Bliti.Network.Select

open Std (ExtTreeMap ExtTreeSet)
open Channel.Config

variable {φ : Type}

/-- A state in force is reported where it is not the one before. -/
theorem mem_diff_state {old new : Decision} {rank : Nat} {state : State}
    (hnew : new.states[rank]? = some state) :
    old.states[rank]? = some state ∨ .state rank state ∈ diff old new := by
  by_cases hold : old.states[rank]? = some state
  · exact .inl hold
  · right
    unfold diff
    refine List.mem_append_right _ (List.mem_filterMap.mpr ⟨(state, rank), ?_, ?_⟩)
    · exact List.mem_zipIdx_iff_getElem?.mpr hnew
    · simp [hold]

/-- A state reported is in force. -/
theorem getElem?_of_mem_diff {old new : Decision} {rank : Nat} {state : State}
    (hreported : .state rank state ∈ diff old new) : new.states[rank]? = some state := by
  unfold diff at hreported
  simp only [List.mem_append] at hreported
  rcases hreported with ((hlink | hhotspot) | hdefault) | hstate
  · obtain ⟨interface, -, hlink⟩ := List.mem_filterMap.mp hlink
    split at hlink <;> cases hlink
  · split at hhotspot <;> simp at hhotspot
  · split at hdefault <;> simp at hdefault
  · obtain ⟨⟨state', rank'⟩, hmem, hstate⟩ := List.mem_filterMap.mp hstate
    split at hstate
    · cases hstate
      exact List.mem_zipIdx_iff_getElem?.mp hmem
    · cases hstate

namespace Selector

/-- An observation leaves the decision for selecting again, and the document. -/
theorem observe_keeps (s : Selector φ) (event : Event) :
    (s.observe event).decision = s.decision ∧ (s.observe event).document = s.document := by
  cases event with
  | carrier interface up =>
      simp only [observe, carrierEvent, availableAnew]
      split
      · exact ⟨rfl, rfl⟩
      · split
        · exact ⟨rfl, rfl⟩
        · split <;> exact ⟨rfl, rfl⟩
  | inRange interface ssid signal =>
      simp only [observe, inRange, availableAnew]
      split
      · exact ⟨rfl, rfl⟩
      · split <;> exact ⟨rfl, rfl⟩
  | outOfRange interface ssid => exact ⟨rfl, rfl⟩
  | passed attempt stage =>
      simp only [observe, passed]
      split
      · split <;> exact ⟨rfl, rfl⟩
      · exact ⟨rfl, rfl⟩
  | failed attempt stage member reason =>
      simp only [observe, failedEvent]
      split <;> exact ⟨rfl, rfl⟩
  | stationChannel interface channel =>
      simp only [observe, stationChannel]
      split
      · exact ⟨rfl, rfl⟩
      · split <;> exact ⟨rfl, rfl⟩
  | retry candidate => exact ⟨rfl, rfl⟩

/-- Taking in an observation keeps the document. -/
theorem handle_document (s : Selector φ) (event : Event) :
    (s.handle event).1.document = s.document :=
  (settle_keeps _).2.1.trans (s.observe_keeps event).2

/-- Selecting again from no states reports every one. -/
theorem mem_settle_state (s : Selector φ) (hnone : s.decision.states = []) {rank : Nat}
    {state : State} (hnew : s.settle.1.decision.states[rank]? = some state) :
    .state rank state ∈ s.settle.2 := by
  have hreported : s.decision.states[rank]? = some state ∨
      .state rank state ∈ diff s.decision s.settle.1.decision := mem_diff_state hnew
  rcases hreported with hbefore | hreported
  · simp [hnone] at hbefore
  · exact hreported

/-- A state in force after an observation was in force before, or is reported. -/
theorem mem_handle_state (s : Selector φ) (event : Event) {rank : Nat} {state : State}
    (hnew : (s.handle event).1.decision.states[rank]? = some state) :
    s.decision.states[rank]? = some state ∨ .state rank state ∈ (s.handle event).2 := by
  have hdiff : (s.handle event).2 = diff s.decision (s.handle event).1.decision := by
    rw [← (s.observe_keeps event).1]
    rfl
  rw [hdiff]
  exact mem_diff_state hnew

theorem getElem?_of_mem_handle (s : Selector φ) (event : Event) {rank : Nat} {state : State}
    (hreported : .state rank state ∈ (s.handle event).2) :
    (s.handle event).1.decision.states[rank]? = some state :=
  getElem?_of_mem_diff hreported

/-! ## Failures -/

/-- Erasing failures leaves no other. -/
theorem getElem?_foldl_erase {failures : ExtTreeMap Nat Fault} {ranks : List Nat}
    {rank : Nat} {fault : Fault}
    (hfault : (ranks.foldl (fun failures rank => failures.erase rank) failures)[rank]? =
      some fault) : failures[rank]? = some fault := by
  induction ranks generalizing failures with
  | nil => exact hfault
  | cons first rest ih =>
      have hone := ih hfault
      rw [ExtTreeMap.getElem?_erase] at hone
      split at hone
      · cases hone
      · exact hone

/-- A failure remembered after an observation was remembered before, or is the
one observed. -/
theorem failures_observe (s : Selector φ) (event : Event) {rank : Nat} {fault : Fault}
    (hfault : (s.observe event).failures[rank]? = some fault) :
    s.failures[rank]? = some fault ∨
      ∃ attempt, event = .failed attempt fault.reached fault.member fault.reason := by
  cases event with
  | carrier interface up =>
      left
      simp only [observe, carrierEvent, availableAnew] at hfault
      split at hfault
      · exact hfault
      · split at hfault
        · exact hfault
        · split at hfault
          · exact hfault
          · exact getElem?_foldl_erase hfault
  | inRange interface ssid signal =>
      left
      simp only [observe, inRange, availableAnew] at hfault
      split at hfault
      · exact hfault
      · split at hfault
        · exact hfault
        · exact getElem?_foldl_erase hfault
  | outOfRange interface ssid => exact .inl hfault
  | passed attempt stage =>
      left
      simp only [observe, passed] at hfault
      split at hfault
      · split at hfault <;> exact hfault
      · exact hfault
  | failed attempt stage member reason =>
      simp only [observe, failedEvent] at hfault
      split at hfault
      · simp only at hfault
        rw [OrderedMap.getElem?_insert_ite] at hfault
        split at hfault
        · right
          rw [← Option.some.inj hfault]
          exact ⟨attempt, rfl⟩
        · exact .inl hfault
      · exact .inl hfault
  | stationChannel interface channel =>
      left
      simp only [observe, stationChannel] at hfault
      split at hfault
      · exact hfault
      · split at hfault <;> exact hfault
  | retry candidate =>
      left
      simp only [observe] at hfault
      rw [ExtTreeMap.getElem?_erase] at hfault
      split at hfault
      · cases hfault
      · exact hfault

/-- Trying a candidate again forgets its failure. -/
theorem failures_retry (s : Selector φ) (candidate : Nat) :
    (s.handle (.retry candidate)).1.failures[candidate]? = none := by
  have hkeeps := (s.observe (.retry candidate)).settle_keeps
  have hfailures : (s.handle (.retry candidate)).1.failures =
      (s.observe (.retry candidate)).failures := hkeeps.2.2.2.2
  rw [hfailures]
  simp [observe]

/-! ## Documents -/

/-- A new selector is of its document and hardware, and remembers no failure. -/
theorem new_keeps {hardware : Hardware} {document : Document φ} {s : Selector φ}
    (hnew : Selector.new hardware document = .ok s) :
    s.document = document ∧ s.hardware = hardware ∧ s.failures = ∅ := by
  unfold Selector.new at hnew
  rcases hcheck : check document hardware with invalid | accepted
  · simp [hcheck, bind, Except.bind] at hnew
  · simp only [hcheck, bind, Except.bind, pure, Except.pure, Except.ok.injEq] at hnew
    rw [← hnew]
    obtain ⟨hhardware, hdocument, -, -, hfailures⟩ := settle_keeps (_ : Selector φ)
    exact ⟨hdocument, hhardware, hfailures⟩

/-- Configuring a document either leaves the selector as it was, the document
being the one held, or selects among it anew: every state is reported, and every
failure is one remembered before. -/
theorem configure_cases [BEq φ] {s s' : Selector φ} {document : Document φ}
    {changes : List Change} (hconfigure : s.configure document = .ok (s', changes)) :
    ((document == s.document) = true ∧ s' = s ∧ changes = []) ∨
    (Settled s' ∧ s'.document = document ∧ s'.hardware = s.hardware ∧
      (∀ rank state, s'.decision.states[rank]? = some state → .state rank state ∈ changes) ∧
      ∀ (rank : Nat) (fault : Fault), s'.failures[rank]? = some fault →
        ∃ old : Nat, s.failures[old]? = some fault) := by
  unfold configure at hconfigure
  rcases hcheck : check document s.hardware with invalid | accepted
  · simp [hcheck, bind, Except.bind] at hconfigure
  · simp only [hcheck, bind, Except.bind, pure, Except.pure] at hconfigure
    split at hconfigure
    · rename_i hsame
      simp only [Except.ok.injEq, Prod.mk.injEq] at hconfigure
      exact .inl ⟨hsame, hconfigure.1.symm, hconfigure.2.symm⟩
    · right
      simp only [Except.ok.injEq] at hconfigure
      have hselector : _ = s' := congrArg Prod.fst hconfigure
      have hchanges : _ = changes := congrArg Prod.snd hconfigure
      rw [← hselector, ← hchanges]
      refine ⟨settle_settled _, rfl, rfl, ?_, ?_⟩
      · intro rank state hstate
        exact mem_settle_state _ rfl hstate
      · intro rank fault hfault
        rw [(settle_keeps _).2.2.2.2] at hfault
        obtain ⟨⟨old, fault'⟩, hold, hmoved⟩ :=
          List.mem_filterMap.mp (OrderedMap.mem_of_getElem?_ofList hfault)
        obtain ⟨new, -, hentry⟩ := Option.map_eq_some_iff.mp hmoved
        simp only [Prod.mk.injEq] at hentry
        refine ⟨old, ?_⟩
        rw [← hentry.2]
        simpa using hold

end Selector

end Bliti.Network.Select
