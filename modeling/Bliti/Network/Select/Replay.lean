import Bliti.Network.Select.Repeated

/-!
# Selection - replaying what was reported

What follows the changes a selector reports, without seeing the selector, knows the decision
in force: the changes are a difference that replaying adds back.

Main results:

- Theorem `selecting_repeats`: what is in force is reported as nothing, and what is replayed
  is in force.
-/

namespace Bliti.Network.Select

open Std (ExtTreeMap ExtTreeSet)
open Channel.Config

variable {φ : Type}

/-! ## Replaying -/

namespace Decision

/-- Take in a change reported. -/
def replay (decision : Decision) : Change → Decision
  | .link interface (some link) =>
      { decision with links := decision.links.insert interface link }
  | .link interface none => { decision with links := decision.links.erase interface }
  | .hotspot placement => { decision with hotspot := placement }
  | .defaultRoute candidate => { decision with defaultRoute := candidate }
  | .state candidate state =>
      if candidate < decision.states.length then
        { decision with states := decision.states.set candidate state }
      else { decision with states := decision.states ++ [state] }

/-- Take in the changes reported, in order. -/
def replayAll (decision : Decision) (changes : List Change) : Decision :=
  changes.foldl replay decision

theorem replayAll_append (decision : Decision) (changes later : List Change) :
    decision.replayAll (changes ++ later) = (decision.replayAll changes).replayAll later :=
  List.foldl_append

end Decision

/-! ## The parts of a difference -/

/-- The links that differ, replayed. -/
theorem replayAll_links (old new : Decision) (interfaces : List String) :
    ∃ links : ExtTreeMap String Link,
      old.replayAll (interfaces.filterMap fun interface =>
        if old.links[interface]? != new.links[interface]? then
          some (.link interface new.links[interface]?)
        else none) = { old with links := links } ∧
      ∀ interface : String, links[interface]? =
        if interface ∈ interfaces then new.links[interface]? else old.links[interface]? := by
  unfold Decision.replayAll
  rw [List.foldl_filterMap]
  refine Loops.foldl_invariant_of_prefix _ interfaces
    (fun taken replayed => ∃ links : ExtTreeMap String Link,
      replayed = { old with links := links } ∧ ∀ interface : String, links[interface]? =
        if interface ∈ taken then new.links[interface]? else old.links[interface]?)
    old ⟨old.links, rfl, by simp⟩ ?_
  rintro taken interface rest replayed - ⟨links, rfl, hlinks⟩
  by_cases hsame : old.links[interface]? = new.links[interface]?
  · refine ⟨links, by simp [hsame], fun other => ?_⟩
    rw [hlinks other]
    by_cases hother : other = interface
    · simp [hother, hsame]
    · simp [hother]
  · rcases hnew : new.links[interface]? with _ | link
    · rw [hnew] at hsame
      refine ⟨links.erase interface, by simp [hsame, Decision.replay], fun other => ?_⟩
      rw [ExtTreeMap.getElem?_erase, hlinks other]
      by_cases hother : other = interface
      · simp [hother, hnew]
      · simp [hother, Ne.symm hother]
    · rw [hnew] at hsame
      refine ⟨links.insert interface link, by simp [hsame, Decision.replay], fun other => ?_⟩
      rw [OrderedMap.getElem?_insert_ite, hlinks other]
      by_cases hother : other = interface
      · simp [hother, hnew]
      · simp [hother, Ne.symm hother]

/-- A hotspot that differs, replayed. -/
theorem replayAll_hotspot (decision : Decision) (placement : Option Placement) :
    decision.replayAll (if decision.hotspot != placement then [.hotspot placement] else []) =
      { decision with hotspot := placement } := by
  by_cases hsame : decision.hotspot = placement
  · simp [Decision.replayAll, ← hsame]
  · simp [hsame, Decision.replayAll, Decision.replay]

/-- A default route that differs, replayed. -/
theorem replayAll_defaultRoute (decision : Decision) (candidate : Option Nat) :
    decision.replayAll
        (if decision.defaultRoute != candidate then [.defaultRoute candidate] else []) =
      { decision with defaultRoute := candidate } := by
  by_cases hsame : decision.defaultRoute = candidate
  · simp [Decision.replayAll, ← hsame]
  · simp [hsame, Decision.replayAll, Decision.replay]

/-- The states that differ, replayed in order. -/
theorem replayAll_states (decision : Decision) (states : List State)
    (hlength : decision.states.length ≤ states.length) :
    decision.replayAll (states.zipIdx.filterMap fun (state, candidate) =>
      if decision.states[candidate]? != some state then some (.state candidate state)
      else none) = { decision with states := states } := by
  unfold Decision.replayAll
  rw [List.foldl_filterMap]
  refine (Loops.foldl_invariant_of_zipIdx _ states
    (fun n replayed => replayed =
      { decision with states := states.take n ++ decision.states.drop n }) decision (by simp) ?_).trans
    (by simp [List.drop_eq_nil_of_le hlength])
  rintro n state replayed hstate rfl
  have htake : states.take (n + 1) = states.take n ++ [state] := by
    rw [List.take_add_one, hstate, Option.toList_some]
  have hbefore : (states.take n).length = n :=
    List.length_take_of_le (Nat.le_of_lt (List.getElem?_eq_some_iff.mp hstate).1)
  by_cases hshort : n < decision.states.length
  · have hdrop : decision.states.drop n = decision.states[n] :: decision.states.drop (n + 1) :=
      List.drop_eq_getElem_cons hshort
    rw [htake, hdrop, List.append_assoc, List.singleton_append]
    by_cases hsame : decision.states[n] = state
    · simp only [List.getElem?_eq_getElem hshort, hsame, bne_self_eq_false, Bool.false_eq_true,
        if_false]
    · have hdiffers : (decision.states[n]? != some state) = true := by
        simp [hshort, hsame]
      have hwithin : n < (states.take n ++ decision.states[n] ::
          decision.states.drop (n + 1)).length := by
        rw [List.length_append, hbefore, List.length_cons]
        omega
      simp only [hdiffers, if_true, Decision.replay, if_pos hwithin]
      rw [List.set_append_right n state (Nat.le_of_eq hbefore), hbefore, Nat.sub_self,
        List.set_cons_zero]
  · have hdrop : ∀ m, n ≤ m → decision.states.drop m = [] := fun m hle =>
      List.drop_eq_nil_of_le (by omega)
    simp [hshort, htake, hdrop, Decision.replay, hbefore]

/-- The changes between two decisions, replayed onto the first, give the second. -/
theorem replay_diff {old new : Decision} (hlength : old.states.length ≤ new.states.length) :
    old.replayAll (diff old new) = new := by
  obtain ⟨links, hreplayed, hlinks⟩ := replayAll_links old new
    (ExtTreeSet.ofList (old.links.keys ++ new.links.keys)).toList
  have hsame : links = new.links := by
    apply ExtTreeMap.ext_getElem?
    intro interface
    rw [hlinks]
    split
    · rfl
    · rename_i hneither
      simp only [ExtTreeSet.mem_toList, ExtTreeSet.mem_ofList, List.contains_eq_mem,
        List.mem_append, ExtTreeMap.mem_keys, decide_eq_true_eq, not_or] at hneither
      rw [ExtTreeMap.getElem?_eq_none hneither.1, ExtTreeMap.getElem?_eq_none hneither.2]
  let linked : Decision := { old with links := new.links }
  let hosted : Decision := { linked with hotspot := new.hotspot }
  let routed : Decision := { hosted with defaultRoute := new.defaultRoute }
  have hhotspot : linked.replayAll
      (if old.hotspot != new.hotspot then [.hotspot new.hotspot] else []) = hosted :=
    replayAll_hotspot linked new.hotspot
  have hdefault : hosted.replayAll
      (if old.defaultRoute != new.defaultRoute then [.defaultRoute new.defaultRoute]
        else []) = routed :=
    replayAll_defaultRoute hosted new.defaultRoute
  have hstates := replayAll_states routed new.states hlength
  unfold diff
  rw [hsame] at hreplayed
  simp only [Decision.replayAll_append]
  rw [hreplayed, hhotspot, hdefault]
  exact hstates

/-! ## Replaying a run -/

/-- What whoever follows a selector replays a report onto: a document other than the one
held moves the ranks, so what is known of their states is let go. -/
def Decision.following [BEq φ] (decision : Decision) (s : Selector φ) : Input φ → Decision
  | .handle _ => decision
  | .configure document =>
      if document == s.document then decision else { decision with states := [] }

/-- A selector fed events and documents, beside a decision replayed from what it reports. -/
def replaying (φ : Type) [BEq φ] (hardware : Hardware) :
    Transition.System (Selector φ × Decision) (Input φ) where
  init s := (selecting φ hardware).init s.1 ∧ s.2 = s.1.decision
  step s input s' := ∃ changes, s.1.feed input = .ok (s'.1, changes) ∧
    s'.2 = (s.2.following s.1 input).replayAll changes

/-- What is replayed is replayed beside a selector that is reachable. -/
theorem replaying_reachable [BEq φ] {hardware : Hardware} {s : Selector φ × Decision}
    (hreach : (replaying φ hardware).Reachable s) :
    (selecting φ hardware).Reachable s.1 := by
  induction hreach with
  | start hstart => exact .start hstart.1
  | next _ hstep ih =>
      obtain ⟨changes, hfeed, -⟩ := hstep
      exact .next ih ⟨changes, hfeed⟩

/-- Beside every reachable selector a decision is replayed. -/
theorem exists_replaying [BEq φ] {hardware : Hardware} {s : Selector φ}
    (hreach : (selecting φ hardware).Reachable s) :
    ∃ replayed, (replaying φ hardware).Reachable (s, replayed) := by
  induction hreach with
  | @start s hstart => exact ⟨s.decision, .start ⟨hstart, rfl⟩⟩
  | next _ hstep ih =>
      obtain ⟨replayed, hreplaying⟩ := ih
      obtain ⟨changes, hfeed⟩ := hstep
      exact ⟨_, .next hreplaying ⟨changes, hfeed, rfl⟩⟩

/-- What selecting again reports, replayed onto the decision before, gives the one after. -/
theorem replayAll_settle {s : Selector φ}
    (hlength : s.decision.states.length ≤ s.document.attachments.length) :
    s.decision.replayAll s.settle.2 = s.settle.1.decision := by
  apply replay_diff
  calc s.decision.states.length
      ≤ s.document.attachments.length := hlength
    _ = s.settle.1.document.attachments.length := by rw [s.settle_keeps.2.1]
    _ = s.settle.1.decision.states.length := s.settle_settled.length_states.symm

/-- What one input reports, replayed onto the decision in force, gives the next. -/
theorem replayAll_feed [BEq φ] {s s' : Selector φ} (hsettled : Settled s) {input : Input φ}
    {changes : List Change} (hfeed : s.feed input = .ok (s', changes)) :
    (s.decision.following s input).replayAll changes = s'.decision := by
  cases input with
  | handle event =>
      simp only [Selector.feed, Except.ok.injEq] at hfeed
      have hafter : (s.handle event).1 = s' := congrArg Prod.fst hfeed
      have hchanges : (s.handle event).2 = changes := congrArg Prod.snd hfeed
      obtain ⟨hdecision, hdocument⟩ := s.observe_keeps event
      rw [← hafter, ← hchanges, Decision.following, ← hdecision]
      apply replayAll_settle
      rw [hdecision, hdocument, hsettled.length_states]
  | configure document =>
      simp only [Selector.feed, Selector.configure] at hfeed
      obtain ⟨-, -, hrest⟩ := Fallible.bind_ok.mp hfeed
      simp only [Decision.following]
      split at hrest
      · rename_i hsame
        obtain ⟨rfl, rfl⟩ := Prod.mk.inj (Fallible.pure_ok.mp hrest)
        rw [if_pos hsame]
        rfl
      · rename_i hother
        have hafter := congrArg Prod.fst (Fallible.pure_ok.mp hrest)
        have hchanges := congrArg Prod.snd (Fallible.pure_ok.mp hrest)
        dsimp only at hafter hchanges
        rw [if_neg hother, ← hafter, ← hchanges]
        generalize hmoved : ({ s with
          held := _, failures := _, document := _, decision := _ } : Selector φ) = moved
        have hdecision : moved.decision = { s.decision with states := [] } := by rw [← hmoved]
        rw [← hdecision]
        apply replayAll_settle
        rw [hdecision]
        exact Nat.zero_le _

/-- What is replayed of a run is the decision in force. -/
theorem replaying_decision [BEq φ] {hardware : Hardware} {s : Selector φ × Decision}
    (hreach : (replaying φ hardware).Reachable s) : s.2 = s.1.decision := by
  induction hreach with
  | start hstart => exact hstart.2
  | next hbefore hstep ih =>
      obtain ⟨changes, hfeed, hreplayed⟩ := hstep
      have hsettled := selecting_settled hardware _ (replaying_reachable hbefore)
      rw [hreplayed, ih, replayAll_feed hsettled hfeed]

/-! ## Selection settles -/

/-- In every selector any events and documents lead to, an observation in force and the
document held are reported as nothing and leave the selector as it is; and of every run, the
changes reported, replayed onto the decision it started with, give the decision in force. -/
theorem selecting_repeats [BEq φ] [ReflBEq φ] (hardware : Hardware) :
    (∀ s : Selector φ, (selecting φ hardware).Reachable s →
      (∀ event, s.InForce event → s.handle event = (s, [])) ∧
      s.configure s.document = .ok (s, []) ∧
      ∃ replayed, (replaying φ hardware).Reachable (s, replayed)) ∧
    ∀ (s : Selector φ) (replayed : Decision),
      (replaying φ hardware).Reachable (s, replayed) → replayed = s.decision := by
  constructor
  · intro s hreach
    have hcurrent := selecting_current hreach
    refine ⟨fun event hforce => ?_, ?_, exists_replaying hreach⟩
    · exact hcurrent.handle_eq (Selector.observe_inForce hforce)
    · exact Selector.configure_eq (selecting_accepted hreach)
  · intro s replayed hreach
    exact replaying_decision hreach

/-- Carrier on a port seen twice is reported once. -/
theorem selecting_repeats_onePort :
    ∃ s : Selector Nat, (selecting Nat onePort).Reachable s ∧
      s.decision.states = [.verifying .addressing, .standby] ∧
      s.handle (.carrier "eth0" true) = (s, []) ∧
      s.configure s.document = .ok (s, []) := by
  obtain ⟨start, hnew⟩ : ∃ start : Selector Nat, Selector.new onePort twoOnPort = .ok start :=
    ⟨_, rfl⟩
  let up : Event := .carrier "eth0" true
  have hreach : (selecting Nat onePort).Reachable (start.handle up).1 :=
    .next (a := .handle up) (.start ⟨twoOnPort, hnew⟩) ⟨(start.handle up).2, rfl⟩
  have hstart : start = (Selector.new onePort twoOnPort).toOption.get (by decide) := by
    simp [hnew, Except.toOption]
  obtain ⟨hagain, hconfigure, -⟩ := (selecting_repeats onePort).1 _ hreach
  refine ⟨_, hreach, ?_, hagain up ?_, hconfigure⟩
  · rw [hstart]
    decide
  · have hseen : "eth0" ∈ (start.handle up).1.carrier := by
      rw [hstart]
      decide
    exact iff_of_true hseen rfl

end Bliti.Network.Select
