import Mathlib.Order.WithBot
import Bliti.Library.Loops
import Bliti.Library.Matching
import Bliti.Channel.Config.Equal
import Bliti.Network.Select.Settle
import Bliti.Network.Stack.Driver.Answer

/-!
# The network stack - what is judged, and what it comes to

A proposal is judged on the candidates it adds or changes.  What it carries over is found
twice: the selector matches the candidates it had to those of the new document, and the
driver those of the proposal to the ones replaced.

Main results:

- Theorem `changed_iff_not_moved`: the candidates judged are those nothing is carried over to.
- Theorem `verdict_iff`: a proposal holds where every candidate judged does, and fails at the
  one that got furthest of those that do not.
-/

namespace Bliti.Network

open Channel.Config Select

variable {φ : Type} [BEq φ]

/-! ## What is carried over -/

/-- The selector matches candidates by a scan down the ones it had. -/
theorem Selector.moved_eq_seek {new olds : List (Attachment φ)} {taken : List Bool}
    (hlength : taken.length = new.length) :
    Selector.moved new olds taken =
      Matching.seek new olds (Matching.free taken new.length) := by
  induction olds generalizing taken with
  | nil => rfl
  | cons old rest ih =>
      simp only [Selector.moved, Matching.seek, Matching.find?_free]
      cases hfind : (Matching.free taken new.length).find? fun place =>
          new[place]?.any (· == old) with
      | none =>
          have hnone : (Matching.free taken new.length).find? (Matching.Holds new old) = none :=
            hfind
          simp only [hnone, ih hlength]
      | some place =>
          have hsome : (Matching.free taken new.length).find? (Matching.Holds new old) =
            some place := hfind
          have hplace := List.mem_range.mp (List.mem_of_mem_filter (List.mem_of_find?_eq_some hfind))
          simp only [hsome, ih ((List.length_set).trans hlength), Matching.free_set hlength hplace]

namespace Stack

/-- The driver judges the candidates a scan down the proposal finds nothing for. -/
theorem changedFrom_eq {replaced candidates : List (Attachment φ)} {rank : Nat}
    {taken : List Bool} (hlength : taken.length = replaced.length) :
    changedFrom replaced candidates rank taken =
      (((Matching.seek replaced candidates (Matching.free taken replaced.length)).zipIdx rank).filter
        fun answer => answer.1.isNone).map Prod.snd := by
  induction candidates generalizing taken rank with
  | nil => rfl
  | cons candidate rest ih =>
      simp only [changedFrom, Matching.seek, Matching.find?_free]
      cases hfind : (Matching.free taken replaced.length).find? fun place =>
          replaced[place]?.any (· == candidate) with
      | none =>
          have hnone : (Matching.free taken replaced.length).find?
            (Matching.Holds replaced candidate) = none := hfind
          simp [hnone, ih hlength]
      | some place =>
          have hsome : (Matching.free taken replaced.length).find?
            (Matching.Holds replaced candidate) = some place := hfind
          have hplace := List.mem_range.mp (List.mem_of_mem_filter (List.mem_of_find?_eq_some hfind))
          simp [hsome, ih ((List.length_set).trans hlength), Matching.free_set hlength hplace]

/-- The candidates judged are those of the proposal no scan found a candidate replaced for. -/
theorem mem_changed {replaced proposal : Document φ} {candidate : Nat} :
    candidate ∈ changed replaced proposal ↔
      (Matching.seek replaced.attachments proposal.attachments
        (List.range replaced.attachments.length))[candidate]? = some none := by
  rw [changed, changedFrom_eq (by simp), Matching.free_replicate]
  simp [List.mem_zipIdx_iff_getElem?]

/-- What is judged is what is not carried over: the candidates of a proposal, in order, that the
selector matches no candidate replaced to; and a reordering has none. -/
theorem changed_iff_not_moved [EquivBEq φ] (replaced proposal : Document φ) :
    (∀ candidate, candidate ∈ changed replaced proposal ↔
      candidate < proposal.attachments.length ∧
        ∀ old : Nat, (Selector.moved proposal.attachments replaced.attachments
          (List.replicate proposal.attachments.length false))[old]?.join ≠ some candidate) ∧
    (changed replaced proposal).Pairwise (· < ·) ∧
    (replaced.attachments.Perm proposal.attachments → changed replaced proposal = []) := by
  refine ⟨?_, ?_, ?_⟩
  · intro candidate
    rw [mem_changed, Selector.moved_eq_seek (by simp), Matching.free_replicate]
    by_cases hlt : candidate < proposal.attachments.length
    · rw [Matching.seek_eq_none_iff_not_mem hlt]
      simp [hlt, List.mem_iff_getElem?, Option.join_eq_some_iff]
    · have hnone : (Matching.seek replaced.attachments proposal.attachments
          (List.range replaced.attachments.length))[candidate]? = none :=
        List.getElem?_eq_none (by simpa using hlt)
      rw [hnone]
      simp [hlt]
  · rw [changed, changedFrom_eq (by simp)]
    refine List.Pairwise.sublist ((List.filter_sublist).map Prod.snd) ?_
    rw [List.zipIdx_map_snd]
    exact List.pairwise_lt_range'
  · intro hperm
    rw [List.eq_nil_iff_forall_not_mem]
    intro candidate hmem
    exact Matching.seek_ne_none_of_perm hperm candidate (mem_changed.mp hmem)

/-- A wired port that takes its addressing as it comes. -/
def wired (interface : String) : Attachment Unit where
  label := interface
  enabled := true
  verify := true
  nameservers := []
  kind := .wiredDynamic interface

/-- Two ports in another order, one of them named twice, leave nothing to judge. -/
theorem changed_iff_not_moved_reordered :
    changed
      { attachments := [wired "eth0", wired "eth1", wired "eth0"]
        hotspot := none, regulatoryDomain := none }
      { attachments := [wired "eth1", wired "eth0", wired "eth0"]
        hotspot := none, regulatoryDomain := none } = [] :=
  (changed_iff_not_moved _ _).2.2 (.swap _ _ _)

omit [BEq φ]

/-! ## The verdict -/

/-- Whether a candidate judged has an interface that carries an established candidate. -/
def Established (decision : Decision) (judged : Judged) : Prop :=
  ∃ interface ∈ judged.interfaces, ∃ link, decision.links[interface]? = some link ∧
    (decision.states[link.candidate]? = some .up ∨
      decision.states[link.candidate]? = some .defaultRoute)

/-- The stage recorded of a candidate that is not available, one with none ranking below all. -/
def stageOf (decision : Decision) (candidate : Nat) : WithBot Stage :=
  match faultOf decision candidate with
  | some fault => fault.reached
  | none => ⊥

/-- Whether one candidate judged got no further than another, and is no earlier in the ordering
where it got as far. -/
def Behind (decision : Decision) (judged furthest : Judged) : Prop :=
  stageOf decision judged.candidate < stageOf decision furthest.candidate ∨
    (stageOf decision judged.candidate = stageOf decision furthest.candidate ∧
      furthest.candidate ≤ judged.candidate)

/-- A failure at a candidate: at the member at fault, with the stage and the reason recorded. -/
def failureAt (decision : Decision) (candidate : Nat) : Failure :=
  let fault := faultOf decision candidate
  { atPath := path ([.name "attachments", .index candidate] ++ (fault.map Fault.member).getD [])
    reason := (fault.map Fault.reason).getD "no interface it could go on was free to bring it up"
    reached := fault.map fun fault => fault.reached.asStr }

/-- Whether an interface carries an established candidate, as `verdict` tests it. -/
theorem carriesEstablished_iff {decision : Decision} {interface : String} :
    carriesEstablished decision interface = true ↔
      ∃ link, decision.links[interface]? = some link ∧
        (decision.states[link.candidate]? = some .up ∨
          decision.states[link.candidate]? = some .defaultRoute) := by
  rw [carriesEstablished, Option.any_eq_true]
  refine exists_congr fun link => and_congr_right fun _ => ?_
  split
  · rename_i hup
    simp [hup]
  · rename_i hdefault
    simp [hdefault]
  · rename_i hup hdefault
    exact iff_of_false Bool.false_ne_true fun hholds => hholds.elim hup hdefault

theorem mem_short {decision : Decision} {judged : List Judged} {one : Judged} :
    one ∈ judged.filter (fun judged => !judged.interfaces.any (carriesEstablished decision)) ↔
      one ∈ judged ∧ ¬ Established decision one := by
  simp [List.mem_filter, Established, carriesEstablished_iff]

/-- A failure ranks below another, and with it, as the stage recorded does. -/
theorem reachedRank_lt_iff {decision : Decision} {a b : Nat} :
    reachedRank (faultOf decision a) < reachedRank (faultOf decision b) ↔
      stageOf decision a < stageOf decision b := by
  unfold stageOf reachedRank
  cases faultOf decision a <;> cases faultOf decision b
  · simp
  · simp
  · simp
  · rename_i one other
    rw [Nat.add_lt_add_iff_right, WithBot.coe_lt_coe]
    exact Iff.rfl

/-- The order of what is ranked: how far a candidate got, then its place in the ordering. -/
def RankedBehind (one other : Nat × Option Fault) : Prop :=
  reachedRank one.2 < reachedRank other.2 ∨
    (reachedRank one.2 = reachedRank other.2 ∧ other.1 ≤ one.1)

/-- The order of what is ranked is that of the candidates judged. -/
theorem rankedBehind_iff {decision : Decision} {one other : Judged} :
    RankedBehind (one.candidate, faultOf decision one.candidate)
        (other.candidate, faultOf decision other.candidate) ↔
      Behind decision one other := by
  have heq : reachedRank (faultOf decision one.candidate) =
        reachedRank (faultOf decision other.candidate) ↔
      stageOf decision one.candidate = stageOf decision other.candidate := by
    simp only [le_antisymm_iff, ← not_lt, reachedRank_lt_iff]
  exact or_congr reachedRank_lt_iff (and_congr_left fun _ => heq)

/-- What got furthest is one of those ranked, and the others are behind it. -/
theorem furthest_spec {ranked : List (Nat × Option Fault)} {best : Nat × Option Fault}
    (hbest : furthest ranked = some best) :
    best ∈ ranked ∧ ∀ one ∈ ranked, RankedBehind one best := by
  cases ranked with
  | nil => cases hbest
  | cons first rest =>
      obtain rfl := Option.some.inj hbest
      refine Loops.foldl_invariant_of_prefix _ rest
        (fun pre best => best ∈ first :: pre ∧ ∀ one ∈ first :: pre, RankedBehind one best)
        first ?_ ?_
      · refine ⟨List.mem_cons_self, fun one hone => ?_⟩
        obtain rfl : one = first := by simpa using hone
        exact .inr ⟨rfl, Nat.le_refl _⟩
      · rintro pre next post best - ⟨hmem, hbehind⟩
        unfold RankedBehind at hbehind ⊢
        split
        · rename_i hnext
          refine ⟨by simp, fun one hone => ?_⟩
          rw [← List.cons_append, List.mem_append, List.mem_singleton] at hone
          rcases hone with hone | rfl
          · have := hbehind one hone
            omega
          · exact .inr ⟨rfl, Nat.le_refl _⟩
        · rename_i hnext
          refine ⟨by rw [← List.cons_append]; exact List.mem_append_left _ hmem, fun one hone => ?_⟩
          rw [← List.cons_append, List.mem_append, List.mem_singleton] at hone
          rcases hone with hone | rfl
          · exact hbehind one hone
          · omega

/-- What of the candidates judged is short of holding is ranked by how far it got. -/
theorem mem_ranked {decision : Decision} {judged : List Judged}
    {ranked : Nat × Option Fault} :
    ranked ∈ (judged.filter fun judged =>
        !judged.interfaces.any (carriesEstablished decision)).map (fun judged =>
          (judged.candidate, faultOf decision judged.candidate)) ↔
      ∃ one ∈ judged, ¬ Established decision one ∧
        (one.candidate, faultOf decision one.candidate) = ranked := by
  simp only [List.mem_map, mem_short, and_assoc]

/-- Two candidates each behind the other are one. -/
theorem Behind.antisymm {decision : Decision} {one other : Judged}
    (hbehind : Behind decision one other) (hother : Behind decision other one) :
    one.candidate = other.candidate := by
  rcases hbehind with hlt | ⟨heq, hle⟩
  · rcases hother with hgt | ⟨heq, -⟩
    · exact absurd hgt (not_lt_of_gt hlt)
    · exact absurd heq (ne_of_gt hlt)
  · rcases hother with hgt | ⟨-, hge⟩
    · exact absurd heq (ne_of_gt hgt)
    · exact Nat.le_antisymm hge hle

/-- The verdict, by which of the candidates judged got furthest of those short of holding. -/
theorem verdict_cases (decision : Decision) (judged : List Judged) :
    (verdict decision judged = .ok () ∧ ∀ one ∈ judged, Established decision one) ∨
    ∃ one ∈ judged, ¬ Established decision one ∧
      (∀ other ∈ judged, ¬ Established decision other → Behind decision other one) ∧
      verdict decision judged = .error (failureAt decision one.candidate) := by
  unfold verdict
  simp only
  split
  · rename_i hnone
    refine .inl ⟨rfl, fun one hone => ?_⟩
    by_contra hshort
    have hmem := mem_ranked.mpr ⟨one, hone, hshort, rfl⟩
    cases hranked : (judged.filter fun judged =>
        !judged.interfaces.any (carriesEstablished decision)).map (fun judged =>
          (judged.candidate, faultOf decision judged.candidate)) with
    | nil => exact absurd (hranked ▸ hmem) List.not_mem_nil
    | cons first rest =>
        rw [hranked] at hnone
        cases hnone
  · rename_i candidate fault hsome
    obtain ⟨hmem, hbehind⟩ := furthest_spec hsome
    obtain ⟨one, hone, hshort, hranked⟩ := mem_ranked.mp hmem
    obtain ⟨rfl, rfl⟩ := Prod.mk.inj hranked
    refine .inr ⟨one, hone, hshort, fun other hother hnot => ?_, ?_⟩
    · exact rankedBehind_iff.mp (hbehind _ (mem_ranked.mpr ⟨other, hother, hnot, rfl⟩))
    · cases hfault : faultOf decision one.candidate <;> simp [failureAt, hfault, Stage.failed]

/-- A configuration holds exactly where every candidate judged has an interface that carries an
established candidate, and fails otherwise at the one of the others whose stage is latest, the
first in the ordering among equals. -/
theorem verdict_iff (decision : Decision) (judged : List Judged) :
    (verdict decision judged = .ok () ↔ ∀ one ∈ judged, Established decision one) ∧
    ∀ failure, verdict decision judged = .error failure ↔
      ∃ one ∈ judged, ¬ Established decision one ∧
        (∀ other ∈ judged, ¬ Established decision other → Behind decision other one) ∧
        failure = failureAt decision one.candidate := by
  rcases verdict_cases decision judged with ⟨hok, hall⟩ | ⟨worst, hworst, hshort, hbehind, herror⟩
  · refine ⟨iff_of_true hok hall, fun failure => iff_of_false ?_ ?_⟩
    · rw [hok]
      exact nofun
    · rintro ⟨one, hone, hnot, -⟩
      exact hnot (hall one hone)
  · refine ⟨iff_of_false ?_ fun hall => hshort (hall worst hworst), fun failure => ?_⟩
    · rw [herror]
      exact nofun
    · rw [herror, Except.error.injEq]
      constructor
      · rintro rfl
        exact ⟨worst, hworst, hshort, hbehind, rfl⟩
      · rintro ⟨one, hone, hnot, hfirst, rfl⟩
        rw [(hbehind one hone hnot).antisymm (hfirst worst hworst hshort)]

end Stack

end Bliti.Network
