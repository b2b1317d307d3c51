import Bliti.Network.Select.Attempts
import Bliti.Network.Select.Repeated

/-!
# Selection - reports of attempts

An attempt is one candidate brought up on one interface.  Verification reports back against
it, perhaps long after the selector has turned to something else, so a report counts only
for an attempt still held, and no attempt is handed out twice.

Main results:

- Theorem `selecting_attempts`: attempts are handed out once and in order, a stale report is
  nothing, stages are passed one at a time, and an attempt lasts as long as its link.
-/

namespace Bliti.Network.Select

open Std (ExtTreeMap ExtTreeSet)
open Channel.Config

variable {φ : Type}

/-! ## Stages -/

/-- The stages a candidate passes before it is established, in order. -/
def stages (wireless : Bool) : List Stage :=
  if wireless then [.association, .addressing, .gateway] else [.addressing, .gateway]

/-- A candidate starts at the first of its stages. -/
theorem Stage.next_carrier (wireless : Bool) :
    Stage.carrier.next wireless = (stages wireless)[0]? := by
  cases wireless <;> rfl

/-- A stage passed leads to the one after it. -/
theorem Stage.next_of_getElem? {wireless : Bool} {n : Nat} {stage : Stage}
    (hstage : (stages wireless)[n]? = some stage) :
    stage.next wireless = (stages wireless)[n + 1]? := by
  cases wireless with
  | true =>
      match n, hstage with
      | 0, rfl => rfl
      | 1, rfl => rfl
      | 2, rfl => rfl
  | false =>
      match n, hstage with
      | 0, rfl => rfl
      | 1, rfl => rfl

namespace Selector

/-! ## What one input makes of an attempt -/

/-- Where a candidate goes in the ordering with an input: a document moves it to the
candidate equal to it, if there is one. -/
def carried [BEq φ] (s : Selector φ) : Input φ → Nat → Option Nat
  | .handle _, rank => some rank
  | .configure document, rank =>
      if document == s.document then some rank
      else (moved document.attachments s.document.attachments
        (List.replicate document.attachments.length false))[rank]?.join

/-- The stage an attempt held waits to pass after an input: the next one where the input
reports the one it waits for passed. -/
def stageAfter (s : Selector φ) (input : Input φ) (h : Held) : Option Stage :=
  match input with
  | .handle (.passed attempt stage) =>
      if attempt = h.link.attempt ∧ h.atStage = some stage then
        stage.next (isWirelessAt s.document h.link.candidate)
      else h.atStage
  | _ => h.atStage

/-- An attempt held, as an input leaves it before selecting again. -/
def carry [BEq φ] (s : Selector φ) (input : Input φ) (h : Held) : Option Held :=
  (s.carried input h.link.candidate).map fun candidate =>
    { link := { candidate := candidate, attempt := h.link.attempt }
      atStage := s.stageAfter input h }

/-- An attempt found is the one sought. -/
theorem attempt_of_holding {s : Selector φ} {attempt : Attempt} {interface : String}
    {h : Held} (hholding : s.holding attempt = some (interface, h)) :
    h.link.attempt = attempt := by
  simpa using List.find?_some hholding

/-- A report of a stage no attempt held waits for is nothing. -/
theorem passed_eq_self {s : Selector φ} {attempt : Attempt} {stage : Stage}
    (hnone : ∀ (interface : String) (h : Held), s.held[interface]? = some h →
      ¬ (attempt = h.link.attempt ∧ h.atStage = some stage)) :
    s.passed attempt stage = s := by
  unfold passed
  rcases hfound : s.holding attempt with _ | ⟨interface, h⟩
  · rfl
  · dsimp only
    rw [if_neg]
    intro hstage
    exact hnone interface h (held_of_holding hfound) ⟨(attempt_of_holding hfound).symm, hstage⟩

/-- A report of a stage passed moves on the attempt it names, where that is held and waits
for the stage. -/
theorem passed_held {s : Selector φ} (hattempting : s.Attempting) (attempt : Attempt)
    (stage : Stage) (interface : String) :
    (s.passed attempt stage).held[interface]? = s.held[interface]?.map fun h =>
      { h with atStage := s.stageAfter (.handle (φ := φ) (.passed attempt stage)) h } := by
  by_cases hwaits : ∃ (i : String) (h : Held), s.held[i]? = some h ∧
      attempt = h.link.attempt ∧ h.atStage = some stage
  · obtain ⟨i, h, hheld, rfl, hstage⟩ := hwaits
    have hpassed : (s.passed h.link.attempt stage).held = _ :=
      observe_passed hattempting hheld hstage
    rw [hpassed, OrderedMap.getElem?_insert_ite]
    by_cases hsame : i = interface
    · rw [if_pos hsame, ← hsame, hheld]
      simp [stageAfter, hstage]
    · rw [if_neg hsame]
      rcases hother : s.held[interface]? with _ | h'
      · rfl
      · have hne : h.link.attempt ≠ h'.link.attempt := fun heq =>
          hsame (hattempting.distinct i interface h h' hheld hother heq)
        simp [stageAfter, hne]
  · have hnone : ∀ (i : String) (h : Held), s.held[i]? = some h →
        ¬ (attempt = h.link.attempt ∧ h.atStage = some stage) := fun i h hheld hboth =>
      hwaits ⟨i, h, hheld, hboth⟩
    rw [passed_eq_self hnone]
    rcases hheld : s.held[interface]? with _ | h
    · rfl
    · simp only [stageAfter, if_neg (hnone interface h hheld), Option.map_some]

/-- What an observation makes of what an interface holds. -/
theorem observe_carry [BEq φ] {s : Selector φ} (hattempting : s.Attempting) (event : Event)
    (interface : String) :
    (s.observe event).held[interface]? =
      s.held[interface]?.bind (s.carry (.handle event)) := by
  by_cases hpassed : ∃ attempt stage, event = .passed attempt stage
  · obtain ⟨attempt, stage, rfl⟩ := hpassed
    simp only [observe, passed_held hattempting, Option.map_eq_bind]
    rfl
  · have hevent : ∀ attempt stage, event ≠ .passed attempt stage := fun attempt stage heq =>
      hpassed ⟨attempt, stage, heq⟩
    have hstays : s.carry (.handle event) = some := by
      funext h
      cases event with
      | passed attempt stage => exact absurd rfl (hevent attempt stage)
      | carrier | inRange | outOfRange | failed | stationChannel | retry => rfl
    rw [s.observe_held hevent, hstays, Option.bind_fun_some]

/-- Every input leaves the selector as it is, or has it select again from the attempts it
carries over. -/
theorem feed_carry [BEq φ] {s s' : Selector φ} {input : Input φ} {changes : List Change}
    (hattempting : s.Attempting) (hfeed : s.feed input = .ok (s', changes)) :
    (s' = s ∧ ∀ h, s.carry input h = some h) ∨
    ∃ t : Selector φ, t.settle.1 = s' ∧ t.nextAttempt = s.nextAttempt ∧
      ∀ interface : String, t.held[interface]? = s.held[interface]?.bind (s.carry input) := by
  cases input with
  | handle event =>
      simp only [Selector.feed, Except.ok.injEq] at hfeed
      exact .inr ⟨s.observe event, congrArg Prod.fst hfeed, (s.observe_links event).2,
        observe_carry hattempting event⟩
  | configure document =>
      simp only [Selector.feed, configure] at hfeed
      obtain ⟨-, -, hrest⟩ := Fallible.bind_ok.mp hfeed
      split at hrest
      · rename_i hsame
        left
        refine ⟨(congrArg Prod.fst (Fallible.pure_ok.mp hrest)).symm, fun h => ?_⟩
        simp only [carry, carried, if_pos hsame, stageAfter]
        rfl
      · rename_i hother
        right
        refine ⟨_, congrArg Prod.fst (Fallible.pure_ok.mp hrest), rfl, fun interface => ?_⟩
        have hcarry : s.carry (.configure document) = fun h =>
            (moved document.attachments s.document.attachments
              (List.replicate document.attachments.length false))[h.link.candidate]?.join.map
              fun candidate => { h with link := { h.link with candidate := candidate } } := by
          funext h
          simp only [carry, carried, if_neg hother]
          rfl
        rw [ExtTreeMap.getElem?_filterMap', hcarry]

/-! ## Attempts handed out -/

/-- What an interface comes to hold: what it held, or an attempt new to the selector, at the
first stage of a candidate it did not hold. -/
def KeptOrNew (t : Selector φ) (interface : String) (h : Held) : Prop :=
  t.held[interface]? = some h ∨
    (t.nextAttempt < h.link.attempt.id ∧
      h.atStage = (stages (isWirelessAt t.document h.link.candidate))[0]? ∧
      ∀ old, t.held[interface]? = some old → old.link.candidate ≠ h.link.candidate)

/-- The attempts held on interfaces, in order. -/
def attemptsOn (held : ExtTreeMap String Held) (interfaces : List String) : List Nat :=
  (interfaces.filterMap fun interface => held[interface]?).map (·.link.attempt.id)

/-- The interfaces held, as candidates are placed on them one by one. -/
structure Handing (t : Selector φ) (taken : List (String × Nat))
    (acc : ExtTreeMap String Held × Nat) : Prop where
  grows : t.nextAttempt ≤ acc.2
  kept : ∀ (interface : String) (h : Held), acc.1[interface]? = some h →
    t.KeptOrNew interface h
  handed : (attemptsOn acc.1 (taken.map Prod.fst)).filter (t.nextAttempt < ·) =
    List.range' (t.nextAttempt + 1) (acc.2 - t.nextAttempt)

/-- Holding one more candidate. -/
theorem Handing.holdOne {t : Selector φ} (hattempting : t.Attempting)
    {taken : List (String × Nat)} {acc : ExtTreeMap String Held × Nat}
    (hhanding : t.Handing taken acc) {interface : String} {candidate : Nat}
    (hnew : ∀ entry ∈ taken, entry.1 ≠ interface) :
    t.Handing (taken ++ [(interface, candidate)]) (t.holdOne acc (interface, candidate)) := by
  obtain ⟨h, hmap, hheld⟩ := t.holdOne_cases acc interface candidate
  have hgrows := hhanding.grows
  have hattempts : attemptsOn (t.holdOne acc (interface, candidate)).1
      ((taken ++ [(interface, candidate)]).map Prod.fst) =
      attemptsOn acc.1 (taken.map Prod.fst) ++ [h.link.attempt.id] := by
    unfold attemptsOn
    have hbefore : ∀ i ∈ taken.map Prod.fst, (acc.1.insert interface h)[i]? = acc.1[i]? := by
      intro i hi
      obtain ⟨entry, hentry, rfl⟩ := List.mem_map.mp hi
      exact OrderedMap.getElem?_insert_of_ne (Ne.symm (hnew entry hentry))
    rw [hmap, List.map_append, List.filterMap_append, List.filterMap_congr hbefore]
    simp
  constructor
  · rcases hheld with ⟨-, hnext⟩ | ⟨-, -, -, hnext⟩ <;> omega
  · intro i h' hi
    rw [hmap, OrderedMap.getElem?_insert_ite] at hi
    split at hi
    · rename_i hsame
      obtain rfl := Option.some.inj hi
      subst hsame
      rcases hheld with ⟨hkept, -⟩ | ⟨hid, hstage, hother, -⟩
      · exact .inl hkept
      · exact .inr ⟨by omega, hstage.trans (Stage.next_carrier _), hother⟩
    · exact hhanding.kept i h' hi
  · rw [hattempts, List.filter_append, hhanding.handed]
    rcases hheld with ⟨hkept, hnext⟩ | ⟨hid, -, -, hnext⟩
    · have hle := hattempting.handed interface h hkept
      rw [hnext]
      simp [Nat.not_lt.mpr hle]
    · have hlt : t.nextAttempt < h.link.attempt.id := by omega
      have hlast : h.link.attempt.id = t.nextAttempt + 1 + 1 * (acc.2 - t.nextAttempt) := by
        omega
      have hcount : acc.2 + 1 - t.nextAttempt = acc.2 - t.nextAttempt + 1 := by omega
      rw [hnext, hcount, List.range'_concat, ← hlast]
      simp [hlt]

/-- What the interfaces hold once all candidates are placed. -/
theorem hold_handing {t : Selector φ} (hattempting : t.Attempting)
    (links : ExtTreeMap String Nat) : t.Handing links.toList (t.hold links) := by
  apply OrderedMap.foldl_invariant_of_toList links t.holdOne t.Handing
  · constructor
    · exact Nat.le_refl _
    · intro i h hi
      simp at hi
    · simp [attemptsOn]
  · intro taken interface candidate acc _ hnew hhanding
    exact hhanding.holdOne hattempting fun entry hentry => (hnew entry hentry).2

/-- The attempts held on all interfaces, in order. -/
def attempts (s : Selector φ) : List Nat :=
  s.held.values.map (·.link.attempt.id)

/-- An attempt is listed where it is held. -/
theorem mem_attempts {s : Selector φ} {id : Nat} :
    id ∈ s.attempts ↔
      ∃ (interface : String) (h : Held), s.held[interface]? = some h ∧
        h.link.attempt.id = id := by
  simp only [attempts, List.mem_map, OrderedMap.mem_values_iff]
  constructor
  · rintro ⟨h, ⟨interface, hheld⟩, hid⟩
    exact ⟨interface, h, hheld, hid⟩
  · rintro ⟨interface, h, hheld, hid⟩
    exact ⟨h, ⟨interface, hheld⟩, hid⟩

/-- Selecting again hands out the attempts after the last one, in order. -/
theorem settle_handed {t : Selector φ} (hattempting : t.Attempting) :
    t.nextAttempt ≤ t.settle.1.nextAttempt ∧
      (∀ (interface : String) (h : Held), t.settle.1.held[interface]? = some h →
        t.KeptOrNew interface h) ∧
      t.settle.1.attempts.filter (t.nextAttempt < ·) =
        List.range' (t.nextAttempt + 1) (t.settle.1.nextAttempt - t.nextAttempt) := by
  have hhanding := hold_handing hattempting t.place.links
  have hkeys : t.settle.1.held.keys = t.place.links.keys :=
    OrderedMap.keys_eq_of_mem_iff t.mem_settle_held
  have hlisted : t.settle.1.attempts =
      attemptsOn t.settle.1.held (t.place.links.toList.map Prod.fst) := by
    rw [attempts, attemptsOn, OrderedMap.values_eq_filterMap_keys, hkeys,
      ExtTreeMap.map_fst_toList_eq_keys]
  refine ⟨hhanding.grows, hhanding.kept, ?_⟩
  rw [hlisted]
  exact hhanding.handed

/-! ## What one input makes of every attempt -/

/-- The attempts an input handed out: those held after it and not before. -/
def handedOut (s s' : Selector φ) : List Nat :=
  s'.attempts.filter fun id => id ∉ s.attempts

/-- What one input makes of the attempts held: each interface holds one carried over, or
one handed out for a candidate not carried over to it. -/
structure Carries [BEq φ] (s : Selector φ) (input : Input φ) (s' : Selector φ) : Prop where
  grows : s.nextAttempt ≤ s'.nextAttempt
  handed : handedOut s s' =
    List.range' (s.nextAttempt + 1) (s'.nextAttempt - s.nextAttempt)
  held : ∀ (interface : String) (h' : Held), s'.held[interface]? = some h' →
    (∃ h, s.held[interface]? = some h ∧ s.carry input h = some h') ∨
    (s.nextAttempt < h'.link.attempt.id ∧
      h'.atStage = (stages (isWirelessAt s'.document h'.link.candidate))[0]? ∧
      ∀ h, s.held[interface]? = some h →
        s.carried input h.link.candidate ≠ some h'.link.candidate)

/-- An attempt carried over is the one it was. -/
theorem carry_eq_some [BEq φ] {s : Selector φ} {input : Input φ} {h h' : Held}
    (hcarry : s.carry input h = some h') :
    s.carried input h.link.candidate = some h'.link.candidate ∧
      h'.link.attempt = h.link.attempt ∧ h'.atStage = s.stageAfter input h := by
  obtain ⟨candidate, hcarried, rfl⟩ := Option.map_eq_some_iff.mp hcarry
  exact ⟨hcarried, rfl, rfl⟩

/-- What is held once attempts are carried over was carried over. -/
theorem held_of_carry [BEq φ] {s t : Selector φ} {input : Input φ}
    (hcarry : ∀ interface : String,
      t.held[interface]? = s.held[interface]?.bind (s.carry input))
    {i : String} {h : Held} (hheld : t.held[i]? = some h) :
    ∃ old, s.held[i]? = some old ∧ s.carry input old = some h := by
  rw [hcarry] at hheld
  exact Option.bind_eq_some_iff.mp hheld

/-- Attempts carried over stay on one interface each. -/
theorem carry_attempting [BEq φ] {s t : Selector φ} {input : Input φ}
    (hattempting : s.Attempting) (hnext : t.nextAttempt = s.nextAttempt)
    (hcarry : ∀ interface : String,
      t.held[interface]? = s.held[interface]?.bind (s.carry input)) : t.Attempting := by
  constructor
  · intro i j h h' hi hj hsame
    obtain ⟨old, hold, hfrom⟩ := held_of_carry hcarry hi
    obtain ⟨old', hold', hfrom'⟩ := held_of_carry hcarry hj
    apply hattempting.distinct i j old old' hold hold'
    rw [← (carry_eq_some hfrom).2.1, ← (carry_eq_some hfrom').2.1, hsame]
  · intro i h hi
    obtain ⟨old, hold, hfrom⟩ := held_of_carry hcarry hi
    rw [hnext, (carry_eq_some hfrom).2.1]
    exact hattempting.handed i old hold

/-- Every input leaves each attempt on one interface. -/
theorem feed_attempting [BEq φ] {s s' : Selector φ} {input : Input φ}
    {changes : List Change} (hattempting : s.Attempting)
    (hfeed : s.feed input = .ok (s', changes)) : s'.Attempting := by
  rcases feed_carry hattempting hfeed with ⟨rfl, -⟩ | ⟨t, rfl, hnext, hcarry⟩
  · exact hattempting
  · exact settle_attempting (carry_attempting hattempting hnext hcarry)

/-- Every input a selector takes carries its attempts over. -/
theorem Carries.feed [BEq φ] {s s' : Selector φ} {input : Input φ} {changes : List Change}
    (hattempting : s.Attempting) (hfeed : s.feed input = .ok (s', changes)) :
    Carries s input s' := by
  rcases feed_carry hattempting hfeed with ⟨rfl, hsame⟩ | ⟨t, rfl, hnext, hcarry⟩
  · refine ⟨Nat.le_refl _, ?_, fun interface h hheld => .inl ⟨h, hheld, hsame h⟩⟩
    simp [handedOut]
  · have hbefore := carry_attempting hattempting hnext hcarry
    obtain ⟨hgrows, hkept, hhanded⟩ := settle_handed hbefore
    rw [hnext] at hgrows hhanded
    refine ⟨hgrows, ?_, ?_⟩
    · rw [← hhanded, handedOut]
      refine List.filter_congr fun id hid => decide_eq_decide.mpr ?_
      obtain ⟨i, h, hheld, rfl⟩ := mem_attempts.mp hid
      rcases hkept i h hheld with hstays | ⟨hlt, -⟩
      · obtain ⟨old, hold, hfrom⟩ := held_of_carry hcarry hstays
        have hattempt := (carry_eq_some hfrom).2.1
        have hle := hattempting.handed i old hold
        rw [hattempt]
        exact iff_of_false (fun hnot => hnot (mem_attempts.mpr ⟨i, old, hold, rfl⟩))
          (Nat.not_lt.mpr hle)
      · rw [hnext] at hlt
        refine iff_of_true (fun hmem => ?_) hlt
        obtain ⟨j, old, hold, hsame⟩ := mem_attempts.mp hmem
        have hle := hattempting.handed j old hold
        omega
    · intro i h hheld
      rcases hkept i h hheld with hstays | ⟨hlt, hstage, hother⟩
      · exact .inl (held_of_carry hcarry hstays)
      · rw [hnext] at hlt
        refine .inr ⟨hlt, hstage, fun old hold hsame => ?_⟩
        have hstays : t.held[i]? = some
            { link := { candidate := h.link.candidate, attempt := old.link.attempt }
              atStage := s.stageAfter input old } := by
          rw [hcarry, hold, Option.bind_some, carry, hsame]
          rfl
        exact hother _ hstays rfl

/-! ## Where a candidate goes -/

/-- A candidate a document moves equals the one it is moved to. -/
theorem moved_equal [BEq φ] {new olds : List (Attachment φ)} {taken : List Bool}
    {rank rank' : Nat} (hmoved : (moved new olds taken)[rank]?.join = some rank') :
    ∃ old attachment, olds[rank]? = some old ∧ new[rank']? = some attachment ∧
      (attachment == old) = true := by
  induction olds generalizing taken rank with
  | nil => simp [moved] at hmoved
  | cons old rest ih =>
      unfold moved at hmoved
      split at hmoved
      · rename_i i hfound
        cases rank with
        | zero =>
            have hequal := List.find?_some hfound
            simp only [List.getElem?_cons_zero, Option.join_some, Option.some.injEq] at hmoved
            subst hmoved
            obtain ⟨attachment, hat, hsame⟩ :=
              (Option.any_eq_true _ _).mp (Bool.and_eq_true_iff.mp hequal).2
            exact ⟨old, attachment, rfl, hat, hsame⟩
        | succ rank => exact ih hmoved
      · cases rank with
        | zero => simp at hmoved
        | succ rank => exact ih hmoved

/-- Equal candidates are of equal kinds. -/
theorem kind_of_beq [BEq φ] {a b : Attachment φ} (hequal : (a == b) = true) :
    (a.kind == b.kind) = true := by
  have hparts : (a.label == b.label && (a.enabled == b.enabled && (a.verify == b.verify &&
      (a.nameservers == b.nameservers && a.kind == b.kind)))) = true := by
    cases a
    cases b
    exact hequal
  simp only [Bool.and_eq_true] at hparts
  exact hparts.2.2.2.2

/-- Equal candidates are both wireless, or neither is. -/
theorem isWireless_of_beq [BEq φ] {a b : Attachment φ} (hequal : (a == b) = true) :
    isWireless a = isWireless b := by
  have hkind := kind_of_beq hequal
  unfold isWireless
  cases hk : a.kind <;> cases hk' : b.kind <;> rw [hk, hk'] at hkind <;>
    first | rfl | cases hkind

/-- A candidate carried over is a wireless one where it was. -/
theorem isWirelessAt_carried [BEq φ] {s s' : Selector φ} {input : Input φ}
    {changes : List Change} (hfeed : s.feed input = .ok (s', changes)) {rank rank' : Nat}
    (hcarried : s.carried input rank = some rank') :
    isWirelessAt s'.document rank' = isWirelessAt s.document rank := by
  cases input with
  | handle event =>
      simp only [Selector.feed, Except.ok.injEq] at hfeed
      have hafter : (s.handle event).1 = s' := congrArg Prod.fst hfeed
      rw [← hafter, s.handle_document, Option.some.inj hcarried]
  | configure document =>
      simp only [Selector.feed, configure] at hfeed
      obtain ⟨-, -, hrest⟩ := Fallible.bind_ok.mp hfeed
      unfold carried at hcarried
      split at hrest
      · rename_i hsame
        have hafter : s = s' := congrArg Prod.fst (Fallible.pure_ok.mp hrest)
        simp only [if_pos hsame, Option.some.injEq] at hcarried
        rw [← hafter, hcarried]
      · rename_i hother
        have hafter : _ = s' := congrArg Prod.fst (Fallible.pure_ok.mp hrest)
        have hdocument : s'.document = document := by
          rw [← hafter]
          exact (settle_keeps _).2.1
        simp only [if_neg hother] at hcarried
        obtain ⟨old, attachment, hold, hat, hequal⟩ := moved_equal hcarried
        simp only [isWirelessAt, hdocument, hold, hat, Option.any_some,
          isWireless_of_beq hequal]

/-! ## Stages in order -/

/-- Every attempt held waits for one of its candidate's stages, or for none. -/
def Staged (s : Selector φ) : Prop :=
  ∀ (interface : String) (h : Held) (stage : Stage), s.held[interface]? = some h →
    h.atStage = some stage → stage ∈ stages (isWirelessAt s.document h.link.candidate)

/-- An attempt stays on the stages of its candidate. -/
theorem stageAfter_mem {s : Selector φ} {input : Input φ} {h : Held} {stage : Stage}
    (hbefore : ∀ stage, h.atStage = some stage →
      stage ∈ stages (isWirelessAt s.document h.link.candidate))
    (hstage : s.stageAfter input h = some stage) :
    stage ∈ stages (isWirelessAt s.document h.link.candidate) := by
  unfold stageAfter at hstage
  split at hstage
  · split at hstage
    · rename_i hpassed
      obtain ⟨n, hn⟩ := List.mem_iff_getElem?.mp (hbefore _ hpassed.2)
      rw [Stage.next_of_getElem? hn] at hstage
      exact List.mem_of_getElem? hstage
    · exact hbefore stage hstage
  · exact hbefore stage hstage

/-- A new selector has selected from nothing held. -/
theorem new_settle {hardware : Hardware} {document : Document φ} {s : Selector φ}
    (hnew : Selector.new hardware document = .ok s) :
    ∃ t : Selector φ, t.settle.1 = s ∧ t.Attempting ∧ t.nextAttempt = 0 ∧
      ∀ interface : String, t.held[interface]? = none := by
  unfold Selector.new at hnew
  obtain ⟨_, -, hrest⟩ := Fallible.bind_ok.mp hnew
  refine ⟨_, Fallible.pure_ok.mp hrest, ⟨?_, ?_⟩, rfl, fun interface => by simp⟩
  · intro i j h h' hi
    simp at hi
  · intro i h hi
    simp at hi

/-- Every input keeps each attempt on the stages of its candidate. -/
theorem Carries.staged [BEq φ] {s s' : Selector φ} {input : Input φ} {changes : List Change}
    (hcarries : Carries s input s') (hfeed : s.feed input = .ok (s', changes))
    (hstaged : s.Staged) : s'.Staged := by
  intro i h' stage hheld' hstage
  rcases hcarries.held i h' hheld' with ⟨h, hheld, hcarry⟩ | ⟨-, hfirst, -⟩
  · obtain ⟨hcarried, -, hafter⟩ := carry_eq_some hcarry
    rw [isWirelessAt_carried hfeed hcarried]
    rw [hafter] at hstage
    exact stageAfter_mem (fun stage => hstaged i h stage hheld) hstage
  · rw [hfirst] at hstage
    exact List.mem_of_getElem? hstage

/-- An attempt held before an input and after it stays on its interface. -/
theorem Carries.same [BEq φ] {s s' : Selector φ} {input : Input φ}
    (hcarries : Carries s input s') (hattempting : s.Attempting) {i j : String}
    {h h' : Held} (hheld : s.held[i]? = some h) (hheld' : s'.held[j]? = some h')
    (hsame : h'.link.attempt = h.link.attempt) :
    i = j ∧ s.carried input h.link.candidate = some h'.link.candidate ∧
      h'.atStage = s.stageAfter input h := by
  rcases hcarries.held j h' hheld' with ⟨old, hold, hcarry⟩ | ⟨hlt, -⟩
  · obtain ⟨hcarried, hattempt, hstage⟩ := carry_eq_some hcarry
    obtain rfl := hattempting.distinct i j h old hheld hold (hsame.symm.trans hattempt)
    obtain rfl := Option.some.inj (hheld.symm.trans hold)
    exact ⟨rfl, hcarried, hstage⟩
  · have hle := hattempting.handed i h hheld
    rw [hsame] at hlt
    omega

/-- What an input makes of the stages attempts wait for: one handed out waits for the first
of its candidate's, and one held moves to the next with a report of exactly the stage it
waits for, and otherwise not at all. -/
structure Advances (s : Selector φ) (input : Input φ) (s' : Selector φ) : Prop where
  first : ∀ (j : String) (h' : Held), s'.held[j]? = some h' →
    (∀ (i : String) (h : Held), s.held[i]? = some h → h.link.attempt ≠ h'.link.attempt) →
    h'.atStage = (stages (isWirelessAt s'.document h'.link.candidate))[0]?
  next : ∀ (i j : String) (h h' : Held) (n : Nat) (stage : Stage), s.held[i]? = some h →
    s'.held[j]? = some h' → h'.link.attempt = h.link.attempt → h.atStage = some stage →
    (stages (isWirelessAt s.document h.link.candidate))[n]? = some stage →
    input = .handle (.passed h.link.attempt stage) →
    h'.atStage = (stages (isWirelessAt s.document h.link.candidate))[n + 1]?
  stays : ∀ (i j : String) (h h' : Held), s.held[i]? = some h → s'.held[j]? = some h' →
    h'.link.attempt = h.link.attempt →
    (∀ stage, h.atStage = some stage → input ≠ .handle (.passed h.link.attempt stage)) →
    h'.atStage = h.atStage

/-- Every input advances attempts so. -/
theorem Carries.advances [BEq φ] {s s' : Selector φ} {input : Input φ}
    (hcarries : Carries s input s') (hattempting : s.Attempting) :
    s.Advances input s' := by
  constructor
  · intro j h' hheld' hnew
    rcases hcarries.held j h' hheld' with ⟨h, hheld, hcarry⟩ | ⟨-, hfirst, -⟩
    · exact absurd (carry_eq_some hcarry).2.1.symm (hnew j h hheld)
    · exact hfirst
  · rintro i j h h' n stage hheld hheld' hsame hstage hn rfl
    obtain ⟨-, -, hafter⟩ := hcarries.same hattempting hheld hheld' hsame
    rw [hafter, ← Stage.next_of_getElem? hn]
    simp only [stageAfter, hstage, and_self, if_true]
  · intro i j h h' hheld hheld' hsame hother
    obtain ⟨-, -, hafter⟩ := hcarries.same hattempting hheld hheld' hsame
    rw [hafter]
    unfold stageAfter
    split
    · rw [if_neg]
      rintro ⟨rfl, hstage⟩
      exact hother _ hstage rfl
    · rfl

/-! ## Stale reports -/

/-- A report of an attempt not held is taken in as nothing. -/
theorem observe_unheld {s : Selector φ} {attempt : Attempt}
    (hunheld : ∀ (interface : String) (h : Held), s.held[interface]? = some h →
      h.link.attempt ≠ attempt) (stage : Stage) (member : List Segment) (reason : String) :
    s.observe (.passed attempt stage) = s ∧
      s.observe (.failed attempt stage member reason) = s := by
  constructor
  · exact passed_eq_self fun i h hheld hboth => hunheld i h hheld hboth.1.symm
  · simp only [observe, failedEvent]
    split
    · rename_i interface h hfound
      exact absurd (attempt_of_holding hfound) (hunheld interface h (held_of_holding hfound))
    · rfl

end Selector

/-! ## Runs -/

/-- Each attempt is held on one interface, waiting for one of its candidate's stages or for
none. -/
structure Selector.Attended (s : Selector φ) : Prop where
  attempting : s.Attempting
  staged : s.Staged

/-- A reachable selector holds its attempts so. -/
theorem selecting_attended [BEq φ] {hardware : Hardware} {s : Selector φ}
    (hreach : (selecting φ hardware).Reachable s) : s.Attended := by
  refine hreach.invariant (fun s hstart => ?_) (fun s input s' _ hinv hstep => ?_)
  · obtain ⟨document, hnew⟩ := hstart
    obtain ⟨t, rfl, hattempting, -, hnone⟩ := Selector.new_settle hnew
    refine ⟨Selector.settle_attempting hattempting, fun i h stage hheld hstage => ?_⟩
    rcases (Selector.settle_handed hattempting).2.1 i h hheld with hkept | ⟨-, hfirst, -⟩
    · rw [hnone] at hkept
      cases hkept
    · rw [hfirst] at hstage
      exact List.mem_of_getElem? hstage
  · obtain ⟨changes, hfeed⟩ := hstep
    have hcarries := Selector.Carries.feed hinv.attempting hfeed
    exact ⟨Selector.feed_attempting hinv.attempting hfeed, hcarries.staged hfeed hinv.staged⟩

/-- A selector fed events and documents, beside the attempts it has handed out. -/
def logging (φ : Type) [BEq φ] (hardware : Hardware) :
    Transition.System (Selector φ × List Nat) (Input φ) where
  init p := (selecting φ hardware).init p.1 ∧ p.2 = p.1.attempts
  step p input p' := (selecting φ hardware).step p.1 input p'.1 ∧
    p'.2 = p.2 ++ Selector.handedOut p.1 p'.1

/-- Attempts are handed out one after the other, and those held are among them. -/
theorem logging_handed [BEq φ] {hardware : Hardware} {p : Selector φ × List Nat}
    (hreach : (logging φ hardware).Reachable p) :
    (selecting φ hardware).Reachable p.1 ∧ p.2 = List.range' 1 p.1.nextAttempt ∧
      ∀ id ∈ p.1.attempts, id ∈ p.2 := by
  induction hreach with
  | @start p hstart =>
      refine ⟨.start hstart.1, ?_⟩
      obtain ⟨⟨document, hnew⟩, hlog⟩ := hstart
      obtain ⟨t, hsettle, hattempting, hnext, hnone⟩ := Selector.new_settle hnew
      obtain ⟨-, hkept, hhanded⟩ := Selector.settle_handed hattempting
      rw [hsettle] at hkept hhanded
      have hall : p.1.attempts.filter (t.nextAttempt < ·) = p.1.attempts := by
        refine List.filter_eq_self.mpr fun id hid => decide_eq_true ?_
        obtain ⟨i, h, hheld, rfl⟩ := Selector.mem_attempts.mp hid
        rcases hkept i h hheld with hstays | ⟨hlt, -⟩
        · rw [hnone] at hstays
          cases hstays
        · exact hlt
      refine ⟨?_, fun id hid => hlog ▸ hid⟩
      rw [hlog, ← hall, hhanded, hnext, Nat.sub_zero]
  | @next p p' input _ hstep ih =>
      obtain ⟨⟨changes, hfeed⟩, hlog⟩ := hstep
      obtain ⟨hreach, hbefore, hheld⟩ := ih
      have hcarries := Selector.Carries.feed (selecting_attended hreach).attempting hfeed
      have hgrows := hcarries.grows
      refine ⟨.next hreach ⟨changes, hfeed⟩, ?_, fun id hid => ?_⟩
      · rw [hlog, hbefore, hcarries.handed, Nat.add_comm _ 1, List.range'_append_1]
        congr 1
        omega
      · rw [hlog, List.mem_append]
        by_cases hin : id ∈ p.1.attempts
        · exact .inl (hheld id hin)
        · exact .inr (List.mem_filter.mpr ⟨hid, decide_eq_true hin⟩)

/-- A selector fed events and documents, beside the rank of one candidate for as long as it
stays linked on one interface. -/
def tracking [BEq φ] (s : Selector φ) (interface : String) (rank : Nat) :
    Transition.System (Selector φ × Option Nat) (Input φ) where
  init p := p = (s, some rank)
  step p input p' := (∃ changes, p.1.feed input = .ok (p'.1, changes)) ∧
    p'.2 = (p.2.bind (p.1.carried input)).filter fun rank =>
      p'.1.decision.links[interface]?.any fun link => link.candidate == rank

/-- Where one candidate has stayed linked on one interface, its attempt is the one it was;
where it has not, that attempt is held no more. -/
structure Tracked (interface : String) (attempt : Attempt) (p : Selector φ × Option Nat) :
    Prop where
  handed : attempt.id ≤ p.1.nextAttempt
  linked : ∀ rank, p.2 = some rank →
    ∃ h, p.1.held[interface]? = some h ∧ h.link.candidate = rank
  same : ∀ (i : String) (h : Held), p.1.held[i]? = some h →
    (h.link.attempt = attempt ↔ i = interface ∧ p.2 = some h.link.candidate)

/-- Every input keeps track. -/
theorem Tracked.step [BEq φ] {hardware : Hardware} {s : Selector φ} {interface : String}
    {rank : Nat} {attempt : Attempt} {p p' : Selector φ × Option Nat} {input : Input φ}
    (hreach : (selecting φ hardware).Reachable p.1)
    (htracked : Tracked interface attempt p)
    (hstep : (tracking s interface rank).step p input p') :
    Tracked interface attempt p' := by
  obtain ⟨⟨changes, hfeed⟩, htrack⟩ := hstep
  have hattempting := (selecting_attended hreach).attempting
  have hcarries := Selector.Carries.feed hattempting hfeed
  have hafter : (selecting φ hardware).Reachable p'.1 := .next hreach ⟨changes, hfeed⟩
  have hlinks := (selecting_settled hardware _ hafter).links_eq
  have htrack' : ∀ rank, p'.2 = some rank ↔ (∃ before, p.2 = some before ∧
      p.1.carried input before = some rank) ∧
      ∃ h, p'.1.held[interface]? = some h ∧ h.link.candidate = rank := by
    intro rank
    rw [htrack, Option.filter_eq_some_iff, Option.bind_eq_some_iff, hlinks]
    refine and_congr_right fun _ => ?_
    rcases p'.1.held[interface]? with _ | h <;> simp
  refine ⟨htracked.handed.trans hcarries.grows, fun rank hrank => ((htrack' rank).mp hrank).2,
    ?_⟩
  intro i h' hheld'
  rcases hcarries.held i h' hheld' with ⟨h, hheld, hcarry⟩ | ⟨hlt, -, hother⟩
  · obtain ⟨hcarried, hattempt, -⟩ := Selector.carry_eq_some hcarry
    rw [hattempt, htracked.same i h hheld, htrack']
    constructor
    · rintro ⟨rfl, hbefore⟩
      exact ⟨rfl, ⟨_, hbefore, hcarried⟩, h', hheld', rfl⟩
    · rintro ⟨rfl, ⟨before, hbefore, -⟩, -⟩
      obtain ⟨old, hold, rfl⟩ := htracked.linked before hbefore
      obtain rfl := Option.some.inj (hheld.symm.trans hold)
      exact ⟨rfl, hbefore⟩
  · have hle := htracked.handed
    refine iff_of_false (fun hsame => ?_) ?_
    · rw [hsame] at hlt
      omega
    · rintro ⟨rfl, hrank⟩
      obtain ⟨⟨before, hbefore, hcarried⟩, -⟩ := (htrack' _).mp hrank
      obtain ⟨old, hold, rfl⟩ := htracked.linked before hbefore
      exact hother old hold hcarried

/-- A candidate linked on an interface is tracked over every run from there. -/
theorem tracking_tracked [BEq φ] {hardware : Hardware} {s : Selector φ}
    (hreach : (selecting φ hardware).Reachable s) {interface : String} {link : Link}
    (hlink : s.decision.links[interface]? = some link) {p : Selector φ × Option Nat}
    (hrun : (tracking s interface link.candidate).Reachable p) :
    (selecting φ hardware).Reachable p.1 ∧ Tracked interface link.attempt p := by
  induction hrun with
  | start hstart =>
      rw [hstart]
      refine ⟨hreach, ?_⟩
      have hattempting := (selecting_attended hreach).attempting
      rw [(selecting_settled hardware _ hreach).links_eq] at hlink
      obtain ⟨h, hheld, rfl⟩ := Option.map_eq_some_iff.mp hlink
      refine ⟨hattempting.handed interface h hheld, ?_, fun i h' hheld' => ⟨fun hsame => ?_, ?_⟩⟩
      · rintro rank ⟨⟩
        exact ⟨h, hheld, rfl⟩
      · obtain rfl := hattempting.distinct i interface h' h hheld' hheld hsame
        obtain rfl := Option.some.inj (hheld.symm.trans hheld')
        exact ⟨rfl, rfl⟩
      · rintro ⟨rfl, -⟩
        obtain rfl := Option.some.inj (hheld.symm.trans hheld')
        rfl
  | next _ hstep ih =>
      obtain ⟨hbefore, htracked⟩ := ih
      exact ⟨.next hbefore hstep.1, htracked.step hbefore hstep⟩

/-! ## Attempts over whole runs -/

/-- Of any run of a selector: the attempts handed out increase, none twice, and those held
are among them; a report of an attempt not held changes nothing and is answered with nothing;
an attempt held waits for a stage of its candidate's or for none, and advances through them
one report at a time; and a candidate linked on an interface has the attempt it has there
exactly for as long as it stays linked there. -/
theorem selecting_attempts [BEq φ] (hardware : Hardware) :
    (∀ (s : Selector φ) (log : List Nat), (logging φ hardware).Reachable (s, log) →
      log.Pairwise (· < ·) ∧ ∀ (i : String) (h : Held), s.held[i]? = some h →
        h.link.attempt.id ∈ log) ∧
    (∀ s : Selector φ, (selecting φ hardware).Reachable s → ∀ attempt : Attempt,
      (∀ (i : String) (h : Held), s.held[i]? = some h → h.link.attempt ≠ attempt) →
      ∀ (stage : Stage) (member : List Segment) (reason : String),
        s.handle (.passed attempt stage) = (s, []) ∧
        s.handle (.failed attempt stage member reason) = (s, [])) ∧
    (∀ s : Selector φ, (selecting φ hardware).Reachable s → s.Staged ∧
      ∀ (input : Input φ) (s' : Selector φ) (changes : List Change),
        s.feed input = .ok (s', changes) → s.Advances input s') ∧
    ∀ s : Selector φ, (selecting φ hardware).Reachable s →
      ∀ (interface : String) (link : Link), s.decision.links[interface]? = some link →
        ∀ (s' : Selector φ) (tracked : Option Nat),
          (tracking s interface link.candidate).Reachable (s', tracked) →
          ∀ (j : String) (link' : Link), s'.decision.links[j]? = some link' →
            (link'.attempt = link.attempt ↔
              j = interface ∧ tracked = some link'.candidate) := by
  refine ⟨?_, ?_, ?_, ?_⟩
  · intro s log hreach
    obtain ⟨-, hlog, hheld⟩ := logging_handed hreach
    refine ⟨?_, fun i h hi => hheld _ (Selector.mem_attempts.mpr ⟨i, h, hi, rfl⟩)⟩
    dsimp only at hlog
    rw [hlog]
    exact List.pairwise_lt_range'
  · intro s hreach attempt hunheld stage member reason
    obtain ⟨hpassed, hfailed⟩ := Selector.observe_unheld hunheld stage member reason
    have hcurrent := selecting_current hreach
    exact ⟨hcurrent.handle_eq hpassed, hcurrent.handle_eq hfailed⟩
  · intro s hreach
    have hattended := selecting_attended hreach
    refine ⟨hattended.staged, fun input s' changes hfeed => ?_⟩
    exact (Selector.Carries.feed hattended.attempting hfeed).advances hattended.attempting
  · intro s hreach interface link hlink s' tracked hrun j link' hlink'
    obtain ⟨hafter, htracked⟩ := tracking_tracked hreach hlink hrun
    rw [(selecting_settled hardware _ hafter).links_eq] at hlink'
    obtain ⟨h', hheld', rfl⟩ := Option.map_eq_some_iff.mp hlink'
    exact htracked.same j h' hheld'

end Bliti.Network.Select
