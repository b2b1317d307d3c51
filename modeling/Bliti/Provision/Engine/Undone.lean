import Bliti.Provision.Engine
import Bliti.Library.Closure

/-!
# Provisioning - steps undone by steps before them

A step reports what it finds of the board; a step that an earlier one undoes is to be
carried out again where the earlier one is.  `undone` goes down the order once, reading
the done-states it has already rewritten, and comes to the whole closure.

Main results:

- Theorem `undone_closes`: a step is to be carried out where it was found so, or where
  steps lead to it from one that was, each undoing the next; every other keeps what was
  found of it; and reporting steps undone twice is reporting them undone once.
-/

namespace Bliti.Provision.Engine

variable {φ L : Type} {steps : List (Step φ L)} {found : List Done}

/-- Whether the step at a place is found to be carried out. -/
def NotDone (found : List Done) (place : Nat) : Prop :=
  ∃ done, found[place]? = some done ∧ done.state = .notDone

/-- Whether the step at a place is the first with the identifier it has. -/
def Named (steps : List (Step φ L)) (id : String) (place : Nat) : Prop :=
  (∃ step, steps[place]? = some step ∧ step.id = id) ∧
    ∀ before < place, ∀ step, steps[before]? = some step → step.id ≠ id

/-- Whether the step at one place undoes the one at a later place. -/
def Undoes (steps : List (Step φ L)) (undoer place : Nat) : Prop :=
  undoer < place ∧
    ∃ step id, steps[place]? = some step ∧ id ∈ step.undoneBy ∧ Named steps id undoer

/-! ## One step -/

/-- A place of a list is the first with an identifier among those before another exactly where
it is before it, and the first of all. -/
theorem findIdx?_take_eq_some {id : String} {place undoer : Nat} :
    (steps.take place).findIdx? (fun step => step.id = id) = some undoer ↔
      undoer < place ∧ Named steps id undoer := by
  rw [List.findIdx?_eq_some_iff_getElem]
  constructor
  · rintro ⟨hlt, hid, hfirst⟩
    have hbounds : undoer < place ∧ undoer < steps.length := by
      simpa [List.length_take] using hlt
    refine ⟨hbounds.1, ⟨steps[undoer], List.getElem?_eq_getElem hbounds.2, ?_⟩, ?_⟩
    · simpa using hid
    · intro before hbefore step hstep hsame
      obtain ⟨hin, rfl⟩ := List.getElem?_eq_some_iff.mp hstep
      exact absurd hsame (by simpa using hfirst before hbefore)
  · rintro ⟨hplace, ⟨step, hstep, hid⟩, hfirst⟩
    obtain ⟨hin, rfl⟩ := List.getElem?_eq_some_iff.mp hstep
    refine ⟨by simp [hplace, hin], by simpa using hid, ?_⟩
    intro before hbefore
    have hearlier : before < steps.length := by omega
    simpa using hfirst before hbefore _ (List.getElem?_eq_getElem hearlier)

/-- The places of the steps that undo a step, as `undone` looks them up. -/
theorem mem_undoers {place undoer : Nat} {step : Step φ L} (hstep : steps[place]? = some step) :
    undoer ∈ (step.undoneBy.filterMap fun id =>
        (steps.take place).findIdx? fun step => step.id = id) ↔ Undoes steps undoer place := by
  simp only [List.mem_filterMap, findIdx?_take_eq_some]
  constructor
  · rintro ⟨id, hid, hplace, hnamed⟩
    exact ⟨hplace, step, id, hstep, hid, hnamed⟩
  · rintro ⟨hplace, other, id, hother, hid, hnamed⟩
    obtain rfl : step = other := Option.some.inj (hstep.symm.trans hother)
    exact ⟨id, hid, hplace, hnamed⟩

/-- A step that is not found done in a list of them, as `undone` tests it. -/
theorem any_notDone {place : Nat} :
    ((found[place]?).any fun done => done.state = .notDone) = true ↔ NotDone found place := by
  simp [NotDone, Option.any_eq_true]

/-- A step no step before it that is to be carried out undoes keeps what was found of it. -/
theorem undoneAt_self {place : Nat}
    (hnone : NotDone found place ∨ ∀ undoer, Undoes steps undoer place → ¬ NotDone found undoer) :
    undoneAt steps found place = found := by
  unfold undoneAt
  split
  · rename_i step done hstep hdone
    split
    · rfl
    · rename_i hstate
      have hnot : ¬ NotDone found place := by
        rintro ⟨other, hother, hnotDone⟩
        obtain rfl : done = other := Option.some.inj (hdone.symm.trans hother)
        exact hstate hnotDone
      have hall := hnone.resolve_left hnot
      simp only
      split
      · rfl
      · rename_i undoer hfind
        have hmem := (mem_undoers hstep).mp (List.mem_of_find?_eq_some hfind)
        have hundoer := List.find?_some hfind
        exact absurd (any_notDone.mp hundoer) (hall undoer hmem)
  · rfl

/-- A step that a step before it undoes, where that one is to be carried out, is reported to be
carried out, and no other step is changed. -/
theorem undoneAt_set {place undoer : Nat} (hplace : place < found.length)
    (hnot : ¬ NotDone found place) (hundoes : Undoes steps undoer place)
    (hundoer : NotDone found undoer) :
    ∃ why, undoneAt steps found place = found.set place { state := .notDone, why := some why } := by
  obtain ⟨-, step, id, hstep, -⟩ := id hundoes
  have hdone := List.getElem?_eq_getElem hplace
  have hstate : found[place].state ≠ .notDone := fun hstate => hnot ⟨_, hdone, hstate⟩
  unfold undoneAt
  simp only [hstep, hdone, hstate, if_false]
  split
  · rename_i hfind
    have hall := List.find?_eq_none.mp hfind undoer ((mem_undoers hstep).mpr hundoes)
    exact absurd (any_notDone.mpr hundoer) hall
  · exact ⟨_, rfl⟩

/-- Reporting one step undone keeps how many were found. -/
theorem undoneAt_length (steps : List (Step φ L)) (found : List Done) (place : Nat) :
    (undoneAt steps found place).length = found.length := by
  unfold undoneAt
  split
  · split
    · rfl
    · simp only
      split
      · rfl
      · exact List.length_set
  · rfl

/-- Reporting one step undone leaves the others as they were found. -/
theorem getElem?_undoneAt_ne {place other : Nat} (hne : place ≠ other) :
    (undoneAt steps found place)[other]? = found[other]? := by
  unfold undoneAt
  split
  · split
    · rfl
    · simp only
      split
      · rfl
      · exact List.getElem?_set_ne hne
  · rfl

/-- What reporting one step undone comes to for it. -/
theorem notDone_undoneAt {place : Nat} (hplace : place < found.length) :
    NotDone (undoneAt steps found place) place ↔
      NotDone found place ∨ ∃ undoer, Undoes steps undoer place ∧ NotDone found undoer := by
  by_cases hsome : ¬ NotDone found place ∧ ∃ undoer, Undoes steps undoer place ∧ NotDone found undoer
  · obtain ⟨hnot, undoer, hundoes, hundoer⟩ := hsome
    obtain ⟨why, hset⟩ := undoneAt_set hplace hnot hundoes hundoer
    have hafter : NotDone (undoneAt steps found place) place :=
      ⟨{ state := .notDone, why := some why }, by simp [hset, hplace], rfl⟩
    exact iff_of_true hafter (.inr ⟨undoer, hundoes, hundoer⟩)
  · have hself : undoneAt steps found place = found := by
      apply undoneAt_self
      by_cases hnot : NotDone found place
      · exact .inl hnot
      · exact .inr fun undoer hundoes hundoer => hsome ⟨hnot, undoer, hundoes, hundoer⟩
    rw [hself]
    constructor
    · exact .inl
    · rintro (hnot | hundoer)
      · exact hnot
      · by_contra hnot
        exact hsome ⟨hnot, hundoer⟩

/-- A step reported as it was not found is one reported undone. -/
theorem getElem?_undoneAt {place : Nat}
    (hkept : NotDone (undoneAt steps found place) place → NotDone found place) :
    (undoneAt steps found place)[place]? = found[place]? := by
  by_cases hplace : place < found.length
  · by_cases hnot : NotDone found place
    · rw [undoneAt_self (.inl hnot)]
    · have hafter := fun hundoer => hnot (hkept ((notDone_undoneAt hplace).mpr (.inr hundoer)))
      rw [undoneAt_self (.inr fun undoer hundoes hundoer => hafter ⟨undoer, hundoes, hundoer⟩)]
  · rw [List.getElem?_eq_none (by rw [undoneAt_length]; omega), List.getElem?_eq_none (by omega)]

/-! ## The steps down the order -/

/-- The done-states once the steps before a place have been gone through. -/
def undoneTo (steps : List (Step φ L)) (found : List Done) (place : Nat) : List Done :=
  (List.range place).foldl (undoneAt steps) found

/-- Going through one more step. -/
theorem undoneTo_succ (place : Nat) :
    undoneTo steps found (place + 1) = undoneAt steps (undoneTo steps found place) place := by
  simp [undoneTo, List.range_succ]

/-- As many steps are reported as were found, however far the order has been gone down. -/
@[simp] theorem undoneTo_length (place : Nat) :
    (undoneTo steps found place).length = found.length := by
  induction place with
  | zero => rfl
  | succ place ih => rw [undoneTo_succ, undoneAt_length, ih]

/-- Reporting steps undone reports as many as were found. -/
theorem undone_length (steps : List (Step φ L)) (found : List Done) :
    (undone steps found).length = found.length :=
  undoneTo_length found.length

/-- A step not yet gone through is as it was found. -/
theorem getElem?_undoneTo_of_le {place other : Nat} (hle : place ≤ other) :
    (undoneTo steps found place)[other]? = found[other]? := by
  induction place with
  | zero => rfl
  | succ place ih => rw [undoneTo_succ, getElem?_undoneAt_ne (by omega), ih (by omega)]

/-- A step gone through stays as it was reported then. -/
theorem getElem?_undoneTo_of_lt {place later other : Nat} (hlt : other < place)
    (hle : place ≤ later) :
    (undoneTo steps found later)[other]? = (undoneTo steps found place)[other]? := by
  induction later, hle using Nat.le_induction with
  | base => rfl
  | succ later hle ih => rw [undoneTo_succ, getElem?_undoneAt_ne (by omega), ih]

/-- Two lists of done-states with the same entry at a place agree on whether the step there is to
be carried out. -/
theorem notDone_congr {other : List Done} {place : Nat} (hsame : found[place]? = other[place]?) :
    NotDone found place ↔ NotDone other place := by
  simp only [NotDone, hsame]

/-- A step is reported to be carried out where it was found so, or where one before it that
undoes it is reported so. -/
theorem notDone_undone {place : Nat} (hplace : place < found.length) :
    NotDone (undone steps found) place ↔
      NotDone found place ∨
        ∃ undoer, Undoes steps undoer place ∧ NotDone (undone steps found) undoer := by
  have hthen : (undone steps found)[place]? = (undoneTo steps found (place + 1))[place]? :=
    getElem?_undoneTo_of_lt (by omega) hplace
  have hbefore : ∀ undoer, Undoes steps undoer place →
      (NotDone (undoneTo steps found place) undoer ↔ NotDone (undone steps found) undoer) :=
    fun undoer hundoes =>
      notDone_congr (getElem?_undoneTo_of_lt hundoes.1 (Nat.le_of_lt hplace)).symm
  rw [notDone_congr hthen, undoneTo_succ, notDone_undoneAt (by simpa using hplace),
    notDone_congr (getElem?_undoneTo_of_le (Nat.le_refl place))]
  exact or_congr Iff.rfl (exists_congr fun undoer =>
    and_congr_right fun hundoes => hbefore undoer hundoes)

/-- A step reported to be carried out only where it was found so keeps what was found of it. -/
theorem getElem?_undone {place : Nat}
    (hkept : NotDone (undone steps found) place → NotDone found place) :
    (undone steps found)[place]? = found[place]? := by
  by_cases hplace : place < found.length
  · have hthen : (undone steps found)[place]? = (undoneTo steps found (place + 1))[place]? :=
      getElem?_undoneTo_of_lt (by omega) hplace
    have hfound : (undoneTo steps found place)[place]? = found[place]? :=
      getElem?_undoneTo_of_le (Nat.le_refl place)
    rw [notDone_congr hthen, ← notDone_congr hfound, undoneTo_succ] at hkept
    rw [hthen, undoneTo_succ, getElem?_undoneAt hkept, hfound]
  · have hlength := undone_length steps found
    rw [List.getElem?_eq_none (by omega), List.getElem?_eq_none (by omega)]

/-- Done-states the closure adds nothing to are reported as they are. -/
theorem undone_self
    (hclosed : ∀ place < found.length, ∀ undoer, Undoes steps undoer place →
      NotDone found undoer → NotDone found place) :
    undone steps found = found := by
  have hstep : ∀ place < found.length, undoneAt steps found place = found := by
    intro place hplace
    apply undoneAt_self
    by_cases hnot : NotDone found place
    · exact .inl hnot
    · exact .inr fun undoer hundoes hundoer => hnot (hclosed place hplace undoer hundoes hundoer)
  have hall : ∀ place ≤ found.length, undoneTo steps found place = found := by
    intro place hle
    induction place with
    | zero => rfl
    | succ place ih => rw [undoneTo_succ, ih (by omega), hstep place hle]
  exact hall found.length (Nat.le_refl _)

/-! ## The closure -/

/-- A step undoes only steps after it. -/
theorem wellFounded_undoes : WellFounded (Undoes steps) :=
  Subrelation.wf (fun hundoes => hundoes.1) Nat.lt_wfRel.wf

/-- Undoing carries down the order, to every step a chain leads to and to no other. -/
theorem undone_closes (steps : List (Step φ L)) (found : List Done) :
    (∀ place < found.length,
      (NotDone (undone steps found) place ↔
        NotDone found place ∨
          ∃ first, NotDone found first ∧ Relation.TransGen (Undoes steps) first place)) ∧
    (∀ place, ¬ NotDone (undone steps found) place ∨ NotDone found place →
      (undone steps found)[place]? = found[place]?) ∧
    undone steps (undone steps found) = undone steps found := by
  have hlength := undone_length steps found
  refine ⟨?_, ?_, ?_⟩
  · exact Closure.marked_iff_transGen wellFounded_undoes
      (fun undoer place hundoes hplace => hundoes.1.trans hplace)
      fun place hplace => notDone_undone hplace
  · rintro place (hnot | hfound)
    · exact getElem?_undone fun hafter => absurd hafter hnot
    · exact getElem?_undone fun _ => hfound
  · apply undone_self
    intro place hplace undoer hundoes hundoer
    exact (notDone_undone (hlength ▸ hplace)).mpr (.inr ⟨undoer, hundoes, hundoer⟩)

/-- A step that says what it is and which steps undo it, and ends when carried out. -/
def bare (id : String) (undoneBy : List String) : Step Unit Unit where
  id := id
  title := id
  changesBoard := true
  asksAfter := none
  undoneBy := undoneBy
  undoing := id
  start := ()
  next := fun _ _ => none

/-- A disk to be written undoes the overlay on it, and through it what the overlay holds. -/
theorem undone_closes_chain :
    NotDone (undone [bare "disk" [], bare "overlay" ["disk"], bare "keys" ["overlay"]]
      [⟨.notDone, none⟩, ⟨.unknown, none⟩, ⟨.done, some "the keys are held"⟩]) 2 := by
  have hfirst : Undoes [bare "disk" [], bare "overlay" ["disk"], bare "keys" ["overlay"]] 0 1 :=
    ⟨by decide, _, "disk", rfl, by decide, ⟨_, rfl, rfl⟩, fun before hbefore => by omega⟩
  have hnext : Undoes [bare "disk" [], bare "overlay" ["disk"], bare "keys" ["overlay"]] 1 2 := by
    refine ⟨by decide, _, "overlay", rfl, by decide, ⟨_, rfl, rfl⟩, fun before hbefore => ?_⟩
    obtain rfl : before = 0 := by omega
    rintro step ⟨⟩
    decide
  exact ((undone_closes _ _).1 2 (by decide)).mpr
    (.inr ⟨0, ⟨_, rfl, rfl⟩, .tail (.single hfirst) hnext⟩)

end Bliti.Provision.Engine
