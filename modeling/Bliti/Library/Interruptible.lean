import Mathlib.Logic.Basic

/-!
# Interruptible programs

A program that reaches its world only through operations, each of which may fail,
and which may be cut short between any two of them.  What such a program keeps
has to hold wherever it may be cut, and what it establishes only where it
returns: a triple says both, and this module gives the rules triples are
composed with.

Main results:

- Theorem `reaches_run`: a program run by a handler.
-/

namespace Interruptible

/-- The operations programs are made of: what each answers, and how it may turn out
on a world. -/
structure Effects where
  World : Type
  Op : Type
  Answer : Op → Type
  outcome : (o : Op) → World → Except String (Answer o) → World → Prop

variable {E : Effects} {α β : Type}

/-- A program: it returns, fails saying why, or performs an operation and goes on
from how that turned out. -/
inductive Program (E : Effects) (α : Type) : Type where
  | pure (a : α)
  | fail (reason : String)
  | perform (o : E.Op) (next : Except String (E.Answer o) → Program E α)

namespace Program

/-- One program after another, where the first returns. -/
def bind : Program E α → (α → Program E β) → Program E β
  | .pure a, f => f a
  | .fail reason, _ => .fail reason
  | .perform o next, f => .perform o fun result => (next result).bind f

instance : Monad (Program E) where
  pure := .pure
  bind := .bind

/-- Perform an operation, failing where it does. -/
def attempt (o : E.Op) : Program E (E.Answer o) :=
  .perform o fun
    | .ok answer => .pure answer
    | .error reason => .fail reason

/-- Perform an operation, taking its failure for an answer. -/
def attemptOr (o : E.Op) (default : E.Answer o) : Program E (E.Answer o) :=
  .perform o fun
    | .ok answer => .pure answer
    | .error _ => .pure default

/-- A program whose failure is said in other words. -/
def mapFail (say : String → String) : Program E α → Program E α
  | .pure a => .pure a
  | .fail reason => .fail (say reason)
  | .perform o next => .perform o fun result => (next result).mapFail say

/-- Run a program, each operation as a handler has it turn out. -/
def run (handler : E.World → (o : E.Op) → Except String (E.Answer o) × E.World) :
    Program E α → E.World → Except String α × E.World
  | .pure a, w => (.ok a, w)
  | .fail reason, w => (.error reason, w)
  | .perform o next, w => (next (handler w o).1).run handler (handler w o).2

variable (handler : E.World → (o : E.Op) → Except String (E.Answer o) × E.World)

/-- A program that returns is run to what it returns. -/
@[simp]
theorem run_pure (a : α) (w : E.World) :
    (Pure.pure a : Program E α).run handler w = (.ok a, w) :=
  rfl

/-- An operation is run to how the handler has it turn out. -/
@[simp]
theorem run_attempt (o : E.Op) (w : E.World) :
    (attempt o).run handler w = handler w o := by
  simp only [attempt, run]
  split
  · rename_i answer hanswer
    rw [run, ← hanswer]
  · rename_i reason hreason
    rw [run, ← hreason]

/-- A sequence is run to what its second part is, from where the first returned. -/
@[simp]
theorem run_bind (p : Program E α) (f : α → Program E β) (w : E.World) :
    (p >>= f).run handler w =
      match p.run handler w with
      | (.ok a, w') => (f a).run handler w'
      | (.error reason, w') => (.error reason, w') := by
  change (p.bind f).run handler w = _
  induction p generalizing w with
  | pure a => rfl
  | fail reason => rfl
  | perform o next ih => exact ih _ _

end Program

open Program

/-- Where a program leads from a world: it is cut between two operations, returns, or
fails. -/
inductive Reaches : E.World → Program E α → E.World → Option (Except String α) → Prop
  | cut (w : E.World) (p : Program E α) : Reaches w p w none
  | returned (w : E.World) (a : α) : Reaches w (.pure a) w (some (.ok a))
  | failed (w : E.World) (reason : String) :
      Reaches w (.fail reason) w (some (.error reason))
  | performed {w w' w'' : E.World} {o : E.Op} {result : Except String (E.Answer o)}
      {next : Except String (E.Answer o) → Program E α} {out : Option (Except String α)}
      (houtcome : E.outcome o w result w') (hnext : Reaches w' (next result) w'' out) :
      Reaches w (.perform o next) w'' out

/-- Where a sequence leads: its first part is cut or fails, or returns and its second
leads there. -/
theorem reaches_bind {p : Program E α} {f : α → Program E β} {w w' : E.World}
    {out : Option (Except String β)} (hreach : Reaches w (p.bind f) w' out) :
    (∃ cut, Reaches w p w' cut ∧ ∀ b, out ≠ some (.ok b)) ∨
      ∃ a between, Reaches w p between (some (.ok a)) ∧ Reaches between (f a) w' out := by
  induction p generalizing w with
  | pure a => exact .inr ⟨a, _, .returned _ a, hreach⟩
  | fail reason =>
      left
      cases hreach with
      | cut => exact ⟨none, .cut _ _, nofun⟩
      | failed => exact ⟨_, .failed _ reason, nofun⟩
  | perform o next ih =>
      cases hreach with
      | cut => exact .inl ⟨none, .cut _ _, nofun⟩
      | performed houtcome hnext =>
          rcases ih _ hnext with ⟨cut, hcut, hout⟩ | ⟨a, between, hfirst, hrest⟩
          · exact .inl ⟨cut, .performed houtcome hcut, hout⟩
          · exact .inr ⟨a, between, .performed houtcome hfirst, hrest⟩

/-- Where a program whose failure is said in other words leads, it led before. -/
theorem reaches_mapFail {say : String → String} {p : Program E α} {w w' : E.World}
    {out : Option (Except String α)} (hreach : Reaches w (p.mapFail say) w' out) :
    ∃ before, Reaches w p w' before ∧ ∀ a, out = some (.ok a) → before = some (.ok a) := by
  induction p generalizing w with
  | pure a => exact ⟨out, hreach, fun b hb => hb⟩
  | fail reason =>
      cases hreach with
      | cut => exact ⟨none, .cut _ _, nofun⟩
      | failed => exact ⟨_, .failed _ reason, nofun⟩
  | perform o next ih =>
      cases hreach with
      | cut => exact ⟨none, .cut _ _, nofun⟩
      | performed houtcome hnext =>
          obtain ⟨before, hbefore, hok⟩ := ih _ hnext
          exact ⟨before, .performed houtcome hbefore, hok⟩

/-- What a handler runs a program to, it leads to, where the handler's outcomes are
possible ones. -/
theorem reaches_run {handler : E.World → (o : E.Op) → Except String (E.Answer o) × E.World}
    (hhandler : ∀ w o, E.outcome o w (handler w o).1 (handler w o).2) (p : Program E α)
    (w : E.World) : Reaches w p (p.run handler w).2 (some (p.run handler w).1) := by
  induction p generalizing w with
  | pure a => exact .returned _ a
  | fail reason => exact .failed _ reason
  | perform o next ih => exact .performed (hhandler _ o) (ih _ _)

/-! ## Programs carried through -/

/-- A program returns from a world to another. -/
def Returns (w : E.World) (p : Program E α) (a : α) (w' : E.World) : Prop :=
  Reaches w p w' (some (.ok a))

/-- A program that returns at once leaves its world alone. -/
theorem returns_pure {w w' : E.World} {a b : α} (hreturns : Returns w (Pure.pure a : Program E α) b w') :
    b = a ∧ w' = w := by
  cases hreturns with
  | returned => exact ⟨rfl, rfl⟩

/-- A program that fails does not return. -/
theorem not_returns_fail {w w' : E.World} {reason : String} {a : α} :
    ¬ Returns w (.fail reason) a w' := by
  intro hreturns
  cases hreturns

/-- A sequence that returns is its two parts returning. -/
theorem returns_bind {p : Program E α} {f : α → Program E β} {w w' : E.World} {b : β}
    (hreturns : Returns w (p >>= f) b w') :
    ∃ a between, Returns w p a between ∧ Returns between (f a) b w' := by
  rcases reaches_bind hreturns with ⟨-, -, hout⟩ | hparts
  · exact absurd rfl (hout b)
  · exact hparts

/-- An operation that returns succeeded. -/
theorem returns_attempt {o : E.Op} {w w' : E.World} {answer : E.Answer o}
    (hreturns : Returns w (attempt o) answer w') : E.outcome o w (.ok answer) w' := by
  cases hreturns with
  | @performed _ between _ _ result _ _ houtcome hnext =>
      cases result with
      | ok found =>
          have hsame : Returns between (Pure.pure found) answer w' := hnext
          obtain ⟨rfl, rfl⟩ := returns_pure hsame
          exact houtcome
      | error reason => exact absurd hnext not_returns_fail

/-- What returns however its failure is said, returns. -/
theorem returns_mapFail {say : String → String} {p : Program E α} {w w' : E.World} {a : α}
    (hreturns : Returns w (p.mapFail say) a w') : Returns w p a w' := by
  obtain ⟨before, hbefore, hok⟩ := reaches_mapFail hreturns
  rw [hok a rfl] at hbefore
  exact hbefore

/-- A loop over nothing leaves its world alone. -/
theorem returns_nil {f : α → Program E PUnit} {w w' : E.World}
    (hreturns : Returns w (([] : List α).forM f) ⟨⟩ w') : w' = w :=
  (returns_pure hreturns).2

/-- A loop that returns is its first pass returning, and then the rest. -/
theorem returns_cons {f : α → Program E PUnit} {a : α} {rest : List α} {w w' : E.World}
    (hreturns : Returns w ((a :: rest).forM f) ⟨⟩ w') :
    ∃ between, Returns w (f a) ⟨⟩ between ∧ Returns between (rest.forM f) ⟨⟩ w' := by
  obtain ⟨⟨⟩, between, hfirst, hrest⟩ := returns_bind hreturns
  exact ⟨between, hfirst, hrest⟩

/-! ## Triples -/

/-- From every world that meets a precondition, a program keeps an invariant wherever
it may be cut, and meets a postcondition where it returns. -/
def Keeps (Inv : E.World → Prop) (Pre : E.World → Prop) (p : Program E α)
    (Post : α → E.World → Prop) : Prop :=
  ∀ w, Pre w → ∀ w' out, Reaches w p w' out → Inv w' ∧ ∀ a, out = some (.ok a) → Post a w'

namespace Keeps

variable {Inv Pre Pre' : E.World → Prop} {Post Post' : α → E.World → Prop}

/-- A program that returns at once. -/
theorem pure {a : α} (hkept : ∀ w, Pre w → Inv w ∧ Post a w) :
    Keeps Inv Pre (.pure a) Post := by
  intro w hpre w' out hreach
  cases hreach with
  | cut => exact ⟨(hkept w hpre).1, nofun⟩
  | returned =>
      refine ⟨(hkept w hpre).1, ?_⟩
      intro b hb
      cases hb
      exact (hkept w hpre).2

/-- A program that fails at once. -/
theorem fail {reason : String} (hkept : ∀ w, Pre w → Inv w) :
    Keeps Inv Pre (.fail reason : Program E α) Post := by
  intro w hpre w' out hreach
  cases hreach with
  | cut => exact ⟨hkept w hpre, nofun⟩
  | failed => exact ⟨hkept w hpre, nofun⟩

/-- A program that performs an operation first. -/
theorem perform {o : E.Op} {next : Except String (E.Answer o) → Program E α}
    {M : Except String (E.Answer o) → E.World → Prop} (hkept : ∀ w, Pre w → Inv w)
    (houtcome : ∀ w result w', Pre w → E.outcome o w result w' → M result w')
    (hnext : ∀ result, Keeps Inv (M result) (next result) Post) :
    Keeps Inv Pre (.perform o next) Post := by
  intro w hpre w' out hreach
  cases hreach with
  | cut => exact ⟨hkept w hpre, nofun⟩
  | performed hstep hrest => exact hnext _ _ (houtcome w _ _ hpre hstep) _ _ hrest

/-- A sequence: what the first part establishes, the second starts from. -/
theorem bind {p : Program E α} {f : α → Program E β} {Post : β → E.World → Prop}
    (Mid : α → E.World → Prop) (hfirst : Keeps Inv Pre p Mid)
    (hrest : ∀ a, Keeps Inv (Mid a) (f a) Post) : Keeps Inv Pre (p >>= f) Post := by
  intro w hpre w' out hreach
  rcases reaches_bind hreach with ⟨cut, hcut, hout⟩ | ⟨a, between, hbetween, hafter⟩
  · refine ⟨(hfirst w hpre w' cut hcut).1, ?_⟩
    intro b hb
    exact absurd hb (hout b)
  · have hmid := (hfirst w hpre between _ hbetween).2 a rfl
    exact hrest a between hmid w' out hafter

/-- A program that keeps and establishes more than is asked. -/
theorem weaken (hkeeps : Keeps Inv Pre' p Post') (hpre : ∀ w, Pre w → Pre' w)
    (hpost : ∀ a w, Post' a w → Post a w) : Keeps Inv Pre p Post := by
  intro w hw w' out hreach
  obtain ⟨hinv, hafter⟩ := hkeeps w (hpre w hw) w' out hreach
  exact ⟨hinv, fun a ha => hpost a w' (hafter a ha)⟩

/-- A program that asks for less than there is. -/
theorem strengthen (hkeeps : Keeps Inv Pre' p Post) (hpre : ∀ w, Pre w → Pre' w) :
    Keeps Inv Pre p Post :=
  hkeeps.weaken hpre fun _ _ => id

/-- A program that keeps more than is asked wherever it is cut. -/
theorem widen {p : Program E α} {Inv' : E.World → Prop} (hkeeps : Keeps Inv' Pre p Post)
    (hinv : ∀ w, Inv' w → Inv w) : Keeps Inv Pre p Post := by
  intro w hw w' out hreach
  obtain ⟨hkept, hafter⟩ := hkeeps w hw w' out hreach
  exact ⟨hinv w' hkept, hafter⟩

/-- What is given of every world, whichever it is. -/
theorem given {p : Program E α} {Given : Prop} (hkeeps : Given → Keeps Inv Pre p Post) :
    Keeps Inv (fun w => Pre w ∧ Given) p Post := by
  intro w hw
  exact hkeeps hw.2 w hw.1

/-- What a program's return establishes is established besides. -/
theorem returning {p : Program E α} (hkeeps : Keeps Inv Pre p Post)
    (hreturns : ∀ w a w', Pre w → Returns w p a w' → Post' a w') :
    Keeps Inv Pre p fun a w' => Post a w' ∧ Post' a w' := by
  intro w hw w' out hreach
  obtain ⟨hinv, hafter⟩ := hkeeps w hw w' out hreach
  refine ⟨hinv, ?_⟩
  rintro a rfl
  exact ⟨hafter a rfl, hreturns w a w' hw hreach⟩

/-- A program that leaves its world alone keeps whatever held of it. -/
theorem of_still {p : Program E α}
    (hstill : ∀ w, Keeps (· = w) (· = w) p fun _ w' => w' = w) (hkept : ∀ w, Pre w → Inv w) :
    Keeps Inv Pre p fun _ => Pre := by
  intro w hw w' out hreach
  obtain ⟨hsame, -⟩ := hstill w w rfl w' out hreach
  rw [hsame]
  exact ⟨hkept w hw, fun _ _ => hw⟩

/-- A program whose failure is said in other words. -/
theorem mapFail {p : Program E α} {say : String → String} (hkeeps : Keeps Inv Pre p Post) :
    Keeps Inv Pre (p.mapFail say) Post := by
  intro w hw w' out hreach
  obtain ⟨before, hbefore, hok⟩ := reaches_mapFail hreach
  obtain ⟨hinv, hafter⟩ := hkeeps w hw w' before hbefore
  exact ⟨hinv, fun a ha => hafter a (hok a ha)⟩

/-- An operation whose failure the program fails with. -/
theorem attempt {o : E.Op} {Post : E.Answer o → E.World → Prop}
    (hkept : ∀ w, Pre w → Inv w)
    (hok : ∀ w answer w', Pre w → E.outcome o w (.ok answer) w' → Inv w' ∧ Post answer w')
    (herror : ∀ w reason w', Pre w → E.outcome o w (.error reason) w' → Inv w') :
    Keeps Inv Pre (attempt o) Post := by
  refine .perform (M := fun result w =>
    Inv w ∧ ∀ answer, result = .ok answer → Post answer w) hkept ?_ ?_
  · intro w result w' hpre houtcome
    cases result with
    | ok answer =>
        obtain ⟨hinv, hpost⟩ := hok w answer w' hpre houtcome
        refine ⟨hinv, ?_⟩
        intro answer' hanswer
        cases hanswer
        exact hpost
    | error reason => exact ⟨herror w reason w' hpre houtcome, nofun⟩
  · intro result
    cases result with
    | ok answer => exact .pure fun w hmid => ⟨hmid.1, hmid.2 answer rfl⟩
    | error reason => exact .fail fun w hmid => hmid.1

/-- An operation whose failure the program takes for an answer. -/
theorem attemptOr {o : E.Op} {default : E.Answer o} {Post : E.Answer o → E.World → Prop}
    (hkept : ∀ w, Pre w → Inv w)
    (hok : ∀ w answer w', Pre w → E.outcome o w (.ok answer) w' → Inv w' ∧ Post answer w')
    (herror : ∀ w reason w', Pre w → E.outcome o w (.error reason) w' →
      Inv w' ∧ Post default w') :
    Keeps Inv Pre (attemptOr o default) Post := by
  refine .perform (M := fun result w => Inv w ∧ Post
    (match result with | .ok answer => answer | .error _ => default) w) hkept ?_ ?_
  · intro w result w' hpre houtcome
    cases result with
    | ok answer => exact hok w answer w' hpre houtcome
    | error reason => exact herror w reason w' hpre houtcome
  · intro result
    cases result with
    | ok answer => exact .pure fun w hmid => hmid
    | error reason => exact .pure fun w hmid => hmid

/-- A loop: each pass takes the invariant of what is left to that of the rest. -/
theorem forM {f : α → Program E PUnit} (Loop : List α → E.World → Prop)
    (hkept : ∀ w, Loop [] w → Inv w)
    (hpass : ∀ a rest, Keeps Inv (Loop (a :: rest)) (f a) fun _ => Loop rest)
    (items : List α) : Keeps Inv (Loop items) (items.forM f) fun _ => Loop [] := by
  induction items with
  | nil => exact .pure fun w hloop => ⟨hkept w hloop, hloop⟩
  | cons a rest ih => exact .bind (fun _ => Loop rest) (hpass a rest) fun _ => ih

/-- A loop each of whose passes keeps what it starts from. -/
theorem forM_same {f : α → Program E PUnit} (items : List α) (hkept : ∀ w, Pre w → Inv w)
    (hpass : ∀ a ∈ items, Keeps Inv Pre (f a) fun _ => Pre) :
    Keeps Inv Pre (items.forM f) fun _ => Pre := by
  induction items with
  | nil => exact .pure fun w hw => ⟨hkept w hw, hw⟩
  | cons a rest ih =>
      apply Keeps.bind _ (hpass a List.mem_cons_self)
      intro _
      exact ih fun b hb => hpass b (List.mem_cons_of_mem _ hb)

end Keeps

end Interruptible
