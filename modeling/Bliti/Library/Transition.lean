import Mathlib.Logic.Basic

/-!
# Transition systems - reachability and invariants

Labelled transition systems over arbitrary states and labels, as a program or a
protocol takes step after step.

Main results:

- Theorem `System.Reachable.invariant`: what holds at the start and is kept by
  every step holds of every reachable state.
- Theorem `System.Reachable.of_run`: where the steps of a list lead is reachable.
-/

namespace Transition

/-- A labelled transition system. -/
structure System (σ α : Type*) where
  init : σ → Prop
  step : σ → α → σ → Prop

namespace System

variable {σ α : Type*}

/-- The system of a partial function that takes a step. -/
def ofTake (init : σ → Prop) (take : σ → α → Option σ) : System σ α where
  init := init
  step s a s' := take s a = some s'

/-- A system held to the steps that meet a guard on the state before them. -/
def guarded (M : System σ α) (guard : σ → α → Prop) : System σ α where
  init := M.init
  step s a s' := guard s a ∧ M.step s a s'

/-- A system started from one state. -/
def since (M : System σ α) (s : σ) : System σ α where
  init := (· = s)
  step := M.step

/-- The states some run of a system ends in. -/
inductive Reachable (M : System σ α) : σ → Prop
  | start {s : σ} (hinit : M.init s) : Reachable M s
  | next {s s' : σ} {a : α} (hreach : Reachable M s) (hstep : M.step s a s') :
      Reachable M s'

/-- What holds at the start and is kept by every step from a reachable state
holds of every reachable state. -/
theorem Reachable.invariant {M : System σ α} {Inv : σ → Prop}
    (hinit : ∀ s, M.init s → Inv s)
    (hstep : ∀ s a s', M.Reachable s → Inv s → M.step s a s' → Inv s')
    {s : σ} (hreach : M.Reachable s) : Inv s := by
  induction hreach with
  | start hstart => exact hinit _ hstart
  | next hreach hnext ih => exact hstep _ _ _ hreach ih hnext

/-- What a system held to a guard reaches, it reaches. -/
theorem Reachable.unguarded {M : System σ α} {guard : σ → α → Prop} {s : σ}
    (hreach : (M.guarded guard).Reachable s) : M.Reachable s := by
  induction hreach with
  | start hstart => exact .start hstart
  | next hreach hnext ih => exact .next ih hnext.2

/-- Take the steps of a list, in order. -/
def run (take : σ → α → Option σ) (s : σ) (steps : List α) : Option σ :=
  steps.foldlM take s

/-- Taking a first step, then the rest. -/
theorem run_cons {take : σ → α → Option σ} {s next : σ} {a : α} (rest : List α)
    (htake : take s a = some next) : run take s (a :: rest) = run take next rest := by
  simp [run, htake]

/-- The state some steps lead to from a reachable state is reachable, where the
system takes each of them. -/
theorem Reachable.of_run {M : System σ α} {take : σ → α → Option σ} {steps : List α}
    {s s' : σ} (hreach : M.Reachable s)
    (hstep : ∀ a ∈ steps, ∀ s s', take s a = some s' → M.step s a s')
    (hrun : run take s steps = some s') : M.Reachable s' := by
  induction steps generalizing s with
  | nil =>
      simp only [run, List.foldlM_nil, Option.pure_def, Option.some.injEq] at hrun
      rw [← hrun]
      exact hreach
  | cons a rest ih =>
      rcases htake : take s a with none | next
      · simp [run, htake] at hrun
      · have hnext : M.step s a next := hstep a List.mem_cons_self s next htake
        apply ih (.next (a := a) hreach hnext)
        · intro b hb
          exact hstep b (List.mem_cons_of_mem a hb)
        · rwa [run_cons rest htake] at hrun

end System

end Transition
