import Mathlib.Data.List.Forall2
import Mathlib.Logic.Basic

/-!
# Fallible computations

What a fallible computation that succeeds says of its parts.

Main results:

- Theorem `Fallible.bind_ok`: both parts of a sequence that succeeds do.
- Theorems `Fallible.mapM_eq_ok` and `Fallible.mapM_eq_some`: each item of a list that
  succeeds does.
- Theorem `Fallible.foldlM_induction`: what each turn of a loop keeps holds at its end.
-/

namespace Fallible

variable {ε α β : Type}

/-- A sequence succeeds where its first part does, and its second from there. -/
theorem bind_ok {x : Except ε α} {f : α → Except ε β} {b : β} :
    (x >>= f) = .ok b ↔ ∃ a, x = .ok a ∧ f a = .ok b := by
  cases x with
  | error e => simp [bind, Except.bind]
  | ok a => simp [bind, Except.bind]

/-- A sequence goes on from what its first part returns. -/
@[simp]
theorem ok_bind {a : α} {f : α → Except ε β} : (Except.ok a >>= f) = f a :=
  rfl

/-- A sequence whose first part fails does. -/
@[simp]
theorem error_bind {e : ε} {f : α → Except ε β} : (Except.error e >>= f) = .error e :=
  rfl

/-- A sequence fails where its first part does, or its second from there. -/
theorem bind_error {x : Except ε α} {f : α → Except ε β} {e : ε} :
    (x >>= f) = .error e ↔ x = .error e ∨ ∃ a, x = .ok a ∧ f a = .error e := by
  cases x with
  | error other => simp [bind, Except.bind]
  | ok a => simp [bind, Except.bind]

/-- What is returned may be changed on the way. -/
theorem map_ok {x : Except ε α} {f : α → β} {b : β} :
    x.map f = .ok b ↔ ∃ a, x = .ok a ∧ f a = b := by
  cases x with
  | error e => simp [Except.map]
  | ok a => simp [Except.map]

/-- What is returned is what was given. -/
theorem pure_ok {a b : α} : (pure a : Except ε α) = .ok b ↔ a = b := by
  simp [pure, Except.pure]

/-- A check over a list passes exactly where it does for each of its items. -/
theorem forM_ok {f : α → Except ε Unit} {items : List α} :
    items.forM f = .ok () ↔ ∀ a ∈ items, f a = .ok () := by
  induction items with
  | nil => exact iff_of_true rfl (by simp)
  | cons item rest ih =>
      have hcons : (item :: rest).forM f = (f item >>= fun _ => rest.forM f) := rfl
      rw [hcons, bind_ok, List.forall_mem_cons, ← ih]
      constructor
      · intro hall
        obtain ⟨⟨⟩, hfirst, hrest⟩ := hall
        exact ⟨hfirst, hrest⟩
      · intro hall
        exact ⟨⟨⟩, hall⟩

/-- Whatever a computation that succeeds returns has a property. -/
structure Yields (p : α → Prop) (x : Except ε α) : Prop where
  of_ok : ∀ a, x = .ok a → p a

/-- What is returned has a property it has. -/
theorem yields_pure {p : α → Prop} {a : α} (ha : p a) : Yields p (pure a : Except ε α) where
  of_ok _ hb := pure_ok.mp hb ▸ ha

/-- A sequence returns what its second part does from what its first returns. -/
theorem yields_bind {p : β → Prop} {x : Except ε α} {f : α → Except ε β}
    (hthen : ∀ a, x = .ok a → Yields p (f a)) : Yields p (x >>= f) where
  of_ok b hb := by
    obtain ⟨a, hfirst, hlast⟩ := bind_ok.mp hb
    exact (hthen a hfirst).of_ok b hlast

/-- What succeeds over a list succeeds for each of its items. -/
theorem ok_of_mapM {f : α → Except ε β} {items : List α} {results : List β}
    (hall : items.mapM f = .ok results) {a : α} (ha : a ∈ items) : ∃ b, f a = .ok b := by
  induction items generalizing results with
  | nil => cases ha
  | cons item rest ih =>
      rw [List.mapM_cons] at hall
      obtain ⟨first, hfirst, hall⟩ := bind_ok.mp hall
      obtain ⟨others, hothers, -⟩ := bind_ok.mp hall
      rcases List.mem_cons.mp ha with rfl | hin
      · exact ⟨first, hfirst⟩
      · exact ih hothers hin

/-- What succeeds over a list gives for each item what it does there. -/
theorem mapM_eq_some {f : α → Option β} {items : List α} {results : List β} :
    items.mapM f = some results ↔ List.Forall₂ (fun a b => f a = some b) items results := by
  induction items generalizing results with
  | nil => simp [eq_comm]
  | cons item rest ih =>
      rw [List.mapM_cons, List.forall₂_cons_left_iff]
      simp only [Option.bind_eq_bind, Option.bind_eq_some_iff, ih, Option.pure_def,
        Option.some.injEq]
      constructor
      · intro hall
        obtain ⟨first, hfirst, others, hothers, hresults⟩ := hall
        exact ⟨first, others, hfirst, hothers, hresults.symm⟩
      · intro hall
        obtain ⟨first, others, hfirst, hothers, hresults⟩ := hall
        exact ⟨first, hfirst, others, hothers, hresults.symm⟩

/-- What succeeds over a list returns for each item what it does there. -/
theorem mapM_eq_ok {f : α → Except ε β} {items : List α} {results : List β} :
    items.mapM f = .ok results ↔ List.Forall₂ (fun a b => f a = .ok b) items results := by
  induction items generalizing results with
  | nil =>
      rw [List.mapM_nil, pure_ok, List.forall₂_nil_left_iff]
      exact eq_comm
  | cons item rest ih =>
      rw [List.mapM_cons, List.forall₂_cons_left_iff, bind_ok]
      constructor
      · intro hall
        obtain ⟨first, hfirst, hall⟩ := hall
        obtain ⟨others, hothers, hresults⟩ := bind_ok.mp hall
        exact ⟨first, others, hfirst, ih.mp hothers, (pure_ok.mp hresults).symm⟩
      · intro hall
        obtain ⟨first, others, hfirst, hothers, hresults⟩ := hall
        exact ⟨first, hfirst, bind_ok.mpr ⟨others, ih.mpr hothers, pure_ok.mpr hresults.symm⟩⟩

/-- It succeeds over a list where it does for each item. -/
theorem isSome_mapM {f : α → Option β} {items : List α} :
    (items.mapM f).isSome = items.all fun a => (f a).isSome := by
  induction items with
  | nil => rfl
  | cons item rest ih =>
      rw [List.mapM_cons, List.all_cons, ← ih]
      cases f item with
      | none => rfl
      | some first =>
          cases rest.mapM f with
          | none => rfl
          | some others => rfl

/-- What holds at the start of a loop that succeeds, and is kept by each of its turns, holds at
its end. -/
theorem foldlM_induction {f : β → α → Except ε β} {holds : List α → β → Prop}
    (hturn : ∀ done b a after, holds done b → f b a = .ok after → holds (done ++ [a]) after)
    {items : List α} {start result : β} (hstart : holds [] start)
    (hrun : items.foldlM f start = .ok result) : holds items result := by
  have hfrom : ∀ (rest done : List α) (b : β), holds done b → rest.foldlM f b = .ok result →
      holds (done ++ rest) result := by
    intro rest
    induction rest with
    | nil =>
        intro done b hb hrun
        rw [List.append_nil, ← pure_ok.mp hrun]
        exact hb
    | cons a rest ih =>
        intro done b hb hrun
        rw [List.foldlM_cons] at hrun
        obtain ⟨after, hafter, hrest⟩ := bind_ok.mp hrun
        have hlater := ih (done ++ [a]) after (hturn done b a after hb hafter) hrest
        rwa [List.append_assoc] at hlater
  exact hfrom items [] start hstart hrun

/-- What succeeded is what it returned. -/
theorem toOption_eq_some {x : Except ε α} {a : α} : x.toOption = some a ↔ x = .ok a := by
  cases x with
  | error e => simp [Except.toOption]
  | ok b => simp [Except.toOption]

/-! ## Returning exactly where a condition holds -/

/-- A computation returns a value where a condition holds, and fails elsewhere. -/
structure ReturnsIf (p : Prop) (a : α) (x : Except ε α) : Prop where
  returns : p → x = .ok a
  fails : ¬ p → ∃ e, x = .error e

namespace ReturnsIf

variable {p q : Prop} {a : α} {b : β} {x : Except ε α} {f : α → Except ε β}

/-- What is returned unconditionally. -/
theorem pure : ReturnsIf True a (Pure.pure a : Except ε α) where
  returns _ := rfl
  fails hnot := absurd trivial hnot

/-- A failure. -/
theorem fail {e : ε} : ReturnsIf False a (Except.error e : Except ε α) where
  returns hfalse := hfalse.elim
  fails _ := ⟨e, rfl⟩

/-- The condition may be put in other words. -/
theorem congr (hx : ReturnsIf p a x) (hsame : q ↔ p) : ReturnsIf q a x where
  returns hq := hx.returns (hsame.mp hq)
  fails hnot := hx.fails fun hp => hnot (hsame.mpr hp)

/-- A sequence returns where both of its parts do. -/
theorem bind (hx : ReturnsIf p a x) (hf : ReturnsIf q b (f a)) :
    ReturnsIf (p ∧ q) b (x >>= f) where
  returns hboth := bind_ok.mpr ⟨a, hx.returns hboth.1, hf.returns hboth.2⟩
  fails hnot := by
    by_cases hp : p
    · obtain ⟨e, he⟩ := hf.fails fun hq => hnot ⟨hp, hq⟩
      exact ⟨e, bind_error.mpr (.inr ⟨a, hx.returns hp, he⟩)⟩
    · obtain ⟨e, he⟩ := hx.fails hp
      exact ⟨e, bind_error.mpr (.inl he)⟩

/-- A sequence whose second part returns does where its first part does. -/
theorem bind_returns (hx : ReturnsIf p a x) (hf : f a = .ok b) : ReturnsIf p b (x >>= f) where
  returns hp := bind_ok.mpr ⟨a, hx.returns hp, hf⟩
  fails hnot := by
    obtain ⟨e, he⟩ := hx.fails hnot
    exact ⟨e, bind_error.mpr (.inl he)⟩

end ReturnsIf

end Fallible
