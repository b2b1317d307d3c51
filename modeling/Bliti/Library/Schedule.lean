import Mathlib

/-!
# Schedules - what fits in a stretch of one

A schedule gives each thing its place, no earlier than the place of the one before and what that one
costs.

Main results:

- Theorem `Scheduled.cost_dropLast_le`: things placed within a stretch cost no more than its length,
  the last of them left out.
-/

namespace Schedule

variable {α : Type*} {place cost : α → ℕ}

/-- Things each placed no earlier than any before it and what that one costs. -/
def Scheduled (place cost : α → ℕ) (things : List α) : Prop :=
  things.Pairwise fun a b => place a + cost a ≤ place b

/-- Some of the things scheduled are scheduled. -/
theorem Scheduled.of_sublist {things some : List α} (hscheduled : Scheduled place cost things)
    (hsome : some.Sublist things) : Scheduled place cost some :=
  List.Pairwise.sublist hsome hscheduled

/-- One more thing is scheduled after all the rest. -/
theorem Scheduled.append {things : List α} {next : α} (hscheduled : Scheduled place cost things)
    (hafter : ∀ a ∈ things, place a + cost a ≤ place next) :
    Scheduled place cost (things ++ [next]) := by
  refine List.pairwise_append.mpr ⟨hscheduled, List.pairwise_singleton _ _, ?_⟩
  intro a hmem b hb
  rw [List.mem_singleton.mp hb]
  exact hafter a hmem

/-- Things placed until an instant cost no more than from the first's place to it, the last of them
left out. -/
theorem Scheduled.cost_le {first : α} {rest : List α} {finish : ℕ}
    (hscheduled : Scheduled place cost (first :: rest))
    (hbefore : ∀ a ∈ first :: rest, place a ≤ finish) :
    place first + ((first :: rest).dropLast.map cost).sum ≤ finish := by
  induction rest generalizing first with
  | nil => exact hbefore first List.mem_cons_self
  | cons second rest ih =>
      obtain ⟨hfirst, hrest⟩ := List.pairwise_cons.mp hscheduled
      have hnext := hfirst second List.mem_cons_self
      have htail := ih hrest fun a hmem => hbefore a (List.mem_cons_of_mem _ hmem)
      rw [List.dropLast_cons_cons, List.map_cons, List.sum_cons]
      omega

/-- Things placed within a stretch cost no more than its length, the last of them left out. -/
theorem Scheduled.cost_dropLast_le {things : List α} {start length : ℕ}
    (hscheduled : Scheduled place cost things)
    (hwithin : ∀ a ∈ things, start ≤ place a ∧ place a ≤ start + length) :
    (things.dropLast.map cost).sum ≤ length := by
  cases things with
  | nil => exact Nat.zero_le _
  | cons first rest =>
      have hcost := hscheduled.cost_le fun a hmem => (hwithin a hmem).2
      have hfirst := (hwithin first List.mem_cons_self).1
      omega

end Schedule
