import Bliti.Facts.Power.Learn

/-!
# The backup supply - confirming a low battery

Every reading must have been below the floor for a minute, with external power absent, before the
device powers itself off.
-/

namespace Bliti.Facts.Power

/-- How long every reading must have been below the floor, with external power absent. -/
def confirm : Duration := secs 60

/-- How long after the system starts no shutdown begins. -/
def bootGrace : Duration := secs 120

/-- One look at the supply, as far as a low battery goes. -/
structure Floor where
  volts : ℚ
  external : Bool
deriving DecidableEq

/-- The confirmation clock: since when every reading has been below the floor with external power
absent. -/
structure Low where
  since : Option Duration
deriving DecidableEq

/-- Whether the system has been up long enough for a shutdown, where that is known. -/
def upLongEnough : Option Duration → Bool
  | none => true
  | some up => bootGrace ≤ up

namespace Low

/-- A clock not yet counting. -/
def new : Low where
  since := none

/-- Count one look, and whether the floor has now been held long enough to power off. -/
def observe (low : Low) (now : Duration) (uptime : Option Duration) (floor : Option Floor) :
    Low × Bool :=
  match floor with
  | some { volts, external := false } =>
      if volts < floorVolts then
        let since := low.since.getD now
        ({ since := some since }, confirm ≤ now - since && upLongEnough uptime)
      else ({ since := none }, false)
  | _ => ({ since := none }, false)

/-- Powering off has been asked for: the count starts again. -/
def settle (_low : Low) : Low where
  since := none

end Low

/-! ## What the looks call for -/

/-- A look, as far as a low battery goes: when it was taken, how long the system had been up, and
what it read where the gauge and the power line both answered. -/
structure Glance where
  now : Duration
  uptime : Option Duration
  floor : Option Floor
deriving DecidableEq

/-- A look read the cell below the floor, with external power absent. -/
def Glance.Below (glance : Glance) : Prop :=
  ∃ floor ∈ glance.floor, floor.external = false ∧ floor.volts < floorVolts

/-- A look calls for powering off: it, and every look back to one at least a minute earlier, none of
them before the last time it was asked for, read the cell below the floor, and the system has been
up long enough. -/
def CallsFor (glances : List Glance) (asks : List ℕ) (k : ℕ) : Prop :=
  ∃ (glance first : Glance) (j : ℕ), glances[k]? = some glance ∧ glances[j]? = some first ∧
    j ≤ k ∧ confirm ≤ glance.now - first.now ∧
    (∀ i, j ≤ i → i ≤ k → ∃ between, glances[i]? = some between ∧ between.Below) ∧
    (∀ a ∈ asks, a < k → a < j) ∧ upLongEnough glance.uptime = true

/-- What the clock stands for: the first of the looks, the last to now, that read the cell below
the floor and came after the last time powering off was asked for; or there are none. -/
structure Low.Counts (low : Low) (glances : List Glance) (asks : List ℕ) : Prop where
  counting : ∀ since ∈ low.since, ∃ j first, glances[j]? = some first ∧ first.now = since ∧
    (∀ i, j ≤ i → i < glances.length → ∃ between, glances[i]? = some between ∧ between.Below) ∧
    (∀ a ∈ asks, a < j) ∧
    ∀ i, i + 1 = j → i ∈ asks ∨ ∃ before, glances[i]? = some before ∧ ¬before.Below
  idle : low.since = none → ∀ i, i + 1 = glances.length →
    i ∈ asks ∨ ∃ last, glances[i]? = some last ∧ ¬last.Below
  asks : ∀ a ∈ asks, a < glances.length

/-- Looks are taken at times that do not go back. -/
def Timely (glances : List Glance) : Prop :=
  glances.Pairwise fun earlier later => earlier.now ≤ later.now

/-! ## The clock counts the looks -/

section Counts

variable {low : Low} {glances : List Glance} {glance : Glance} {asks : List ℕ}

/-- A look reads the cell below the floor exactly where the clock counts it. -/
theorem Glance.below_iff : glance.Below ↔
    ∃ volts, glance.floor = some { volts, external := false } ∧ volts < floorVolts := by
  constructor
  · rintro ⟨⟨volts, external⟩, hfloor, hexternal, hbelow⟩
    cases hexternal
    exact ⟨volts, hfloor, hbelow⟩
  · rintro ⟨volts, hfloor, hbelow⟩
    exact ⟨_, hfloor, rfl, hbelow⟩

/-- A look below the floor is counted, from itself where none before it was. -/
theorem Low.observe_below (hbelow : glance.Below) :
    low.observe glance.now glance.uptime glance.floor =
      ({ since := some (low.since.getD glance.now) },
        confirm ≤ glance.now - low.since.getD glance.now && upLongEnough glance.uptime) := by
  obtain ⟨volts, hfloor, hvolts⟩ := Glance.below_iff.mp hbelow
  rw [hfloor, Low.observe, if_pos hvolts]

/-- A look not below the floor starts the count again. -/
theorem Low.observe_not_below (hbelow : ¬glance.Below) :
    low.observe glance.now glance.uptime glance.floor = ({ since := none }, false) := by
  unfold Low.observe
  split
  · rename_i volts hfloor
    rw [if_neg fun hvolts => hbelow (Glance.below_iff.mpr ⟨volts, hfloor, hvolts⟩)]
  · rfl

theorem getElem?_next (glances : List Glance) (glance : Glance) :
    (glances ++ [glance])[glances.length]? = some glance := by
  simp

theorem getElem?_before {i : ℕ} {held : Glance} (hheld : glances[i]? = some held) :
    (glances ++ [glance])[i]? = some held := by
  rw [List.getElem?_append_left (List.getElem?_eq_some_iff.mp hheld).1, hheld]

/-- The clock stands for the looks after one below the floor is counted. -/
theorem Low.Counts.below (hcounts : low.Counts glances asks) (hbelow : glance.Below) :
    Low.Counts { since := some (low.since.getD glance.now) } (glances ++ [glance]) asks where
  counting := by
    rintro since hsince
    rw [Option.mem_some_iff] at hsince
    subst hsince
    rcases hheld : low.since with _ | t
    · refine ⟨glances.length, glance, getElem?_next glances glance, rfl, ?_, hcounts.asks, ?_⟩
      · intro i hfrom hto
        rw [List.length_append, List.length_singleton] at hto
        obtain rfl : i = glances.length := by omega
        exact ⟨glance, getElem?_next glances glance, hbelow⟩
      · intro i hlast
        rcases hcounts.idle hheld i hlast with hasked | ⟨last, hat, hnot⟩
        · exact .inl hasked
        · exact .inr ⟨last, getElem?_before hat, hnot⟩
    · obtain ⟨j, first, hfirst, hnow, hall, hasks, hbefore⟩ := hcounts.counting t hheld
      refine ⟨j, first, getElem?_before hfirst, hnow, ?_, hasks, ?_⟩
      · intro i hfrom hto
        rw [List.length_append, List.length_singleton] at hto
        rcases Nat.lt_or_ge i glances.length with hlt | hge
        · obtain ⟨between, hat, hlow⟩ := hall i hfrom hlt
          exact ⟨between, getElem?_before hat, hlow⟩
        · obtain rfl : i = glances.length := by omega
          exact ⟨glance, getElem?_next glances glance, hbelow⟩
      · intro i hprevious
        rcases hbefore i hprevious with hasked | ⟨before, hat, hnot⟩
        · exact .inl hasked
        · exact .inr ⟨before, getElem?_before hat, hnot⟩
  idle := nofun
  asks := fun a ha => (hcounts.asks a ha).trans_le (by simp)

/-- The clock stands for the looks after one that starts the count again. -/
theorem Low.Counts.not_below (hcounts : low.Counts glances asks) (hbelow : ¬glance.Below) :
    Low.Counts { since := none } (glances ++ [glance]) asks where
  counting := nofun
  idle := by
    intro _ i hlast
    obtain rfl : i = glances.length := by simpa using hlast
    exact .inr ⟨glance, getElem?_next glances glance, hbelow⟩
  asks := fun a ha => (hcounts.asks a ha).trans_le (by simp)

/-- Looks are in order of their times. -/
theorem Timely.le (htimely : Timely glances) {i j : ℕ} {earlier later : Glance}
    (hearlier : glances[i]? = some earlier) (hlater : glances[j]? = some later) (hle : i ≤ j) :
    earlier.now ≤ later.now := by
  rcases hle.eq_or_lt with rfl | hlt
  · rw [hearlier, Option.some.injEq] at hlater
    rw [hlater]
  · obtain ⟨hi, rfl⟩ := List.getElem?_eq_some_iff.mp hearlier
    obtain ⟨hj, rfl⟩ := List.getElem?_eq_some_iff.mp hlater
    exact List.pairwise_iff_getElem.mp htimely i j hi hj hlt

/-- A look below the floor is confirmed exactly where it calls for powering off. -/
theorem Low.Counts.callsFor_iff (hcounts : low.Counts glances asks) (hbelow : glance.Below)
    (htimely : Timely (glances ++ [glance])) :
    (confirm ≤ glance.now - low.since.getD glance.now && upLongEnough glance.uptime) = true ↔
      CallsFor (glances ++ [glance]) asks glances.length := by
  obtain ⟨j, first, hfirst, hnow, hall, hasks, hbefore⟩ :=
    (hcounts.below hbelow).counting _ rfl
  have hnext := getElem?_next glances glance
  rw [Bool.and_eq_true, decide_eq_true_eq, ← hnow]
  constructor
  · rintro ⟨hlong, hup⟩
    have hj := (List.getElem?_eq_some_iff.mp hfirst).1
    rw [List.length_append, List.length_singleton] at hj
    refine ⟨glance, first, j, hnext, hfirst, by omega, hlong, ?_, fun a ha _ => hasks a ha, hup⟩
    intro i hfrom hto
    exact hall i hfrom (by simp; omega)
  · rintro ⟨glance', first', j', hat, hfirst', hle, hlong, hall', hasks', hup⟩
    rw [hnext, Option.some.injEq] at hat
    subst hat
    refine ⟨?_, hup⟩
    -- No look before the first the clock counts is in such a stretch.
    have hafter : j ≤ j' := by
      by_contra hearlier
      rcases hbefore (j - 1) (by omega) with hasked | ⟨before, hat, hnot⟩
      · have hless := hasks _ hasked
        have hlast := hcounts.asks _ hasked
        have := hasks' _ hasked hlast
        omega
      · have hj := (List.getElem?_eq_some_iff.mp hfirst).1
        rw [List.length_append, List.length_singleton] at hj
        obtain ⟨between, hbetween, hlow⟩ := hall' (j - 1) (by omega) (by omega)
        rw [hat, Option.some.injEq] at hbetween
        exact hnot (hbetween ▸ hlow)
    exact hlong.trans (Nat.sub_le_sub_left (htimely.le hfirst hfirst' hafter) _)

/-- After a look the clock stands for the looks, and the look is confirmed exactly where it calls
for powering off. -/
theorem Low.Counts.observe (hcounts : low.Counts glances asks)
    (htimely : Timely (glances ++ [glance])) {low' : Low} {confirmed : Bool}
    (hobserve : low.observe glance.now glance.uptime glance.floor = (low', confirmed)) :
    low'.Counts (glances ++ [glance]) asks ∧
      (confirmed = true ↔ CallsFor (glances ++ [glance]) asks glances.length) := by
  by_cases hbelow : glance.Below
  · rw [Low.observe_below hbelow] at hobserve
    cases hobserve
    exact ⟨hcounts.below hbelow, hcounts.callsFor_iff hbelow htimely⟩
  · rw [Low.observe_not_below hbelow] at hobserve
    cases hobserve
    refine ⟨hcounts.not_below hbelow, iff_of_false (by simp) ?_⟩
    rintro ⟨_, _, j, -, -, hle, -, hall, -⟩
    obtain ⟨between, hat, hlow⟩ := hall glances.length hle le_rfl
    rw [getElem?_next, Option.some.injEq] at hat
    exact hbelow (hat ▸ hlow)

/-- Once powering off has been asked for at the last look, the clock starts again. -/
theorem Low.Counts.settle (hasked : ∀ i, i + 1 = glances.length → i ∈ asks)
    (hasks : ∀ a ∈ asks, a < glances.length) : low.settle.Counts glances asks where
  counting := nofun
  idle := fun _ i hlast => .inl (hasked i hlast)
  asks := hasks

/-- A clock not yet counting stands for no looks. -/
theorem Low.Counts.start : Low.new.Counts [] [] where
  counting := nofun
  idle := fun _ i hlast => absurd hlast (by simp)
  asks := nofun

/-- What a look called for is not changed by looks after it, nor by what is asked from it on. -/
theorem callsFor_append {more : List Glance} {later : List ℕ} {k : ℕ} (hk : k < glances.length)
    (hlater : ∀ a ∈ later, k ≤ a) :
    CallsFor (glances ++ more) (asks ++ later) k ↔ CallsFor glances asks k := by
  have hat : ∀ i ≤ k, (glances ++ more)[i]? = glances[i]? := fun i hi =>
    List.getElem?_append_left (by omega)
  have hasks : ∀ j, (∀ a ∈ asks ++ later, a < k → a < j) ↔ ∀ a ∈ asks, a < k → a < j := by
    intro j
    simp only [List.mem_append]
    constructor
    · intro h a ha
      exact h a (.inl ha)
    · rintro h a (ha | ha) hlt
      · exact h a ha hlt
      · exact absurd hlt (hlater a ha).not_gt
  constructor
  · rintro ⟨glance, first, j, hglance, hfirst, hle, hlong, hall, hasked, hup⟩
    rw [hat k le_rfl] at hglance
    rw [hat j hle] at hfirst
    refine ⟨glance, first, j, hglance, hfirst, hle, hlong, ?_, (hasks j).mp hasked, hup⟩
    intro i hfrom hto
    rw [← hat i hto]
    exact hall i hfrom hto
  · rintro ⟨glance, first, j, hglance, hfirst, hle, hlong, hall, hasked, hup⟩
    rw [← hat k le_rfl] at hglance
    rw [← hat j hle] at hfirst
    refine ⟨glance, first, j, hglance, hfirst, hle, hlong, ?_, (hasks j).mpr hasked, hup⟩
    intro i hfrom hto
    rw [hat i hto]
    exact hall i hfrom hto

end Counts

end Bliti.Facts.Power
