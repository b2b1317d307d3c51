import Bliti.Library.Roster
import Bliti.Text
import Mathlib.Data.List.Nodup

/-!
# Batteries - the name each is reported under

A battery is reported under its model where it has one that no other battery shares, and under the
name the operating system knows it as otherwise.  Names are chosen from models first and then
repaired, in one pass from the first battery to the last.

Main results:

- Theorem `toldApart_iff`: when the names tell the batteries apart.
-/

namespace Bliti.Facts.Power

/-- One battery as a source described it: what the operating system knows it as, and its model. -/
structure Battery where
  osName : String
  model : Option String
deriving DecidableEq

/-- What vendors write where they have nothing to say. -/
def placeholders : List String :=
  ["blank", "unknown", "none", "n/a", "invalid", "not available"]

/-- A character in lower case.  Beyond ASCII only the Kelvin sign has a letter of ASCII for its lower
case, so the rest, which no placeholder holds, may stay as they are. -/
def toLowercase (c : Char) : Char :=
  if c = '\u212a' then 'k' else c.toLower

/-- Whether a value a source gave is worth carrying. -/
def meaningful (value : String) : Bool :=
  let trimmed := Text.trim value
  !trimmed.isEmpty && !placeholders.contains (trimmed.map toLowercase)

/-- The name a battery is reported under, but for other batteries' names. -/
def chooseName (batteries : List Battery) (battery : Battery) : String :=
  match battery.model with
  | some model =>
      if meaningful model then
        let shared := batteries.countP fun other => other.model = some model
        if 1 < shared then battery.osName else model
      else battery.osName
  | none => battery.osName

/-- Name a battery as the operating system does, where another is chosen its name. -/
def settle (batteries : List Battery) (chosen : List String) (index : Nat) : List String :=
  match batteries[index]?, chosen[index]? with
  | some battery, some name =>
      if 1 < chosen.count name then chosen.set index battery.osName else chosen
  | _, _ => chosen

/-- The name each battery is reported under. -/
def names (batteries : List Battery) : List String :=
  (List.range batteries.length).foldl (settle batteries) (batteries.map (chooseName batteries))

/-! ## Models that can name a battery -/

section Names

variable {batteries : List Battery} {battery one other : Battery} {i j : Nat}

/-- The model of a battery, where it says something and no other battery shares it. -/
def usableModel (batteries : List Battery) (battery : Battery) : Option String :=
  battery.model.filter fun model =>
    meaningful model && batteries.countP (fun other => other.model = some model) ≤ 1

/-- A name is chosen from the model where that can name a battery. -/
theorem chooseName_eq (batteries : List Battery) (battery : Battery) :
    chooseName batteries battery = (usableModel batteries battery).getD battery.osName := by
  unfold chooseName usableModel
  cases battery.model with
  | none => rfl
  | some model =>
      by_cases hmeaningful : meaningful model = true
      · by_cases hshared : 1 < batteries.countP fun other => other.model = some model
        · simp [Option.filter, hmeaningful, hshared, Nat.not_le.mpr hshared]
        · simp [Option.filter, hmeaningful, hshared, Nat.not_lt.mp hshared]
      · simp [Option.filter, hmeaningful]

/-- A model that can name a battery is its own. -/
theorem model_of_usable {model : String} (husable : usableModel batteries battery = some model) :
    battery.model = some model :=
  (Option.filter_eq_some_iff.mp husable).1

/-- A model that can name a battery is no other's. -/
theorem eq_of_usable {model : String} (hone : batteries[i]? = some one)
    (hother : batteries[j]? = some other) (husable : usableModel batteries one = some model)
    (hmodel : other.model = some model) : i = j := by
  obtain ⟨hheld, huse⟩ := Option.filter_eq_some_iff.mp husable
  have hfew : batteries.countP (fun battery => decide (battery.model = some model)) ≤ 1 :=
    of_decide_eq_true (Bool.and_eq_true_iff.mp huse).2
  exact Roster.eq_of_countP_le_one hfew hone (by simpa using hheld) hother (by simpa using hmodel)

/-- Batteries that have to give up a model that could name them, since it is the name the operating
system knows another battery by, and that one is reported under it: one no model can name, or an
earlier one that has to give its own model up. -/
inductive GivesUp (batteries : List Battery) : Nat → Prop
  | of_system {i j : Nat} {one other : Battery} (hone : batteries[i]? = some one)
      (hother : batteries[j]? = some other)
      (hmodel : usableModel batteries one = some other.osName)
      (hnone : usableModel batteries other = none) : GivesUp batteries i
  | of_earlier {i j : Nat} {one other : Battery} (hone : batteries[i]? = some one)
      (hother : batteries[j]? = some other)
      (hmodel : usableModel batteries one = some other.osName) (hearlier : j < i)
      (hgives : GivesUp batteries j) : GivesUp batteries i

/-- A battery that gives a model up has one that could name it. -/
theorem GivesUp.usable (hgives : GivesUp batteries i) :
    ∃ one model, batteries[i]? = some one ∧ usableModel batteries one = some model := by
  cases hgives with
  | of_system hone hother hmodel hnone => exact ⟨_, _, hone, hmodel⟩
  | of_earlier hone hother hmodel hearlier hgives => exact ⟨_, _, hone, hmodel⟩

/-! ## What a name comes to -/

/-- A name is a battery's: the one the operating system knows it by where it gives its model up, and
the one chosen for it otherwise. -/
structure NamedBy (batteries : List Battery) (i : Nat) (battery : Battery) (name : String) :
    Prop where
  given : GivesUp batteries i → name = battery.osName
  kept : ¬ GivesUp batteries i → name = chooseName batteries battery

/-- What the names come to once those of the first batteries are settled. -/
structure SettledTo (batteries : List Battery) (n : Nat) (chosen : List String) : Prop where
  length : chosen.length = batteries.length
  settled : ∀ i battery name, batteries[i]? = some battery → chosen[i]? = some name → i < n →
    NamedBy batteries i battery name
  unsettled : ∀ i battery name, batteries[i]? = some battery → chosen[i]? = some name → n ≤ i →
    name = chooseName batteries battery

/-- A name is chosen more than once where it is at another place too. -/
theorem one_lt_count_iff {chosen : List String} {name : String} (hname : chosen[i]? = some name) :
    1 < chosen.count name ↔ ∃ j, j ≠ i ∧ chosen[j]? = some name := by
  constructor
  · intro hmany
    obtain ⟨j, held, hne, hj, hheld⟩ := Roster.exists_ne_of_one_lt_countP hmany i
    exact ⟨j, hne, hj.trans (congrArg some (beq_iff_eq.mp hheld))⟩
  · intro hother
    obtain ⟨j, hne, hj⟩ := hother
    by_contra hfew
    have hone : chosen.countP (· == name) ≤ 1 := Nat.not_lt.mp hfew
    exact hne (Roster.eq_of_countP_le_one hone hj (beq_self_eq_true name) hname
      (beq_self_eq_true name))

/-- A battery of which another is chosen the model gives it up to one no model can name. -/
theorem GivesUp.of_chosen {model : String} (hone : batteries[i]? = some one)
    (hother : batteries[j]? = some other) (hne : j ≠ i)
    (husable : usableModel batteries one = some model)
    (hchosen : model = chooseName batteries other) : GivesUp batteries i := by
  rw [chooseName_eq] at hchosen
  cases hnamed : usableModel batteries other with
  | none =>
      rw [hnamed, Option.getD_none] at hchosen
      exact .of_system hone hother (hchosen ▸ husable) hnamed
  | some named =>
      rw [hnamed, Option.getD_some] at hchosen
      have hmodel := model_of_usable hnamed
      rw [← hchosen] at hmodel
      exact absurd (eq_of_usable hone hother husable hmodel).symm hne

/-- The battery whose turn it is finds its model taken where it has to give it up. -/
theorem SettledTo.taken_iff {n : Nat} {chosen : List String} {model : String}
    (h : SettledTo batteries n chosen) (hone : batteries[n]? = some one)
    (husable : usableModel batteries one = some model) :
    (∃ j, j ≠ n ∧ chosen[j]? = some model) ↔ GivesUp batteries n := by
  constructor
  · intro htaken
    obtain ⟨j, hne, hj⟩ := htaken
    obtain ⟨other, hother⟩ : ∃ other, batteries[j]? = some other := by
      have hlt : j < batteries.length := h.length ▸ (List.getElem?_eq_some_iff.mp hj).1
      exact ⟨_, List.getElem?_eq_getElem hlt⟩
    by_cases hearlier : j < n
    · have hnamed := h.settled j other model hother hj hearlier
      by_cases hgives : GivesUp batteries j
      · exact .of_earlier hone hother (hnamed.given hgives ▸ husable) hearlier hgives
      · exact .of_chosen hone hother hne husable (hnamed.kept hgives)
    · have hchosen := h.unsettled j other model hother hj (Nat.not_lt.mp hearlier)
      exact .of_chosen hone hother hne husable hchosen
  · intro hgives
    have hplace {j : Nat} {other : Battery} (hother : batteries[j]? = some other) :
        ∃ name, chosen[j]? = some name := by
      have hlt : j < chosen.length := h.length ▸ (List.getElem?_eq_some_iff.mp hother).1
      exact ⟨_, List.getElem?_eq_getElem hlt⟩
    cases hgives with
    | @of_system _ j held other hheld hother hmodel hnone =>
        obtain rfl : one = held := Option.some.inj (hone.symm.trans hheld)
        obtain rfl : model = other.osName := Option.some.inj (husable.symm.trans hmodel)
        obtain ⟨name, hname⟩ := hplace hother
        have hchosen : chooseName batteries other = other.osName := by
          rw [chooseName_eq, hnone, Option.getD_none]
        have hsystem : name = other.osName := by
          by_cases hearlier : j < n
          · have hnamed := h.settled j other name hother hname hearlier
            by_cases hgives : GivesUp batteries j
            · exact hnamed.given hgives
            · exact (hnamed.kept hgives).trans hchosen
          · exact (h.unsettled j other name hother hname (Nat.not_lt.mp hearlier)).trans hchosen
        refine ⟨j, fun hsame => ?_, hsystem ▸ hname⟩
        subst hsame
        obtain rfl : one = other := Option.some.inj (hone.symm.trans hother)
        rw [hnone] at husable
        cases husable
    | @of_earlier _ j held other hheld hother hmodel hearlier hgives =>
        obtain rfl : one = held := Option.some.inj (hone.symm.trans hheld)
        obtain rfl : model = other.osName := Option.some.inj (husable.symm.trans hmodel)
        obtain ⟨name, hname⟩ := hplace hother
        have hnamed := h.settled j other name hother hname hearlier
        exact ⟨j, Nat.ne_of_lt hearlier, hnamed.given hgives ▸ hname⟩

/-- A battery whose turn it is comes to its name. -/
theorem SettledTo.named {n : Nat} {chosen : List String} {name : String}
    (h : SettledTo batteries n chosen) (hone : batteries[n]? = some one)
    (hname : chosen[n]? = some name) :
    NamedBy batteries n one (if 1 < chosen.count name then one.osName else name) := by
  have hchosen := h.unsettled n one name hone hname (Nat.le_refl n)
  have hsystem (hnone : usableModel batteries one = none) : name = one.osName := by
    rw [hchosen, chooseName_eq, hnone, Option.getD_none]
  have htaken {model : String} (husable : usableModel batteries one = some model) :
      1 < chosen.count name ↔ GivesUp batteries n := by
    obtain rfl : name = model := by
      rw [hchosen, chooseName_eq, husable, Option.getD_some]
    rw [one_lt_count_iff hname, h.taken_iff hone husable]
  constructor
  · intro hgives
    obtain ⟨held, model, hheld, husable⟩ := hgives.usable
    obtain rfl : one = held := Option.some.inj (hone.symm.trans hheld)
    rw [if_pos ((htaken husable).mpr hgives)]
  · intro hkeeps
    cases husable : usableModel batteries one with
    | none => rw [← hchosen, ← hsystem husable, ite_self]
    | some model => rw [if_neg fun hmany => hkeeps ((htaken husable).mp hmany), hchosen]

/-- A turn settles the name of the battery whose turn it is. -/
theorem SettledTo.settle {n : Nat} {chosen : List String} (h : SettledTo batteries n chosen)
    (hn : n < batteries.length) : SettledTo batteries (n + 1) (settle batteries chosen n) := by
  obtain ⟨one, hone⟩ : ∃ one, batteries[n]? = some one := ⟨_, List.getElem?_eq_getElem hn⟩
  obtain ⟨name, hname⟩ : ∃ name, chosen[n]? = some name :=
    ⟨_, List.getElem?_eq_getElem (h.length ▸ hn)⟩
  have hsettle : Power.settle batteries chosen n =
      chosen.set n (if 1 < chosen.count name then one.osName else name) := by
    simp only [Power.settle, hone, hname]
    split
    · rfl
    · obtain ⟨hlt, hheld⟩ := List.getElem?_eq_some_iff.mp hname
      rw [← hheld, List.set_getElem_self]
  have hnamed := h.named hone hname
  rw [hsettle]
  refine ⟨?_, fun i battery given hbattery hgiven hlt => ?_,
    fun i battery given hbattery hgiven hle => ?_⟩
  · rw [List.length_set, h.length]
  · by_cases hi : n = i
    · subst hi
      rw [List.getElem?_set_self (h.length ▸ hn)] at hgiven
      obtain rfl : one = battery := Option.some.inj (hone.symm.trans hbattery)
      rwa [Option.some.inj hgiven] at hnamed
    · rw [List.getElem?_set_ne hi] at hgiven
      exact h.settled i battery given hbattery hgiven (by omega)
  · rw [List.getElem?_set_ne (by omega)] at hgiven
    exact h.unsettled i battery given hbattery hgiven (by omega)

/-- The names are settled once each battery has had its turn. -/
theorem names_settled (batteries : List Battery) :
    SettledTo batteries batteries.length (names batteries) := by
  have hturns : ∀ n ≤ batteries.length, SettledTo batteries n
      ((List.range n).foldl (settle batteries) (batteries.map (chooseName batteries))) := by
    intro n hn
    induction n with
    | zero =>
        refine ⟨List.length_map _, fun i battery name hbattery hname hlt => by omega,
          fun i battery name hbattery hname hle => ?_⟩
        rw [List.range_zero, List.foldl_nil, List.getElem?_map, hbattery] at hname
        exact (Option.some.inj hname).symm
    | succ n ih =>
        rw [List.range_succ, List.foldl_append]
        exact (ih (by omega)).settle (by omega)
  exact hturns _ (Nat.le_refl _)

/-- Each battery comes to its name. -/
theorem names_getElem? (hone : batteries[i]? = some one) :
    ∃ name, (names batteries)[i]? = some name ∧ NamedBy batteries i one name := by
  have hlt : i < batteries.length := (List.getElem?_eq_some_iff.mp hone).1
  have h := names_settled batteries
  have hname := List.getElem?_eq_getElem (h.length ▸ hlt)
  exact ⟨_, hname, h.settled i one _ hone hname hlt⟩

/-! ## Names that tell batteries apart -/

/-- No other battery than the one at a place has a model, or is known by it. -/
def Alone (batteries : List Battery) (i : Nat) (model : String) : Prop :=
  ∀ (j : Nat) (other : Battery), batteries[j]? = some other → j ≠ i →
    other.model ≠ some model ∧ other.osName ≠ model

/-- The names of batteries tell them apart: no two are the same, and a battery is named by its model
where that says something and is neither another's model nor what the operating system knows another
by. -/
structure ToldApart (batteries : List Battery) : Prop where
  distinct : (names batteries).Nodup
  modelled : ∀ (i : Nat) (battery : Battery) (model : String), batteries[i]? = some battery →
    battery.model = some model → meaningful model = true → Alone batteries i model →
    (names batteries)[i]? = some model

/-- A battery whose model is no other's model nor name is named by it. -/
theorem names_modelled {model : String} (hone : batteries[i]? = some one)
    (hmodel : one.model = some model) (hmeaningful : meaningful model = true)
    (halone : Alone batteries i model) : (names batteries)[i]? = some model := by
  have hfew : batteries.countP (fun other : Battery => other.model = some model) ≤ 1 := by
    by_contra hmany
    obtain ⟨j, other, hne, hother, hshared⟩ :=
      Roster.exists_ne_of_one_lt_countP (Nat.not_le.mp hmany) i
    exact (halone j other hother hne).1 (of_decide_eq_true hshared)
  have husable : usableModel batteries one = some model := by
    rw [usableModel, hmodel, Option.filter_some, hmeaningful, decide_eq_true hfew]
    rfl
  have hkeeps : ¬ GivesUp batteries i := by
    have hnamed {j : Nat} {held other : Battery} (hheld : batteries[i]? = some held)
        (hother : batteries[j]? = some other)
        (hgiven : usableModel batteries held = some other.osName) : j = i := by
      obtain rfl : one = held := Option.some.inj (hone.symm.trans hheld)
      by_contra hne
      exact (halone j other hother hne).2 (Option.some.inj (hgiven.symm.trans husable))
    intro hgives
    cases hgives with
    | of_system hheld hother hgiven hnone =>
        obtain rfl := hnamed hheld hother hgiven
        obtain rfl := Option.some.inj (hone.symm.trans hother)
        rw [hnone] at husable
        cases husable
    | of_earlier hheld hother hgiven hearlier =>
        exact absurd (hnamed hheld hother hgiven) (Nat.ne_of_lt hearlier)
  obtain ⟨name, hname, hnamed⟩ := names_getElem? hone
  rw [hname, hnamed.kept hkeeps, chooseName_eq, husable, Option.getD_some]

/-- A battery not named as the operating system knows it is named by its model, which it keeps. -/
theorem NamedBy.cases {name : String} (h : NamedBy batteries i one name) :
    name = one.osName ∧ (GivesUp batteries i ∨ usableModel batteries one = none) ∨
      usableModel batteries one = some name ∧ ¬ GivesUp batteries i := by
  by_cases hgives : GivesUp batteries i
  · exact .inl ⟨h.given hgives, .inl hgives⟩
  · have hkept := h.kept hgives
    rw [chooseName_eq] at hkept
    cases husable : usableModel batteries one with
    | none =>
        rw [husable, Option.getD_none] at hkept
        exact .inl ⟨hkept, .inr rfl⟩
    | some model =>
        rw [husable, Option.getD_some] at hkept
        exact .inr ⟨congrArg some hkept.symm, hgives⟩

/-- A model kept for a name is another battery's only where that one is later and has to give its own
model up. -/
theorem late_of_kept (hone : batteries[i]? = some one) (hother : batteries[j]? = some other)
    (hmodel : usableModel batteries one = some other.osName) (hkeeps : ¬ GivesUp batteries i)
    (hsystem : GivesUp batteries j ∨ usableModel batteries other = none) :
    i < j ∧ GivesUp batteries j := by
  rcases hsystem with hgives | hnone
  · refine ⟨?_, hgives⟩
    rcases Nat.lt_trichotomy i j with hlt | rfl | hgt
    · exact hlt
    · exact absurd hgives hkeeps
    · exact absurd (.of_earlier hone hother hmodel hgt hgives) hkeeps
  · exact absurd (.of_system hone hother hmodel hnone) hkeeps

/-- Batteries that are no more than one place apart are one where the operating system knows them by
distinct names. -/
theorem eq_of_osName (hdistinct : (batteries.map Battery.osName).Nodup)
    (hone : batteries[i]? = some one) (hother : batteries[j]? = some other)
    (hsame : one.osName = other.osName) : i = j := by
  have hlt : i < (batteries.map Battery.osName).length := by
    rw [List.length_map]
    exact (List.getElem?_eq_some_iff.mp hone).1
  apply (List.getElem?_inj hlt hdistinct).mp
  rw [List.getElem?_map, List.getElem?_map, hone, hother, Option.map_some, Option.map_some, hsame]

/-- Batteries are told apart by their names, where the operating system knows them by distinct ones,
exactly where none has a model for its name that is what the operating system knows a later one by,
of a model that one has to give up. -/
theorem toldApart_iff (hdistinct : (batteries.map Battery.osName).Nodup) :
    ToldApart batteries ↔ ∀ (i j : Nat) (one other : Battery), batteries[i]? = some one →
      batteries[j]? = some other → i < j → usableModel batteries one = some other.osName →
      ¬ GivesUp batteries j := by
  constructor
  · intro h i j one other hone hother hlt hmodel hgives
    have hkeeps : ¬ GivesUp batteries i := by
      have hlater {k : Nat} {held late : Battery} (hheld : batteries[i]? = some held)
          (hlate : batteries[k]? = some late)
          (hgiven : usableModel batteries held = some late.osName) : k = j := by
        obtain rfl : one = held := Option.some.inj (hone.symm.trans hheld)
        exact eq_of_osName hdistinct hlate hother (Option.some.inj (hgiven.symm.trans hmodel))
      intro hgiven
      cases hgiven with
      | of_system hheld hlate hnamed hnone =>
          obtain rfl := hlater hheld hlate hnamed
          obtain ⟨held, model, hheld, husable⟩ := hgives.usable
          obtain rfl := Option.some.inj (hlate.symm.trans hheld)
          rw [hnone] at husable
          cases husable
      | of_earlier hheld hlate hnamed hearlier =>
          obtain rfl := hlater hheld hlate hnamed
          omega
    obtain ⟨name, hname, hnamed⟩ := names_getElem? hone
    obtain ⟨given, hgiven, hsystem⟩ := names_getElem? hother
    have hsame : name = given := by
      rw [hnamed.kept hkeeps, chooseName_eq, hmodel, Option.getD_some, hsystem.given hgives]
    have hdiffer := List.nodup_iff_getElem?_ne_getElem?.mp h.distinct i j hlt
      (List.getElem?_eq_some_iff.mp hgiven).1
    exact hdiffer (hname.trans (hsame ▸ hgiven.symm))
  · intro hnone
    refine ⟨List.nodup_iff_getElem?_ne_getElem?.mpr fun i j hlt hj hsame => ?_,
      fun i battery model hbattery hmodel hmeaningful halone =>
        names_modelled hbattery hmodel hmeaningful halone⟩
    rw [(names_settled batteries).length] at hj
    have hone := List.getElem?_eq_getElem (hlt.trans hj)
    have hother := List.getElem?_eq_getElem hj
    obtain ⟨name, hname, hnamed⟩ := names_getElem? hone
    obtain ⟨given, hgiven, hsystem⟩ := names_getElem? hother
    obtain rfl : name = given := by
      rw [hname, hgiven] at hsame
      exact Option.some.inj hsame
    rcases hnamed.cases with ⟨hfirst, hwhy⟩ | ⟨hmodel, hkeeps⟩
    · rcases hsystem.cases with ⟨hsecond, -⟩ | ⟨hmodel, hkeeps⟩
      · exact absurd (eq_of_osName hdistinct hone hother (hfirst.symm.trans hsecond)) hlt.ne
      · rw [hfirst] at hmodel
        exact absurd (late_of_kept hother hone hmodel hkeeps hwhy).1 hlt.le.not_gt
    · rcases hsystem.cases with ⟨hsecond, hwhy⟩ | ⟨hmodel', hkeeps'⟩
      · rw [hsecond] at hmodel
        obtain ⟨-, hgives⟩ := late_of_kept hone hother hmodel hkeeps hwhy
        exact hnone i j _ _ hone hother hlt hmodel hgives
      · exact absurd (eq_of_usable hone hother hmodel (model_of_usable hmodel')) hlt.ne

end Names

/-- A battery whose model is what the operating system knows another by, which has none, is named
apart from it. -/
theorem toldApart_fallsBack :
    ToldApart [{ osName := "BAT0", model := some "hiddev5" },
      { osName := "hiddev5", model := none }] := by
  refine (toldApart_iff (by decide)).mpr fun i j one other hone hother hlt hmodel hgives => ?_
  obtain ⟨held, model, hheld, husable⟩ := hgives.usable
  obtain rfl : other = held := Option.some.inj (hother.symm.trans hheld)
  have hnone : other.model = none := by
    obtain ⟨hj, hplace⟩ := List.getElem?_eq_some_iff.mp hother
    obtain rfl : j = 1 := by
      rw [List.length_cons, List.length_singleton] at hj
      omega
    rw [← hplace]
    rfl
  rw [usableModel, hnone] at husable
  cases husable

/-- Names do not tell batteries apart where one keeps for its name what the operating system knows a
later one by, before that one gives its model up. -/
theorem not_toldApart :
    ¬ ∀ batteries : List Battery, (batteries.map Battery.osName).Nodup → ToldApart batteries := by
  intro hall
  have h := hall [{ osName := "hiddev3", model := some "hiddev4" },
    { osName := "hiddev4", model := some "hiddev5" }, { osName := "hiddev5", model := none }]
    (by decide)
  exact absurd h.distinct (by decide +kernel)

end Bliti.Facts.Power
