import Bliti.Power.Controller

/-!
# Power control - an accepted act is carried out or released

The slot for the one act accepted is taken in one place, going away begins in
another, and the slot is released in a third.  A power stream that ends between
the first two leaves the slot held for nothing; in the runs where none does, the
slot is held only for an act being begun, in progress or carried out.

Main results:

- Theorem `controlling_kept`: the runs in which no call ends before going away
  begins, and no feed is left over from an act that failed, keep every act.
-/

namespace Bliti.Power

open Roster

/-! ## What an accepted act is owed -/

/-- A task is still going away. -/
def GoingAway.InProgress (g : GoingAway) : Prop :=
  g.phase ≠ .carried ∧ g.phase ≠ .released

/-- A feed has announced the act of an announcement, or has closed. -/
def Feed.ToldOf (feed : Feed) (number : Nat) : Prop :=
  feed.closed = true ∨ feed.counted = false ∧ feed.heard = some number

/-- Those the slot may be held for. -/
inductive Holder where
  | serving (call : Nat)
  | shutdown (call : Nat)
  | going (task : Nat)

namespace Controlled

/-- The slot is held for one of those served. -/
def HeldFor (w : Controlled) : Holder → Prop
  | .serving i => ∃ act : Act, w.serving[i]? = some (.accepting act)
  | .shutdown i => w.shutdowns[i]? = some .recording
  | .going t => ∃ g : GoingAway, w.goings[t]? = some g ∧ g.phase ≠ .released

/-- An accepted act is carried out or released: the slot is held for a call about to
begin going away, for a task in progress, or for one that has carried its act out;
for one of them at a time; an act is being carried out only where it was accepted,
every feed open when it was announced has announced it, has closed or has timed out,
and every session is told to end; and once the slot is free, as it is when an act
that failed ends, there is no announcement and no session is to end. -/
structure Kept (w : Controlled) : Prop where
  held : ∀ going : Going, w.controller.accepted = some going →
    (∃ (i : Nat) (act : Act), w.serving[i]? = some (.accepting act) ∧ going = act.asked) ∨
    (∃ i : Nat, w.shutdowns[i]? = some .recording ∧ going = .lowBattery) ∨
    ∃ (t : Nat) (g : GoingAway), w.goings[t]? = some g ∧ g.going = going ∧
      (g.InProgress ∨ g.phase = .carried)
  one : ∀ holder other, w.HeldFor holder → w.HeldFor other → holder = other
  carrying : ∀ (t : Nat) (g : GoingAway), w.goings[t]? = some g → g.phase = .carrying →
    w.controller.accepted = some g.going ∧ w.controller.ending = true ∧
      (g.timedOut = true ∨ ∀ i ∈ g.present, ∃ feed, w.feeds[i]? = some feed ∧
        feed.ToldOf g.number)
  cleared : w.controller.accepted = none →
    w.controller.going = none ∧ w.controller.ending = false
  released : ∀ (t : Nat) (g : GoingAway) (lapsed : Bool) (w' : Controlled),
    w.goings[t]? = some g → g.phase = .resumed → w.advance t lapsed = some w' →
      w'.controller.accepted = none ∧ w'.controller.going = none ∧
        w'.controller.ending = false

/-- A step keeps every act: no call that has taken the slot ends before going away
begins, and an act is announced once every feed that took an earlier one has
closed. -/
def Keeps (w : Controlled) : Step → Prop
  | .sent i delivered => delivered = false → ∀ act, w.serving[i]? ≠ some (.accepting act)
  | .dropped i => ∀ act, w.serving[i]? ≠ some (.accepting act)
  | .recorded _ returned => returned = true
  | .advance t _ => ∀ g, w.goings[t]? = some g → g.phase = .spawned →
      ∀ (i : Nat) (feed : Feed), w.feeds[i]? = some feed → feed.closed = false →
        feed.heard = none
  | _ => True

end Controlled

/-! ## Taking the slot -/

/-- The slot is taken where it was free. -/
theorem Controller.take_ok {c c' : Controller} {going : Going} (htake : c.take going = .ok c') :
    c.accepted = none ∧ c' = { c with accepted := some going } := by
  unfold take at htake
  split at htake
  · cases htake
  · rename_i hfree
    cases htake
    exact ⟨hfree, rfl⟩

/-- An act is accepted where the slot was free, and holds it. -/
theorem Controller.decide_ok {c c' : Controller} {name : String} {act : Act}
    (hdecide : c.decide name = .ok (act, c')) :
    c.accepted = none ∧ c' = { c with accepted := some act.asked } := by
  unfold decide at hdecide
  split at hdecide
  · cases hdecide
  · split at hdecide
    · cases hdecide
    · rename_i htake
      cases hdecide
      exact take_ok htake

/-- A low-battery shutdown is accepted where the slot was free, and holds it. -/
theorem Controller.lowBattery_ok {c c' : Controller} (htaken : c.lowBattery = .ok c') :
    c.accepted = none ∧ c' = { c with accepted := some .lowBattery } := by
  unfold lowBattery at htaken
  split at htaken
  · cases htaken
  · split at htaken
    · cases htaken
    · rename_i htake
      cases htaken
      exact take_ok htake

/-! ## The invariant -/

/-- A serve is about to begin going away. -/
def Serving.holds : Serving → Bool
  | .accepting _ => true
  | _ => false

/-- A low-battery shutdown is about to begin going away. -/
def Shutdown.holds : Shutdown → Bool
  | .recording => true
  | _ => false

/-- A task has not released the slot. -/
def GoingAway.holds (g : GoingAway) : Bool :=
  g.phase != .released

/-- Whether a task's announcement stands. -/
def Phase.announces : Phase → Bool
  | .spawned | .unannounced | .resumed | .released => false
  | _ => true

/-- Whether a task has every session end. -/
def Phase.ends : Phase → Bool
  | .spawned | .telling | .told | .resumed | .released => false
  | _ => true

/-- A feed open at an announcement has announced it, has closed, or is counted until
it does. -/
def Feed.Owed (feed : Feed) (number : Nat) : Prop :=
  feed.closed = true ∨ (feed.heard = none ∧ feed.counted = true) ∨ feed.heard = some number

namespace Controlled

/-- How many the slot is held for. -/
def holders (w : Controlled) : Nat :=
  w.serving.countP Serving.holds + w.shutdowns.countP Shutdown.holds +
    w.goings.countP GoingAway.holds

/-- The invariant: the slot is held for one where it is, whose act it holds and whose
phase the announcement and the ending flag follow; feeds are counted until they have
announced; and those open at an announcement are owed it. -/
structure Orderly (w : Controlled) : Prop where
  holders : w.holders = if w.controller.accepted.isSome then 1 else 0
  serving : ∀ (i : Nat) (act : Act), w.serving[i]? = some (.accepting act) →
    w.controller.accepted = some act.asked
  shutdown : ∀ i : Nat, w.shutdowns[i]? = some .recording →
    w.controller.accepted = some .lowBattery
  going : ∀ (t : Nat) (g : GoingAway), w.goings[t]? = some g → g.holds = true →
    w.controller.accepted = some g.going ∧
      w.controller.going = (if g.phase.announces then some g.going else none) ∧
      w.controller.ending = g.phase.ends
  quiet : w.goings.countP GoingAway.holds = 0 →
    w.controller.going = none ∧ w.controller.ending = false
  counted : w.controller.untold = w.feeds.countP (·.counted)
  feed : ∀ (i : Nat) (feed : Feed), w.feeds[i]? = some feed →
    (feed.closed = true → feed.counted = false) ∧
      (feed.counted = false → feed.closed = true ∨ feed.heard.isSome = true)
  owed : ∀ (t : Nat) (g : GoingAway), w.goings[t]? = some g → g.phase.announces = true →
    g.number = w.announced ∧ ∀ i ∈ g.present, ∃ feed, w.feeds[i]? = some feed ∧
      feed.Owed g.number
  told : ∀ (t : Nat) (g : GoingAway), w.goings[t]? = some g → g.phase.announces = true →
    g.phase ≠ .telling → g.timedOut = true ∨ ∀ i ∈ g.present, ∃ feed,
      w.feeds[i]? = some feed ∧ feed.ToldOf g.number

/-- A controller starts with nothing to keep. -/
theorem new_orderly (acts : List Act) : Orderly (.new acts) where
  holders := rfl
  serving := by simp [new]
  shutdown := by simp [new]
  going := by simp [new]
  quiet := fun _ => ⟨rfl, rfl⟩
  counted := rfl
  feed := by simp [new]
  owed := by simp [new]
  told := by simp [new]

/-- Held for one at most, the slot is held for no two. -/
theorem HeldFor.unique {w : Controlled} (hfew : w.holders ≤ 1) {holder other : Holder}
    (hone : w.HeldFor holder) (hother : w.HeldFor other) : holder = other := by
  simp only [holders] at hfew
  have hserving {i : Nat} (h : w.HeldFor (.serving i)) :
      0 < w.serving.countP Serving.holds := by
    obtain ⟨act, hat⟩ := h
    exact countP_pos_of_getElem? hat rfl
  have hshutdown {i : Nat} (h : w.HeldFor (.shutdown i)) :
      0 < w.shutdowns.countP Shutdown.holds :=
    countP_pos_of_getElem? (p := Shutdown.holds) h rfl
  have hgoing {t : Nat} (h : w.HeldFor (.going t)) :
      ∃ g, w.goings[t]? = some g ∧ g.holds = true := by
    obtain ⟨g, hg, hphase⟩ := h
    exact ⟨g, hg, by simpa [GoingAway.holds] using hphase⟩
  have hgoings {t : Nat} (h : w.HeldFor (.going t)) : 0 < w.goings.countP GoingAway.holds := by
    obtain ⟨g, hg, hholds⟩ := hgoing h
    exact countP_pos_of_getElem? hg hholds
  cases holder with
  | serving i =>
      have hpos := hserving hone
      cases other with
      | serving j =>
          obtain ⟨act, hi⟩ := hone
          obtain ⟨act', hj⟩ := hother
          rw [eq_of_countP_le_one (p := Serving.holds) (by omega) hi rfl hj rfl]
      | shutdown j =>
          have hpos' := hshutdown hother
          omega
      | going t =>
          have hpos' := hgoings hother
          omega
  | shutdown i =>
      have hpos := hshutdown hone
      cases other with
      | serving j =>
          have hpos' := hserving hother
          omega
      | shutdown j =>
          rw [eq_of_countP_le_one (p := Shutdown.holds) (by omega) hone rfl hother rfl]
      | going t =>
          have hpos' := hgoings hother
          omega
  | going t =>
      have hpos := hgoings hone
      cases other with
      | serving j =>
          have hpos' := hserving hother
          omega
      | shutdown j =>
          have hpos' := hshutdown hother
          omega
      | going t' =>
          obtain ⟨g, hg, hholds⟩ := hgoing hone
          obtain ⟨g', hg', hholds'⟩ := hgoing hother
          rw [eq_of_countP_le_one (p := GoingAway.holds) (by omega) hg hholds hg' hholds']

namespace Orderly

variable {w w' : Controlled}

/-- A task that has not released the slot is the only one it is held for. -/
theorem sole (horderly : w.Orderly) {t : Nat} {g : GoingAway} (hg : w.goings[t]? = some g)
    (hholds : g.holds = true) : w.serving.countP Serving.holds = 0 ∧
      w.shutdowns.countP Shutdown.holds = 0 ∧ w.goings.countP GoingAway.holds = 1 := by
  have hpos := countP_pos_of_getElem? hg hholds
  have hcount := horderly.holders
  rw [(horderly.going t g hg hholds).1] at hcount
  simp only [Controlled.holders, Option.isSome_some, if_true] at hcount
  omega

/-- Where the slot is free, it is held for none. -/
theorem free (horderly : w.Orderly) (hfree : w.controller.accepted = none) :
    w.serving.countP Serving.holds = 0 ∧ w.shutdowns.countP Shutdown.holds = 0 ∧
      w.goings.countP GoingAway.holds = 0 := by
  have hcount := horderly.holders
  rw [hfree] at hcount
  simp only [Controlled.holders, Option.isSome_none, Bool.false_eq_true, if_false] at hcount
  omega

/-- The announcement of a task that has released the slot does not stand. -/
theorem holds_of_announces {g : GoingAway} (hannounces : g.phase.announces = true) :
    g.holds = true := by
  unfold GoingAway.holds
  cases hphase : g.phase <;> simp_all [Phase.announces]

/-! ### What a step may leave -/

/-- Feeds that come and go keep the invariant, where each open at an announcement is
still owed it, or told of it. -/
theorem feeds (horderly : w.Orderly) {feeds : List Feed} {untold : Nat}
    (hcounted : untold = feeds.countP (·.counted))
    (hfeed : ∀ (i : Nat) (feed : Feed), feeds[i]? = some feed →
      (feed.closed = true → feed.counted = false) ∧
        (feed.counted = false → feed.closed = true ∨ feed.heard.isSome = true))
    (hkeep : ∀ (i : Nat) (feed : Feed), w.feeds[i]? = some feed → ∃ feed' : Feed,
      feeds[i]? = some feed' ∧ (feed.Owed w.announced → feed'.Owed w.announced) ∧
        ∀ number, feed.ToldOf number → feed'.ToldOf number) :
    Orderly { w with
      controller := { w.controller with untold := untold }
      feeds := feeds } where
  holders := horderly.holders
  serving := horderly.serving
  shutdown := horderly.shutdown
  going := horderly.going
  quiet := horderly.quiet
  counted := hcounted
  feed := hfeed
  owed := by
    intro t g hg hannounces
    obtain ⟨hnumber, hpresent⟩ := horderly.owed t g hg hannounces
    refine ⟨hnumber, ?_⟩
    intro i hi
    obtain ⟨feed, hfeed, howed⟩ := hpresent i hi
    obtain ⟨feed', hfeed', hstill, -⟩ := hkeep i feed hfeed
    rw [hnumber] at howed ⊢
    exact ⟨feed', hfeed', hstill howed⟩
  told := by
    intro t g hg hannounces hphase
    rcases horderly.told t g hg hannounces hphase with hlate | hpresent
    · exact .inl hlate
    · right
      intro i hi
      obtain ⟨feed, hfeed, htold⟩ := hpresent i hi
      obtain ⟨feed', hfeed', -, hstill⟩ := hkeep i feed hfeed
      exact ⟨feed', hfeed', hstill g.number htold⟩

/-- A task moving on keeps the invariant, where the slot, the announcement and the
ending flag follow its phase. -/
theorem moved (horderly : w.Orderly) {t : Nat} {g : GoingAway} (g' : GoingAway)
    (announced : Nat) (hg : w.goings[t]? = some g) (hholds : g.holds = true) {c : Controller}
    (huntold : c.untold = w.controller.untold)
    (hslot : c.accepted = if g'.holds then some g'.going else none)
    (hgoing : c.going = if g'.phase.announces then some g'.going else none)
    (hending : c.ending = g'.phase.ends)
    (howed : g'.phase.announces = true → g'.number = announced ∧ ∀ i ∈ g'.present,
      ∃ feed, w.feeds[i]? = some feed ∧ feed.Owed g'.number)
    (htold : g'.phase.announces = true → g'.phase ≠ .telling → g'.timedOut = true ∨
      ∀ i ∈ g'.present, ∃ feed, w.feeds[i]? = some feed ∧ feed.ToldOf g'.number) :
    Orderly { w with
      controller := c
      goings := w.goings.set t g'
      announced := announced } := by
  obtain ⟨hserving, hshutdowns, hgoings⟩ := horderly.sole hg hholds
  have hcount := countP_set_add hg GoingAway.holds g'
  rw [if_pos hholds, hgoings] at hcount
  -- The task is the only one that holds the slot, so the only one that announces.
  have hother : ∀ (j : Nat) (o : GoingAway), (w.goings.set t g')[j]? = some o →
      o.holds = true → j = t ∧ o = g' := by
    intro j o ho hoholds
    rcases getElem?_set_cases ho with hsame | ⟨hne, hbefore⟩
    · exact hsame
    · exact absurd (eq_of_countP_le_one (by omega) hbefore hoholds hg hholds) hne
  refine ⟨?_, ?_, ?_, ?_, ?_, ?_, horderly.feed, ?_, ?_⟩
  · change w.serving.countP Serving.holds + w.shutdowns.countP Shutdown.holds +
      (w.goings.set t g').countP GoingAway.holds = if c.accepted.isSome then 1 else 0
    rw [hslot, hserving, hshutdowns]
    cases hafter : g'.holds
    · simp [hafter] at hcount ⊢
      exact hcount
    · simp [hafter] at hcount ⊢
      exact hcount
  · intro i act hat
    cases eq_false_of_countP_eq_zero hserving hat
  · intro i hat
    cases eq_false_of_countP_eq_zero hshutdowns hat
  · intro j o ho hoholds
    obtain ⟨-, rfl⟩ := hother j o ho hoholds
    refine ⟨?_, hgoing, hending⟩
    change c.accepted = some o.going
    rw [hslot, if_pos hoholds]
  · intro hzero
    change (w.goings.set t g').countP GoingAway.holds = 0 at hzero
    have hafter : g'.holds = false := by
      cases hafter : g'.holds
      · rfl
      · rw [hafter] at hcount
        simp only [if_true] at hcount
        omega
    have hreleased : g'.phase = .released := by simpa [GoingAway.holds] using hafter
    rw [hreleased] at hgoing hending
    exact ⟨hgoing, hending⟩
  · change c.untold = _
    rw [huntold]
    exact horderly.counted
  · intro j o ho hannounces
    obtain ⟨-, rfl⟩ := hother j o ho (holds_of_announces hannounces)
    exact howed hannounces
  · intro j o ho hannounces hphase
    obtain ⟨-, rfl⟩ := hother j o ho (holds_of_announces hannounces)
    exact htold hannounces hphase

/-- Going away begun for the call that took the slot keeps the invariant. -/
theorem begun (horderly : w.Orderly) {going : Going}
    (haccepted : w.controller.accepted = some going) {serving : List Serving}
    {shutdowns : List Shutdown} (hserving : serving.countP Serving.holds = 0)
    (hshutdowns : shutdowns.countP Shutdown.holds = 0)
    (hgoings : w.goings.countP GoingAway.holds = 0) :
    Orderly ({ w with serving := serving, shutdowns := shutdowns }.go going) := by
  obtain ⟨hquietGoing, hquietEnding⟩ := horderly.quiet hgoings
  have hothers : ∀ (t : Nat) (g : GoingAway), (w.goings ++ [.begin going])[t]? = some g →
      g.holds = true → g = .begin going := by
    intro t g hg hholds
    rcases getElem?_append_cases hg with ⟨-, hlast⟩ | hbefore
    · exact hlast
    · rw [eq_false_of_countP_eq_zero hgoings hbefore] at hholds
      cases hholds
  refine ⟨?_, ?_, ?_, ?_, ?_, horderly.counted, horderly.feed, ?_, ?_⟩
  · change serving.countP Serving.holds + shutdowns.countP Shutdown.holds +
      (w.goings ++ [GoingAway.begin going]).countP GoingAway.holds =
        if w.controller.accepted.isSome then 1 else 0
    rw [haccepted, countP_append, hserving, hshutdowns, hgoings]
    rfl
  · intro i act hat
    cases eq_false_of_countP_eq_zero hserving hat
  · intro i hat
    cases eq_false_of_countP_eq_zero hshutdowns hat
  · intro t g hg hholds
    rw [hothers t g hg hholds]
    exact ⟨haccepted, hquietGoing, hquietEnding⟩
  · intro _
    exact ⟨hquietGoing, hquietEnding⟩
  · intro t g hg hannounces
    rw [hothers t g hg (holds_of_announces hannounces)] at hannounces
    cases hannounces
  · intro t g hg hannounces _
    rw [hothers t g hg (holds_of_announces hannounces)] at hannounces
    cases hannounces

/-- The slot taken for a call keeps the invariant, where it was free. -/
theorem taken (horderly : w.Orderly) (hfree : w.controller.accepted = none) {going : Going}
    {serving : List Serving} {shutdowns : List Shutdown}
    (hone : serving.countP Serving.holds + shutdowns.countP Shutdown.holds = 1)
    (hserving : ∀ (i : Nat) (act : Act), serving[i]? = some (.accepting act) →
      going = act.asked)
    (hshutdown : ∀ i : Nat, shutdowns[i]? = some .recording → going = .lowBattery) :
    Orderly { w with
      controller := { w.controller with accepted := some going }
      serving := serving
      shutdowns := shutdowns } := by
  obtain ⟨-, -, hgoings⟩ := horderly.free hfree
  refine ⟨?_, ?_, ?_, ?_, horderly.quiet, horderly.counted, horderly.feed, horderly.owed,
    horderly.told⟩
  · change serving.countP Serving.holds + shutdowns.countP Shutdown.holds +
      w.goings.countP GoingAway.holds = 1
    omega
  · intro i act hat
    exact congrArg some (hserving i act hat)
  · intro i hat
    exact congrArg some (hshutdown i hat)
  · intro t g hg hholds
    rw [eq_false_of_countP_eq_zero hgoings hg] at hholds
    cases hholds

/-- A power stream that neither takes the slot nor held it keeps the invariant. -/
theorem served (horderly : w.Orderly) {serving : List Serving}
    (hcount : serving.countP Serving.holds = w.serving.countP Serving.holds)
    (hserving : ∀ (i : Nat) (act : Act), serving[i]? = some (.accepting act) →
      w.serving[i]? = some (.accepting act)) :
    Orderly { w with serving := serving } := by
  refine ⟨?_, ?_, horderly.shutdown, horderly.going, horderly.quiet, horderly.counted,
    horderly.feed, horderly.owed, horderly.told⟩
  · have hbefore := horderly.holders
    simp only [Controlled.holders] at hbefore ⊢
    rw [hcount]
    exact hbefore
  · intro i act hat
    exact horderly.serving i act (hserving i act hat)

/-! ### Feeds -/

/-- A feed that opens is counted, and owed nothing announced before. -/
theorem feedOpened (horderly : w.Orderly) : Orderly w.feedOpened := by
  refine horderly.feeds ?_ ?_ ?_
  · rw [countP_append, ← horderly.counted]
    rfl
  · intro i feed hfeed
    rcases getElem?_append_cases hfeed with ⟨-, rfl⟩ | hbefore
    · exact ⟨nofun, nofun⟩
    · exact horderly.feed i feed hbefore
  · intro i feed hfeed
    exact ⟨feed, getElem?_append_of_some hfeed, id, fun _ => id⟩

/-- A feed set in place keeps the invariant, where it is still owed what it was, or
told of it. -/
theorem setFeed (horderly : w.Orderly) {i : Nat} {feed feed' : Feed}
    (hfeed : w.feeds[i]? = some feed) {untold : Nat}
    (hcounted : untold + (if feed.counted then 1 else 0) =
      w.controller.untold + (if feed'.counted then 1 else 0))
    (hclosed : feed'.closed = true → feed'.counted = false)
    (hheard : feed'.counted = false → feed'.closed = true ∨ feed'.heard.isSome = true)
    (howed : feed.Owed w.announced → feed'.Owed w.announced)
    (htold : ∀ number, feed.ToldOf number → feed'.ToldOf number) :
    Orderly { w with
      controller := { w.controller with untold := untold }
      feeds := w.feeds.set i feed' } := by
  refine horderly.feeds ?_ ?_ ?_
  · have hcount : (w.feeds.set i feed').countP (·.counted) + (if feed.counted then 1 else 0) =
        w.feeds.countP (·.counted) + (if feed'.counted then 1 else 0) :=
      countP_set_add hfeed _ feed'
    rw [← horderly.counted] at hcount
    omega
  · intro j other hother
    rcases getElem?_set_cases hother with ⟨-, rfl⟩ | ⟨-, hbefore⟩
    · exact ⟨hclosed, hheard⟩
    · exact horderly.feed j other hbefore
  · intro j other hother
    by_cases hij : i = j
    · subst hij
      obtain rfl : feed = other := Option.some.inj (hfeed.symm.trans hother)
      refine ⟨feed', ?_, howed, htold⟩
      rw [List.getElem?_set_self (List.getElem?_eq_some_iff.mp hfeed).1]
    · refine ⟨other, ?_, id, fun _ => id⟩
      rw [List.getElem?_set_ne hij]
      exact hother

/-- A feed that takes the act to announce is owed the one announced last. -/
theorem feedHears (horderly : w.Orderly) {i : Nat} (htaken : w.feedHears i = some w') :
    w'.Orderly := by
  unfold Controlled.feedHears at htaken
  split at htaken
  · rename_i feed _ hfeed _
    split at htaken
    · cases htaken
    · rename_i hopen
      cases htaken
      simp only [Bool.or_eq_true, not_or, Bool.not_eq_true, Option.isSome_eq_false_iff,
        Option.isNone_iff_eq_none] at hopen
      obtain ⟨hclosed, hheard⟩ := hopen
      have hkept := horderly.feed i feed hfeed
      refine horderly.setFeed hfeed rfl hkept.1 ?_ ?_ ?_
      · intro _
        exact .inr rfl
      · intro _
        exact .inr (.inr rfl)
      · intro number htold
        rcases htold with hgone | ⟨-, hsome⟩
        · rw [hclosed] at hgone
          cases hgone
        · rw [hheard] at hsome
          cases hsome
  · cases htaken

/-- A feed no longer counted has announced what it took, or has closed. -/
theorem uncount (horderly : w.Orderly) {i : Nat} {feed : Feed} {closed : Bool}
    (hfeed : w.feeds[i]? = some feed) (hopen : feed.closed = false)
    (htold : closed = true ∨ feed.heard.isSome = true) :
    Orderly (w.uncount i feed closed) := by
  have hpos : feed.counted = true → 0 < w.controller.untold := by
    intro hcounted
    rw [horderly.counted]
    exact countP_pos_of_getElem? hfeed hcounted
  refine horderly.setFeed hfeed ?_ (fun _ => rfl) (fun _ => htold) ?_ ?_
  · cases hcounted : feed.counted
    · simp
    · have huntold := hpos hcounted
      simp only [if_true, Bool.false_eq_true, if_false]
      omega
  · intro howed
    rcases howed with hgone | ⟨hnone, -⟩ | hsome
    · rw [hopen] at hgone
      cases hgone
    · rcases htold with hclosed | hheard
      · exact .inl hclosed
      · rw [hnone] at hheard
        cases hheard
    · exact .inr (.inr hsome)
  · intro number hbefore
    rcases hbefore with hgone | ⟨-, hsome⟩
    · rw [hopen] at hgone
      cases hgone
    · exact .inr ⟨rfl, hsome⟩

/-- A feed that has handed the act to its link keeps the invariant. -/
theorem feedTold (horderly : w.Orderly) {i : Nat} (htaken : w.feedTold i = some w') :
    w'.Orderly := by
  unfold Controlled.feedTold at htaken
  split at htaken
  · rename_i feed hfeed
    split at htaken
    · cases htaken
    · rename_i hopen
      cases htaken
      simp only [Bool.or_eq_true, not_or, Bool.not_eq_true, Option.isNone_eq_false_iff] at hopen
      exact horderly.uncount hfeed hopen.1 (.inr hopen.2)
  · cases htaken

theorem feedClosed (horderly : w.Orderly) {i : Nat} (htaken : w.feedClosed i = some w') :
    w'.Orderly := by
  unfold Controlled.feedClosed at htaken
  split at htaken
  · rename_i feed hfeed
    split at htaken
    · cases htaken
    · rename_i hopen
      cases htaken
      exact horderly.uncount hfeed (by simpa using hopen) (.inl rfl)
  · cases htaken

theorem sessions (horderly : w.Orderly) (sessions : Nat) :
    Orderly { w with controller := { w.controller with sessions := sessions } } :=
  ⟨horderly.holders, horderly.serving, horderly.shutdown, horderly.going, horderly.quiet,
    horderly.counted, horderly.feed, horderly.owed, horderly.told⟩

/-! ### Power streams and shutdowns -/

/-- A power stream that is about to begin nothing, before and after, keeps the
invariant. -/
theorem setServing (horderly : w.Orderly) {i : Nat} {before after : Serving}
    (hat : w.serving[i]? = some before) (hbefore : before.holds = false)
    (hafter : after.holds = false) : Orderly { w with serving := w.serving.set i after } := by
  refine horderly.served ?_ ?_
  · have hcount := countP_set_add hat Serving.holds after
    rw [hbefore, hafter] at hcount
    omega
  · intro j act hget
    rcases getElem?_set_cases hget with ⟨-, rfl⟩ | ⟨-, hother⟩
    · cases hafter
    · exact hother

/-- A power stream that opens keeps the invariant. -/
theorem opened (horderly : w.Orderly) :
    Orderly { w with serving := w.serving ++ [.listing] } := by
  refine horderly.served ?_ ?_
  · rw [countP_append]
    rfl
  · intro i act hget
    rcases getElem?_append_cases hget with ⟨-, hlast⟩ | hbefore
    · cases hlast
    · exact hbefore

theorem sent (horderly : w.Orderly) {i : Nat} {delivered : Bool}
    (hkeeps : w.Keeps (.sent i delivered)) (htaken : w.sent i delivered = some w') :
    w'.Orderly := by
  have hanswered (before : Serving) (hat : w.serving[i]? = some before)
      (hbefore : before.holds = false)
      (htaken : some { w with
        serving := w.serving.set i (if delivered then .reading else .ended) } = some w') :
      w'.Orderly := by
    cases htaken
    exact horderly.setServing hat hbefore (by cases delivered <;> rfl)
  unfold Controlled.sent at htaken
  split at htaken
  · rename_i hat
    exact hanswered _ hat rfl htaken
  · rename_i hat
    exact hanswered _ hat rfl htaken
  · rename_i act hat
    cases delivered
    · exact absurd hat (hkeeps rfl act)
    · cases htaken
      have haccepted := horderly.serving i act hat
      have hcount := horderly.holders
      have hset := countP_set_add hat Serving.holds .reading
      have hpos := countP_pos_of_getElem? (p := Serving.holds) hat rfl
      rw [haccepted] at hcount
      simp only [Controlled.holders, Option.isSome_some, if_true] at hcount
      simp only [Serving.holds, if_true, Bool.false_eq_true, if_false] at hset
      exact horderly.begun haccepted (by omega) (by omega) (by omega)
  · cases htaken

theorem received (horderly : w.Orderly) {i : Nat} {message : Received}
    (htaken : w.received i message = some w') : w'.Orderly := by
  unfold Controlled.received at htaken
  split at htaken
  · rename_i hat
    split at htaken
    · rename_i name
      split at htaken
      · rename_i act controller hdecide
        cases htaken
        obtain ⟨hfree, rfl⟩ := Controller.decide_ok hdecide
        obtain ⟨hserving, hshutdowns, -⟩ := horderly.free hfree
        have hset := countP_set_add hat Serving.holds (.accepting act)
        simp only [Serving.holds, if_true, Bool.false_eq_true, if_false] at hset
        refine horderly.taken hfree (by omega) ?_ ?_
        · intro j other hget
          rcases getElem?_set_cases hget with ⟨-, hsame⟩ | ⟨-, hother⟩
          · cases hsame
            rfl
          · cases eq_false_of_countP_eq_zero hserving hother
        · intro j hget
          cases eq_false_of_countP_eq_zero hshutdowns hget
      · cases htaken
        exact horderly.setServing hat rfl rfl
    · cases htaken
      exact horderly
    · cases htaken
      exact horderly.setServing hat rfl rfl
    · cases htaken
      exact horderly.setServing hat rfl rfl
  · cases htaken

theorem dropped (horderly : w.Orderly) {i : Nat} (hkeeps : w.Keeps (.dropped i))
    (htaken : w.dropped i = some w') : w'.Orderly := by
  unfold Controlled.dropped at htaken
  split at htaken
  · cases htaken
  · cases htaken
  · rename_i serving _ hat
    cases htaken
    have hbefore : serving.holds = false := by
      cases serving with
      | accepting act => exact absurd hat (hkeeps act)
      | listing => rfl
      | reading => rfl
      | refusing refusal => rfl
      | ended => rfl
    exact horderly.setServing hat hbefore rfl

theorem lowBattery (horderly : w.Orderly) : w.lowBattery.Orderly := by
  unfold Controlled.lowBattery
  split
  · rename_i controller htake
    obtain ⟨hfree, rfl⟩ := Controller.lowBattery_ok htake
    obtain ⟨hserving, hshutdowns, -⟩ := horderly.free hfree
    refine horderly.taken hfree ?_ ?_ ?_
    · rw [countP_append, hserving, hshutdowns]
      rfl
    · intro j act hget
      cases eq_false_of_countP_eq_zero hserving hget
    · intro j _
      rfl
  · refine ⟨?_, horderly.serving, ?_, horderly.going, horderly.quiet, horderly.counted,
      horderly.feed, horderly.owed, horderly.told⟩
    · have hbefore := horderly.holders
      simp only [Controlled.holders] at hbefore ⊢
      rw [countP_append]
      exact hbefore
    · intro j hget
      rcases getElem?_append_cases hget with ⟨-, hlast⟩ | hbefore
      · cases hlast
      · exact horderly.shutdown j hbefore

theorem recorded (horderly : w.Orderly) {i : Nat} (htaken : w.recorded i true = some w') :
    w'.Orderly := by
  unfold Controlled.recorded at htaken
  split at htaken
  · rename_i hat
    cases htaken
    have haccepted := horderly.shutdown i hat
    have hcount := horderly.holders
    have hset := countP_set_add hat Shutdown.holds .begun
    have hpos := countP_pos_of_getElem? (p := Shutdown.holds) hat rfl
    rw [haccepted] at hcount
    simp only [Controlled.holders, Option.isSome_some, if_true] at hcount
    simp only [Shutdown.holds, if_true, Bool.false_eq_true, if_false] at hset
    exact horderly.begun haccepted (by omega) (by omega) (by omega)
  · cases htaken

/-! ### Going away -/

/-- A task that moves to a phase with its announcement as it was keeps the
invariant. -/
theorem goTo (horderly : w.Orderly) {t : Nat} {g g' : GoingAway} {phase : Phase}
    (hg : w.goings[t]? = some g) (hholds : g.holds = true)
    (hsame : g' = { g with timedOut := g'.timedOut }) {c : Controller}
    (huntold : c.untold = w.controller.untold)
    (hslot : c.accepted = if phase = .released then none else some g.going)
    (hgoing : c.going = if phase.announces then some g.going else none)
    (hending : c.ending = phase.ends)
    (hannounces : phase.announces = true → g.phase.announces = true)
    (htold : phase.announces = true → g'.timedOut = true ∨ ∀ i ∈ g.present, ∃ feed,
      w.feeds[i]? = some feed ∧ feed.ToldOf g.number) :
    Orderly ({ w with controller := c }.goTo t g' phase) := by
  have hact : g'.going = g.going := by rw [hsame]
  have hnumber : g'.number = g.number := by rw [hsame]
  have hpresent : g'.present = g.present := by rw [hsame]
  refine horderly.moved { g' with phase := phase } w.announced hg hholds huntold ?_ ?_ hending
    ?_ ?_
  · simp only [GoingAway.holds, bne_iff_ne, ne_eq, ite_not]
    rw [hslot, hact]
  · simp only
    rw [hgoing, hact]
  · intro hstands
    simp only
    rw [hnumber, hpresent]
    exact horderly.owed t g hg (hannounces hstands)
  · intro hstands _
    simp only
    rw [hnumber, hpresent]
    exact htold hstands

/-- A task that announces its act keeps the invariant, where no feed open took an
earlier one. -/
theorem announce (horderly : w.Orderly) {t : Nat} {g : GoingAway}
    (hg : w.goings[t]? = some g) (hphase : g.phase = .spawned)
    (hfresh : ∀ (i : Nat) (feed : Feed), w.feeds[i]? = some feed → feed.closed = false →
      feed.heard = none) : Orderly (w.announce t g) := by
  have hholds : g.holds = true := by simp [GoingAway.holds, hphase]
  obtain ⟨haccepted, -, hending⟩ := horderly.going t g hg hholds
  refine horderly.moved
    { g with phase := .telling, number := w.announced + 1, present := w.openFeeds }
    (w.announced + 1) hg hholds rfl haccepted rfl ?_ ?_ ?_
  · simp only
    rw [hending, hphase]
    rfl
  · intro _
    refine ⟨rfl, ?_⟩
    intro i hi
    obtain ⟨hlt, hopen⟩ := List.mem_filter.mp hi
    obtain ⟨feed, hfeed, hopen⟩ := (Option.any_eq_true _ _).mp hopen
    refine ⟨feed, hfeed, .inr (.inl ?_)⟩
    have hheard := hfresh i feed hfeed (by simpa using hopen)
    refine ⟨hheard, ?_⟩
    by_contra huncounted
    rcases (horderly.feed i feed hfeed).2 (by simpa using huncounted) with hclosed | hsome
    · simp [hclosed] at hopen
    · simp [hheard] at hsome
  · intro _ htelling
    exact absurd rfl htelling

/-- Where no feed is counted, each open at an announcement has announced it or
closed. -/
theorem toldOf_of_untold (horderly : w.Orderly) (huntold : w.controller.untold = 0)
    {t : Nat} {g : GoingAway} (hg : w.goings[t]? = some g) (hphase : g.phase.announces = true) :
    ∀ i ∈ g.present, ∃ feed, w.feeds[i]? = some feed ∧ feed.ToldOf g.number := by
  intro i hi
  obtain ⟨feed, hfeed, howed⟩ := (horderly.owed t g hg hphase).2 i hi
  have hnone : w.feeds.countP (·.counted) = 0 := by rw [← horderly.counted, huntold]
  have huncounted : feed.counted = false := eq_false_of_countP_eq_zero hnone hfeed
  refine ⟨feed, hfeed, ?_⟩
  rcases howed with hclosed | ⟨-, hcounted⟩ | hheard
  · exact .inl hclosed
  · rw [huncounted] at hcounted
    cases hcounted
  · exact .inr ⟨huncounted, hheard⟩

/-- A task going on keeps the invariant. -/
theorem advance (horderly : w.Orderly) {t : Nat} {lapsed : Bool}
    (hkeeps : w.Keeps (.advance t lapsed)) (htaken : w.advance t lapsed = some w') :
    w'.Orderly := by
  unfold Controlled.advance at htaken
  split at htaken
  · cases htaken
  · rename_i g hg
    have hholds (hphase : g.phase ≠ .released) : g.holds = true := by
      simpa [GoingAway.holds] using hphase
    split at htaken <;> rename_i hphase
    · cases htaken
      exact horderly.announce hg hphase (hkeeps g hg hphase)
    · -- Every feed is being told.
      have hholds := hholds (by simp [hphase])
      obtain ⟨haccepted, hgoing, hending⟩ := horderly.going t g hg hholds
      rw [hphase] at hgoing hending
      split at htaken
      · rename_i huntold
        cases htaken
        exact horderly.goTo (c := w.controller) hg hholds rfl rfl haccepted hgoing hending
          (fun _ => by rw [hphase]; rfl)
          (fun _ => .inr (horderly.toldOf_of_untold huntold hg (by rw [hphase]; rfl)))
      · split at htaken
        · cases htaken
          exact horderly.goTo (c := w.controller) hg hholds rfl rfl haccepted hgoing hending
            (fun _ => by rw [hphase]; rfl) (fun _ => .inl rfl)
        · cases htaken
    · -- Every session is to be ended.
      have hholds := hholds (by simp [hphase])
      obtain ⟨haccepted, hgoing, hending⟩ := horderly.going t g hg hholds
      have hannounces : g.phase.announces = true := by rw [hphase]; rfl
      have htold := horderly.told t g hg hannounces (by simp [hphase])
      rw [hphase] at hgoing
      cases htaken
      exact horderly.goTo (c := { w.controller with ending := true }) hg hholds rfl rfl
        haccepted hgoing rfl (fun _ => hannounces) (fun _ => htold)
    · -- Every session is ending.
      have hholds := hholds (by simp [hphase])
      obtain ⟨haccepted, hgoing, hending⟩ := horderly.going t g hg hholds
      have hannounces : g.phase.announces = true := by rw [hphase]; rfl
      have htold := horderly.told t g hg hannounces (by simp [hphase])
      rw [hphase] at hgoing hending
      split at htaken
      · cases htaken
        exact horderly.goTo (c := w.controller) hg hholds rfl rfl haccepted hgoing hending
          (fun _ => hannounces) (fun _ => htold)
      · cases htaken
    · -- The connections are being dropped.
      have hholds := hholds (by simp [hphase])
      obtain ⟨haccepted, hgoing, hending⟩ := horderly.going t g hg hholds
      have hannounces : g.phase.announces = true := by rw [hphase]; rfl
      have htold := horderly.told t g hg hannounces (by simp [hphase])
      rw [hphase] at hgoing hending
      cases htaken
      exact horderly.goTo (c := w.controller) hg hholds rfl rfl haccepted hgoing hending
        (fun _ => hannounces) (fun _ => htold)
    · -- The announcement is to be cleared.
      have hholds := hholds (by simp [hphase])
      obtain ⟨haccepted, -, hending⟩ := horderly.going t g hg hholds
      rw [hphase] at hending
      cases htaken
      exact horderly.goTo (c := { w.controller with going := none }) hg hholds rfl rfl haccepted
        rfl hending nofun nofun
    · -- The ending flag is to be cleared.
      have hholds := hholds (by simp [hphase])
      obtain ⟨haccepted, hgoing, -⟩ := horderly.going t g hg hholds
      rw [hphase] at hgoing
      cases htaken
      exact horderly.goTo (c := { w.controller with ending := false }) hg hholds rfl rfl haccepted
        hgoing rfl nofun nofun
    · -- The slot is to be released.
      have hholds := hholds (by simp [hphase])
      obtain ⟨-, hgoing, hending⟩ := horderly.going t g hg hholds
      rw [hphase] at hgoing hending
      cases htaken
      exact horderly.goTo (c := { w.controller with accepted := none }) hg hholds rfl rfl rfl
        hgoing hending nofun nofun
    · cases htaken
    · cases htaken
    · cases htaken

theorem carriedOut (horderly : w.Orderly) {t : Nat} {result : Except String Unit}
    (htaken : w.carriedOut t result = some w') : w'.Orderly := by
  unfold Controlled.carriedOut at htaken
  split at htaken
  · cases htaken
  · rename_i g hg
    split at htaken
    · rename_i hphase
      have hholds : g.holds = true := by simp [GoingAway.holds, hphase]
      obtain ⟨haccepted, hgoing, hending⟩ := horderly.going t g hg hholds
      have hannounces : g.phase.announces = true := by rw [hphase]; rfl
      have htold := horderly.told t g hg hannounces (by simp [hphase])
      rw [hphase] at hgoing hending
      cases htaken
      cases result with
      | ok done =>
          exact horderly.goTo (c := w.controller) hg hholds rfl rfl haccepted hgoing hending
            (fun _ => hannounces) (fun _ => htold)
      | error reason =>
          exact horderly.goTo (c := w.controller) hg hholds rfl rfl haccepted hgoing hending
            (fun _ => hannounces) (fun _ => htold)
    · cases htaken

/-- Every step keeps the invariant, where it keeps every act. -/
theorem take (horderly : w.Orderly) {step : Step} (hkeeps : w.Keeps step)
    (htaken : w.take step = some w') : w'.Orderly := by
  cases step with
  | sessionOpened =>
      cases htaken
      exact horderly.sessions _
  | sessionClosed =>
      simp only [Controlled.take, sessionClosed] at htaken
      split at htaken
      · cases htaken
      · cases htaken
        exact horderly.sessions _
  | feedOpened =>
      cases htaken
      exact horderly.feedOpened
  | feedHears i => exact horderly.feedHears htaken
  | feedTold i => exact horderly.feedTold htaken
  | feedClosed i => exact horderly.feedClosed htaken
  | opened =>
      cases htaken
      exact horderly.opened
  | sent i delivered => exact horderly.sent hkeeps htaken
  | received i message => exact horderly.received htaken
  | dropped i => exact horderly.dropped hkeeps htaken
  | lowBattery =>
      cases htaken
      exact horderly.lowBattery
  | recorded i returned =>
      have hreturned : returned = true := hkeeps
      subst hreturned
      exact horderly.recorded htaken
  | advance t lapsed => exact horderly.advance hkeeps htaken
  | carriedOut t result => exact horderly.carriedOut htaken

/-! ### What the invariant says -/

/-- The slot is held for one of those served. -/
theorem held (horderly : w.Orderly) {going : Going}
    (haccepted : w.controller.accepted = some going) :
    (∃ (i : Nat) (act : Act), w.serving[i]? = some (.accepting act) ∧ going = act.asked) ∨
    (∃ i : Nat, w.shutdowns[i]? = some .recording ∧ going = .lowBattery) ∨
    ∃ (t : Nat) (g : GoingAway), w.goings[t]? = some g ∧ g.going = going ∧
      (g.InProgress ∨ g.phase = .carried) := by
  have hcount := horderly.holders
  rw [haccepted] at hcount
  simp only [Controlled.holders, Option.isSome_some, if_true] at hcount
  have hsome : 0 < w.serving.countP Serving.holds ∨ 0 < w.shutdowns.countP Shutdown.holds ∨
      0 < w.goings.countP GoingAway.holds := by
    omega
  rcases hsome with hserving | hshutdowns | hgoings
  · obtain ⟨i, serving, hat, hholds⟩ := exists_of_countP_pos hserving
    cases serving with
    | accepting act =>
        left
        refine ⟨i, act, hat, ?_⟩
        have hslot := horderly.serving i act hat
        rw [haccepted] at hslot
        exact Option.some.inj hslot
    | listing => cases hholds
    | reading => cases hholds
    | refusing refusal => cases hholds
    | ended => cases hholds
  · obtain ⟨i, shutdown, hat, hholds⟩ := exists_of_countP_pos hshutdowns
    cases shutdown with
    | recording =>
        right
        left
        refine ⟨i, hat, ?_⟩
        have hslot := horderly.shutdown i hat
        rw [haccepted] at hslot
        exact Option.some.inj hslot
    | begun => cases hholds
    | notBegun reason => cases hholds
    | panicked => cases hholds
  · obtain ⟨t, g, hg, hholds⟩ := exists_of_countP_pos hgoings
    right
    right
    have hslot := (horderly.going t g hg hholds).1
    rw [haccepted] at hslot
    refine ⟨t, g, hg, (Option.some.inj hslot).symm, ?_⟩
    by_cases hcarried : g.phase = .carried
    · exact .inr hcarried
    · exact .inl ⟨hcarried, by simpa [GoingAway.holds] using hholds⟩

/-- It is held for one of them at a time. -/
theorem one (horderly : w.Orderly) {holder other : Holder} (hone : w.HeldFor holder)
    (hother : w.HeldFor other) : holder = other := by
  apply hone.unique _ hother
  rw [horderly.holders]
  split <;> decide

/-- Every act accepted is kept. -/
theorem kept (horderly : w.Orderly) : w.Kept where
  held := fun _ haccepted => horderly.held haccepted
  one := fun _ _ hone hother => horderly.one hone hother
  carrying := by
    intro t g hg hphase
    have hannounces : g.phase.announces = true := by rw [hphase]; rfl
    obtain ⟨haccepted, -, hending⟩ := horderly.going t g hg (holds_of_announces hannounces)
    refine ⟨haccepted, ?_, horderly.told t g hg hannounces (by simp [hphase])⟩
    rw [hending, hphase]
    rfl
  cleared := by
    intro hfree
    exact horderly.quiet (horderly.free hfree).2.2
  released := by
    intro t g lapsed w' hg hphase htaken
    have hholds : g.holds = true := by simp [GoingAway.holds, hphase]
    obtain ⟨-, hgoing, hending⟩ := horderly.going t g hg hholds
    rw [hphase] at hgoing hending
    simp only [Controlled.advance, hg, hphase] at htaken
    cases htaken
    exact ⟨rfl, hgoing, hending⟩

end Orderly

end Controlled

/-- In the runs in which no call ends before going away begins, and no feed is left
over from an act that failed, an accepted act is carried out or released. -/
theorem controlling_kept {acts : List Act} {w : Controlled}
    (hreach : ((controlling acts).guarded Controlled.Keeps).Reachable w) : w.Kept := by
  have horderly : w.Orderly := by
    refine hreach.invariant ?_ ?_
    · intro w hnew
      rw [hnew]
      exact Controlled.new_orderly acts
    · intro w step w' _ horderly htaken
      exact horderly.take htaken.1 htaken.2
  exact horderly.kept

/-! ## An act accepted and dropped -/

/-- A client opens a power stream and asks for a reboot. -/
def asked : List Controlled.Step :=
  [.opened, .sent 0 true, .received 0 (.act "reboot")]

/-- Its stream fails as it is sent that the act is accepted: the slot is held, and
nothing will carry the act out or release it. -/
theorem asked_not_kept :
    ¬ ∀ w : Controlled, (controlling [.reboot]).Reachable w → w.Kept := by
  intro hkept
  obtain ⟨w, hrun, haccepted, hserving, hshutdowns, hgoings⟩ :
      ∃ w, Transition.System.run Controlled.take (.new [.reboot])
          (asked ++ [.sent 0 false]) = some w ∧
        w.controller.accepted = some Act.reboot.asked ∧ w.serving = [.ended] ∧
        w.shutdowns = [] ∧ w.goings = [] :=
    ⟨_, rfl, rfl, rfl, rfl, rfl⟩
  have hreach : (controlling [.reboot]).Reachable w :=
    Transition.System.Reachable.of_run (.start rfl) (fun _ _ _ _ htake => htake) hrun
  rcases (hkept w hreach).held _ haccepted with ⟨i, act, hat, -⟩ | ⟨i, hat, -⟩ | ⟨t, g, hg, -⟩
  · have hmem := List.mem_of_getElem? hat
    rw [hserving] at hmem
    simp at hmem
  · rw [hshutdowns] at hat
    cases hat
  · rw [hgoings] at hg
    cases hg

/-- Answered, it is gone away for. -/
theorem controlling_kept_asked : ∃ w : Controlled,
    w.controller.accepted = some Act.reboot.asked ∧ w.goings.length = 1 ∧ w.Kept := by
  obtain ⟨before, hrun, w, htaken, haccepted, hgoings⟩ :
      ∃ before, Transition.System.run Controlled.take (.new [.reboot]) asked = some before ∧
        ∃ w, before.take (.sent 0 true) = some w ∧
          w.controller.accepted = some Act.reboot.asked ∧ w.goings.length = 1 :=
    ⟨_, rfl, _, rfl, rfl, rfl⟩
  have hkeeps : ∀ step ∈ asked, ∀ w : Controlled, w.Keeps step := by
    intro step hstep w
    simp only [asked, List.mem_cons, List.not_mem_nil, or_false] at hstep
    rcases hstep with rfl | rfl | rfl
    · exact trivial
    · exact nofun
    · exact trivial
  have hreach := Transition.System.Reachable.of_run
    (M := (controlling [.reboot]).guarded Controlled.Keeps) (.start rfl)
    (fun step hstep w w' htake => ⟨hkeeps step hstep w, htake⟩) hrun
  exact ⟨w, haccepted, hgoings,
    controlling_kept (.next (a := .sent 0 true) hreach ⟨nofun, htaken⟩)⟩

end Bliti.Power
