import Bliti.Power.Kept

/-!
# Power control - the slot is held for no two at once

Whatever becomes of those the slot is held for, it is held for at most one of them, and for a
low-battery shutdown only as one.  A slot left held for nothing is no exception.
-/

namespace Bliti.Power

open Roster

/-- A low-battery shutdown has begun. -/
def Shutdown.hasBegun : Shutdown → Bool
  | .begun => true
  | _ => false

/-- A task is going away for a low battery. -/
def GoingAway.forLowBattery (g : GoingAway) : Bool :=
  g.going == .lowBattery

/-- A task begun for an act asked for is not going away for a low battery. -/
theorem forLowBattery_asked (act : Act) : (GoingAway.begin act.asked).forLowBattery = false := by
  cases act <;> rfl

/-- A task begun for a low battery is. -/
theorem forLowBattery_lowBattery : (GoingAway.begin .lowBattery).forLowBattery = true :=
  rfl

/-- A step is taken by those the controller serves other than the supply watcher: it neither asks for
a low-battery shutdown nor ends what comes before one. -/
def Controlled.Step.isOthers : Controlled.Step → Bool
  | .lowBattery | .recorded _ _ => false
  | _ => true

namespace Controlled

/-- The others leave the low-battery shutdowns as they were. -/
theorem take_shutdowns {w w' : Controlled} {step : Step} (hothers : step.isOthers = true)
    (htaken : w.take step = some w') : w'.shutdowns = w.shutdowns := by
  cases step with
  | sessionOpened | feedOpened | opened =>
      cases htaken
      rfl
  | lowBattery | recorded => cases hothers
  | sessionClosed =>
      simp only [take, sessionClosed] at htaken
      split_ifs at htaken
      cases htaken
      rfl
  | feedHears | feedTold | feedClosed =>
      simp only [take, feedHears, feedTold, feedClosed] at htaken
      split at htaken
      · split_ifs at htaken
        cases htaken
        rfl
      · cases htaken
  | sent =>
      simp only [take, sent] at htaken
      split at htaken
      · cases htaken
        rfl
      · cases htaken
        rfl
      · split_ifs at htaken
        · cases htaken
          rfl
        · cases htaken
          rfl
      · cases htaken
  | received =>
      simp only [take, received] at htaken
      split at htaken
      · split at htaken
        · split at htaken
          · cases htaken
            rfl
          · cases htaken
            rfl
        all_goals
          cases htaken
          rfl
      · cases htaken
  | dropped =>
      simp only [take, dropped] at htaken
      split at htaken
      · cases htaken
      · cases htaken
      · cases htaken
        rfl
  | advance =>
      simp only [take, advance] at htaken
      split at htaken
      · cases htaken
      · split at htaken
        case h_2 | h_4 =>
          split_ifs at htaken
          all_goals
            cases htaken
            rfl
        all_goals
          cases htaken
        all_goals rfl
  | carriedOut =>
      simp only [take, carriedOut] at htaken
      split at htaken
      · cases htaken
      · split_ifs at htaken
        cases htaken
        rfl

/-- One it is held for counts. -/
theorem HeldFor.holds {w : Controlled} {holder : Holder} (hheld : w.HeldFor holder) : 0 < w.holders := by
  unfold holders
  cases holder with
  | serving i =>
      obtain ⟨act, hat⟩ := hheld
      have hpos := countP_pos_of_getElem? (p := Serving.holds) hat rfl
      omega
  | shutdown i =>
      have hpos := countP_pos_of_getElem? (p := Shutdown.holds) hheld rfl
      omega
  | going t =>
      obtain ⟨g, hat, hphase⟩ := hheld
      have hpos := countP_pos_of_getElem? (p := GoingAway.holds) hat (by simpa [GoingAway.holds])
      omega

/-- The slot is held for at most one, for none while it is free, and for a low-battery shutdown as
one; and a task is going away for a low battery for each such shutdown begun. -/
structure Alone (w : Controlled) : Prop where
  few : w.holders ≤ 1
  free : w.controller.accepted = none → w.holders = 0
  shutdown : ∀ i : Nat, w.shutdowns[i]? = some .recording →
    w.controller.accepted = some .lowBattery
  begun : w.goings.countP GoingAway.forLowBattery = w.shutdowns.countP Shutdown.hasBegun

/-- A controller starts with its slot held for none. -/
theorem new_alone (acts : List Act) : Alone (.new acts) where
  few := Nat.zero_le 1
  free := fun _ => rfl
  shutdown := by simp [new]
  begun := rfl

namespace Alone

variable {w w' : Controlled}

/-- A step that leaves the slot and the shutdowns as they were, and holds it for no more. -/
theorem kept (halone : w.Alone) (haccepted : w'.controller.accepted = w.controller.accepted)
    (hholders : w'.holders ≤ w.holders) (hshutdowns : w'.shutdowns = w.shutdowns)
    (hgoings : w'.goings.countP GoingAway.forLowBattery =
      w.goings.countP GoingAway.forLowBattery) : w'.Alone where
  few := hholders.trans halone.few
  free := by
    intro hfree
    rw [haccepted] at hfree
    have hnone := halone.free hfree
    omega
  shutdown := by
    intro i hat
    rw [hshutdowns] at hat
    rw [haccepted]
    exact halone.shutdown i hat
  begun := by
    rw [hgoings, hshutdowns]
    exact halone.begun

/-- A serve that changes, to one the slot is held for only where it was. -/
theorem setServing (halone : w.Alone) {i : Nat} {before after : Serving}
    (hat : w.serving[i]? = some before) (hholds : after.holds = true → before.holds = true) :
    Alone { w with serving := w.serving.set i after } := by
  refine halone.kept rfl ?_ rfl rfl
  have hset := countP_set_add hat Serving.holds after
  simp only [holders]
  cases hafter : after.holds with
  | false =>
      rw [hafter] at hset
      simp only [Bool.false_eq_true, if_false] at hset
      omega
  | true =>
      rw [hafter, hholds hafter] at hset
      omega

/-- A task that changes, to one the slot is held for only where it was. -/
theorem setGoing (halone : w.Alone) {t : Nat} {g g' : GoingAway} (hat : w.goings[t]? = some g)
    (haccepted : w'.controller.accepted = w.controller.accepted) (hserving : w'.serving = w.serving)
    (hshutdowns : w'.shutdowns = w.shutdowns) (hgoings : w'.goings = w.goings.set t g')
    (hgoing : g'.going = g.going) (hholds : g'.holds = true → g.holds = true) : w'.Alone := by
  refine halone.kept haccepted ?_ hshutdowns ?_
  · have hset := countP_set_add hat GoingAway.holds g'
    simp only [holders, hserving, hshutdowns, hgoings]
    cases hafter : g'.holds with
    | false =>
        rw [hafter] at hset
        simp only [Bool.false_eq_true, if_false] at hset
        omega
    | true =>
        rw [hafter, hholds hafter] at hset
        omega
  · have hset := countP_set_add hat GoingAway.forLowBattery g'
    have hsame : g'.forLowBattery = g.forLowBattery := by simp only [GoingAway.forLowBattery, hgoing]
    rw [hsame] at hset
    rw [hgoings]
    exact Nat.add_right_cancel hset

/-- A power stream's send that ends keeps the slot held for at most one. -/
theorem sent (halone : w.Alone) {i : Nat} {delivered : Bool}
    (htaken : w.sent i delivered = some w') : w'.Alone := by
  unfold Controlled.sent at htaken
  split at htaken
  · rename_i hat
    cases htaken
    exact halone.setServing hat (by cases delivered <;> simp [Serving.holds])
  · rename_i hat
    cases htaken
    exact halone.setServing hat (by cases delivered <;> simp [Serving.holds])
  · rename_i act hat
    cases delivered with
    | false =>
        cases htaken
        exact halone.setServing hat (by simp [Serving.holds])
    | true =>
        -- The slot is held for the task rather than for the serve.
        cases htaken
        have hset := countP_set_add hat Serving.holds .reading
        simp only [Serving.holds, if_true, Bool.false_eq_true, if_false] at hset
        refine halone.kept rfl ?_ rfl ?_
        · simp only [holders, go]
          rw [countP_append]
          split <;> omega
        · simp only [go]
          rw [countP_append, forLowBattery_asked]
          rfl
  · cases htaken

theorem received (halone : w.Alone) {i : Nat} {message : Received}
    (htaken : w.received i message = some w') : w'.Alone := by
  unfold Controlled.received at htaken
  split at htaken
  · rename_i hat
    split at htaken
    · split at htaken
      · rename_i act controller hdecide
        cases htaken
        obtain ⟨hfree, rfl⟩ := Controller.decide_ok hdecide
        have hnone := halone.free hfree
        have hset := countP_set_add hat Serving.holds (.accepting act)
        simp only [Serving.holds, if_true, Bool.false_eq_true, if_false] at hset
        simp only [holders] at hnone
        refine ⟨?_, fun hnone => absurd hnone (Option.some_ne_none _), ?_, halone.begun⟩
        · simp only [holders]
          omega
        · intro j hget
          have hzero : w.shutdowns.countP Shutdown.holds = 0 := by omega
          cases eq_false_of_countP_eq_zero hzero hget
      · cases htaken
        exact halone.setServing hat (by simp [Serving.holds])
    · cases htaken
      exact halone
    · cases htaken
      exact halone.setServing hat (by simp [Serving.holds])
    · cases htaken
      exact halone.setServing hat (by simp [Serving.holds])
  · cases htaken

theorem lowBattery (halone : w.Alone) : w.lowBattery.Alone := by
  unfold Controlled.lowBattery
  split
  · rename_i controller htake
    obtain ⟨hfree, rfl⟩ := Controller.lowBattery_ok htake
    have hnone := halone.free hfree
    simp only [holders] at hnone
    refine ⟨?_, fun hnone => absurd hnone (Option.some_ne_none _), fun _ _ => rfl, ?_⟩
    · simp only [holders]
      rw [countP_append]
      split <;> omega
    · rw [countP_append]
      exact halone.begun
  · refine ⟨?_, ?_, ?_, ?_⟩
    · simp only [holders]
      rw [countP_append]
      exact halone.few
    · intro hfree
      simp only [holders]
      rw [countP_append]
      exact halone.free hfree
    · intro j hget
      rcases getElem?_append_cases hget with ⟨-, hlast⟩ | hbefore
      · cases hlast
      · exact halone.shutdown j hbefore
    · rw [countP_append]
      exact halone.begun

theorem recorded (halone : w.Alone) {i : Nat} {returned : Bool}
    (htaken : w.recorded i returned = some w') : w'.Alone := by
  unfold Controlled.recorded at htaken
  split at htaken
  · rename_i hat
    have haccepted := halone.shutdown i hat
    have hfew := halone.few
    have hbegun := halone.begun
    simp only [holders] at hfew
    cases returned with
    | true =>
        cases htaken
        have hset := countP_set_add hat Shutdown.holds .begun
        have hcount := countP_set_add hat Shutdown.hasBegun .begun
        simp only [Shutdown.holds, Shutdown.hasBegun, if_true, Bool.false_eq_true, if_false]
          at hset hcount
        refine ⟨?_, ?_, ?_, ?_⟩
        · simp only [holders, go]
          rw [countP_append]
          split <;> omega
        · intro hfree
          rw [show w.controller.accepted = none from hfree] at haccepted
          cases haccepted
        · intro _ _
          exact haccepted
        · simp only [go]
          rw [countP_append, forLowBattery_lowBattery, if_pos rfl]
          omega
    | false =>
        cases htaken
        have hset := countP_set_add hat Shutdown.holds .panicked
        have hcount := countP_set_add hat Shutdown.hasBegun .panicked
        simp only [Shutdown.holds, Shutdown.hasBegun, if_true, Bool.false_eq_true, if_false]
          at hset hcount
        refine ⟨?_, ?_, ?_, ?_⟩
        · simp only [holders]
          omega
        · intro hfree
          rw [show w.controller.accepted = none from hfree] at haccepted
          cases haccepted
        · intro _ _
          exact haccepted
        · simp only
          omega
  · cases htaken

theorem advance (halone : w.Alone) {t : Nat} {lapsed : Bool}
    (htaken : w.advance t lapsed = some w') : w'.Alone := by
  unfold Controlled.advance at htaken
  split at htaken
  · cases htaken
  · rename_i g hat
    split at htaken
    · rename_i hphase
      cases htaken
      exact halone.setGoing hat rfl rfl rfl rfl rfl fun _ => by simp [GoingAway.holds, hphase]
    · rename_i hphase
      split_ifs at htaken
      · cases htaken
        exact halone.setGoing hat rfl rfl rfl rfl rfl fun _ => by simp [GoingAway.holds, hphase]
      · cases htaken
        exact halone.setGoing hat rfl rfl rfl rfl rfl fun _ => by simp [GoingAway.holds, hphase]
    · rename_i hphase
      cases htaken
      exact halone.setGoing hat rfl rfl rfl rfl rfl fun _ => by simp [GoingAway.holds, hphase]
    · rename_i hphase
      split_ifs at htaken
      cases htaken
      exact halone.setGoing hat rfl rfl rfl rfl rfl fun _ => by simp [GoingAway.holds, hphase]
    · rename_i hphase
      cases htaken
      exact halone.setGoing hat rfl rfl rfl rfl rfl fun _ => by simp [GoingAway.holds, hphase]
    · rename_i hphase
      cases htaken
      exact halone.setGoing hat rfl rfl rfl rfl rfl fun _ => by simp [GoingAway.holds, hphase]
    · rename_i hphase
      cases htaken
      exact halone.setGoing hat rfl rfl rfl rfl rfl fun _ => by simp [GoingAway.holds, hphase]
    · -- The slot is released, and was held for this task alone.
      rename_i hphase
      cases htaken
      have hholds : g.holds = true := by simp [GoingAway.holds, hphase]
      have hfew := halone.few
      have hset := countP_set_add hat GoingAway.holds { g with phase := .released }
      have hcount := countP_set_add hat GoingAway.forLowBattery { g with phase := .released }
      have hreleased : GoingAway.holds { g with phase := .released } = false := rfl
      have hsame : GoingAway.forLowBattery { g with phase := .released } = g.forLowBattery := rfl
      rw [hholds, hreleased, if_pos rfl, if_neg Bool.false_ne_true] at hset
      rw [hsame] at hcount
      simp only [holders] at hfew
      refine ⟨?_, ?_, ?_, ?_⟩
      · simp only [holders, goTo]
        omega
      · intro _
        simp only [holders, goTo]
        omega
      · intro i hget
        have hzero : w.shutdowns.countP Shutdown.holds = 0 := by omega
        cases eq_false_of_countP_eq_zero hzero hget
      · simp only [goTo]
        rw [Nat.add_right_cancel hcount]
        exact halone.begun
    · cases htaken
    · cases htaken
    · cases htaken

/-- Every step keeps the slot held for at most one. -/
theorem take (halone : w.Alone) {step : Step} (htaken : w.take step = some w') : w'.Alone := by
  cases step with
  | sessionOpened =>
      cases htaken
      exact halone.kept rfl le_rfl rfl rfl
  | sessionClosed =>
      simp only [Controlled.take, Controlled.sessionClosed] at htaken
      split_ifs at htaken
      cases htaken
      exact halone.kept rfl le_rfl rfl rfl
  | feedOpened =>
      cases htaken
      exact halone.kept rfl le_rfl rfl rfl
  | feedHears i =>
      simp only [Controlled.take, Controlled.feedHears] at htaken
      split at htaken
      · split_ifs at htaken
        cases htaken
        exact halone.kept rfl le_rfl rfl rfl
      · cases htaken
  | feedTold i =>
      simp only [Controlled.take, Controlled.feedTold] at htaken
      split at htaken
      · split_ifs at htaken
        cases htaken
        exact halone.kept rfl le_rfl rfl rfl
      · cases htaken
  | feedClosed i =>
      simp only [Controlled.take, Controlled.feedClosed] at htaken
      split at htaken
      · split_ifs at htaken
        cases htaken
        exact halone.kept rfl le_rfl rfl rfl
      · cases htaken
  | opened =>
      cases htaken
      refine halone.kept rfl ?_ rfl rfl
      simp only [holders]
      rw [countP_append]
      exact le_rfl
  | sent i delivered => exact halone.sent htaken
  | received i message => exact halone.received htaken
  | dropped i =>
      simp only [Controlled.take, Controlled.dropped] at htaken
      split at htaken
      · cases htaken
      · cases htaken
      · rename_i hat
        cases htaken
        exact halone.setServing hat (by simp [Serving.holds])
  | lowBattery =>
      cases htaken
      exact halone.lowBattery
  | recorded i returned => exact halone.recorded htaken
  | advance t lapsed => exact halone.advance htaken
  | carriedOut t result =>
      simp only [Controlled.take, Controlled.carriedOut] at htaken
      split at htaken
      · cases htaken
      · rename_i g hat
        split_ifs at htaken with hphase
        cases htaken
        exact halone.setGoing hat rfl rfl rfl rfl rfl fun _ => by simp [GoingAway.holds, hphase]

/-- A low-battery shutdown about to begin is the one the slot is held for. -/
theorem shutdown_only (halone : w.Alone) {i : Nat} (hat : w.shutdowns[i]? = some .recording)
    (holder : Holder) (hheld : w.HeldFor holder) : holder = .shutdown i := by
  have hfew := halone.few
  have hshutdown := countP_pos_of_getElem? (p := Shutdown.holds) hat rfl
  simp only [holders] at hfew
  cases holder with
  | serving j =>
      obtain ⟨act, hserving⟩ := hheld
      have hpos := countP_pos_of_getElem? (p := Serving.holds) hserving rfl
      omega
  | shutdown j =>
      have hone : w.shutdowns.countP Shutdown.holds ≤ 1 := by omega
      rw [eq_of_countP_le_one hone hheld rfl hat rfl]
  | going t =>
      obtain ⟨g, hgoing, hphase⟩ := hheld
      have hholds : g.holds = true := by simpa [GoingAway.holds] using hphase
      have hpos := countP_pos_of_getElem? hgoing hholds
      omega

end Alone

end Controlled

/-- In every run, whatever is dropped or panics and however often an act is asked for, the slot is
held for one at most, and for none while it is free; and a task goes away for a low battery for each
low-battery shutdown begun and no other. -/
theorem controlling_alone {acts : List Act} {w : Controlled}
    (hreach : (controlling acts).Reachable w) :
    (∀ holder other, w.HeldFor holder → w.HeldFor other → holder = other) ∧
    (w.controller.accepted = none → ∀ holder, ¬ w.HeldFor holder) ∧
    w.goings.countP GoingAway.forLowBattery = w.shutdowns.countP Shutdown.hasBegun := by
  have halone : w.Alone := by
    apply hreach.invariant
    · rintro w rfl
      exact Controlled.new_alone acts
    · intro w step w' _ halone htaken
      exact halone.take htaken
  refine ⟨fun holder other => Controlled.HeldFor.unique halone.few, fun hfree holder hheld => ?_,
    halone.begun⟩
  have hnone := halone.free hfree
  have hpos := hheld.holds
  omega

/-- A stream that fails as its act is accepted leaves the slot held for nothing. -/
theorem controlling_alone_asked : ∃ w : Controlled, w.controller.accepted ≠ none ∧
    ∀ holder other, w.HeldFor holder → w.HeldFor other → holder = other := by
  obtain ⟨w, hrun, haccepted⟩ :
      ∃ w, Transition.System.run Controlled.take (.new [.reboot])
          (asked ++ [.sent 0 false]) = some w ∧ w.controller.accepted ≠ none :=
    ⟨_, rfl, Option.some_ne_none _⟩
  have hreach : (controlling [.reboot]).Reachable w :=
    .of_run (.start rfl) (fun _ _ _ _ htake => htake) hrun
  exact ⟨w, haccepted, (controlling_alone hreach).1⟩

end Bliti.Power
