import Bliti.Facts.Power.Learn.Kept
import Bliti.Facts.Power.Supply.Frame
import Bliti.Power.Alone

/-!
# The backup supply's history - the thread that powers off

The record thread looks at the supply, and powers off through the controller once the cell has held
below the floor, while sessions load and reset the curves and the controller serves everyone else.

Main results:

- Theorem `watching_upheld`: every run powers off exactly when it is to.
-/

namespace Bliti.Facts.Power

open Bliti.Power (Act Controlled Going GoingAway Holder Shutdown)

/-! ## The thread and the others -/

/-- What the record thread is doing: waiting for its next look; about to ask for powering off, having
found the floor held; recording what the run taught, before a shutdown begins; about to begin the
shutdown; about to start the count again; or gone, what comes before a shutdown having panicked. -/
inductive Thread where
  | looking
  | asking
  | learning (call : ℕ)
  | learnt (call : ℕ)
  | settling
  | gone
deriving DecidableEq

/-- The shutdown the thread is about to begin, by when it came. -/
def Thread.call : Thread → Option ℕ
  | .learning call | .learnt call => some call
  | _ => none

/-- The record thread at work: the supply, the controller, what the thread is doing, the looks it has
taken, those it asked for powering off at, and the controller as it was each time what a run taught
was recorded, with the shutdown it was recorded for. -/
structure Watched where
  supply : State
  power : Controlled
  thread : Thread
  glances : List Glance
  asks : List ℕ
  taught : List (ℕ × Controlled)

/-- A step of the record thread, of a session that loads or resets the curves, or of another of
those the controller serves. -/
inductive Call where
  | look (look : Look) (now : Duration) (atMillis : ℕ) (uptime : Option Duration) (saves : Saves)
  | ask
  | learn (fails : Option SaveFault)
  | begin (returned : Bool)
  | settle
  | load (document : Document) (fails : Option SaveFault)
  | reset (fails : Option SaveFault)
  | served (step : Controlled.Step)

namespace Watched

/-- A supply no one has looked at, and a controller with nothing yet to serve. -/
def new (disk : Disk) (acts : List Act) : Watched where
  supply := .new disk
  power := .new acts
  thread := .looking
  glances := []
  asks := []
  taught := []

/-- Look at the supply, no earlier than at any look before. -/
def look (doubles : Doubles) (w : Watched) (look : Look) (now : Duration) (atMillis : ℕ)
    (uptime : Option Duration) (saves : Saves) : Option Watched :=
  if w.thread = .looking ∧ ∀ earlier ∈ w.glances, earlier.now ≤ now then
    match w.supply.observe doubles look now atMillis uptime saves with
    | (supply, observed) =>
        some { w with
          supply := supply
          thread := if observed.held.isSome then .asking else .looking
          glances := w.glances ++ [{ now := now, uptime := uptime, floor := look.floor }] }
  else none

/-- Ask the controller to power off. -/
def ask (w : Watched) : Option Watched :=
  if w.thread = .asking then
    some { w with
      power := w.power.lowBattery
      asks := w.asks ++ [w.glances.length - 1]
      thread :=
        match w.power.controller.lowBattery with
        | .ok _ => .learning w.power.shutdowns.length
        | .error _ => .settling }
  else none

/-- Record what the run taught. -/
def learn (doubles : Doubles) (w : Watched) (fails : Option SaveFault) : Option Watched :=
  match w.thread with
  | .learning call =>
      some { w with
        supply := w.supply.learnFromRun doubles fails
        taught := w.taught ++ [(call, w.power)]
        thread := .learnt call }
  | _ => none

/-- Begin the shutdown, or panic in what comes before it. -/
def begin (w : Watched) (returned : Bool) : Option Watched :=
  match w.thread with
  | .learning call =>
      if returned then none
      else (w.power.recorded call false).map fun power => { w with power := power, thread := .gone }
  | .learnt call =>
      (w.power.recorded call returned).map fun power =>
        { w with power := power, thread := if returned then .settling else .gone }
  | _ => none

/-- Start the count again. -/
def settle (w : Watched) : Option Watched :=
  if w.thread = .settling then some { w with supply := w.supply.settle, thread := .looking }
  else none

/-- Another of those the controller serves takes a step. -/
def served (w : Watched) (step : Controlled.Step) : Option Watched :=
  if step.isOthers then (w.power.take step).map fun power => { w with power := power } else none

/-- Take a step, where it can be taken. -/
def take (doubles : Doubles) (w : Watched) : Call → Option Watched
  | .look look now atMillis uptime saves => w.look doubles look now atMillis uptime saves
  | .ask => w.ask
  | .learn fails => w.learn doubles fails
  | .begin returned => w.begin returned
  | .settle => w.settle
  | .load document fails => some { w with supply := (w.supply.load document fails).1 }
  | .reset fails => some { w with supply := (w.supply.reset fails).1 }
  | .served step => w.served step

end Watched

/-- The record thread on a device offering some acts, its curves kept on a disk, and the others, in
any order. -/
def watching (doubles : Doubles) (disk : Disk) (acts : List Act) :
    Transition.System Watched Call :=
  .ofTake (fun w => w = .new disk acts) (Watched.take doubles)

/-! ## When a low battery powers off -/

namespace Watched

/-- Whether to ask for powering off has been settled at a look. -/
def Settled (w : Watched) (k : ℕ) : Prop :=
  k < w.glances.length ∧ (w.thread = .asking → k + 1 < w.glances.length)

/-- A low battery powers off: it is asked for at the looks that call for it and no others; a task
goes away for it only once the shutdown has begun, which is once what the run taught has been
recorded; and that is recorded only while the slot is held for the shutdown itself. -/
structure Upheld (w : Watched) : Prop where
  asked : ∀ k, w.Settled k → (k ∈ w.asks ↔ CallsFor w.glances w.asks k)
  asking : w.thread = .asking →
    ∃ k, k + 1 = w.glances.length ∧ k ∉ w.asks ∧ CallsFor w.glances w.asks k
  begun : w.power.goings.countP GoingAway.forLowBattery = w.power.shutdowns.countP Shutdown.hasBegun
  recorded : ∀ i : ℕ, w.power.shutdowns[i]? = some .begun → ∃ power, (i, power) ∈ w.taught
  alone : ∀ (i : ℕ) (power : Controlled), (i, power) ∈ w.taught →
    power.shutdowns[i]? = some .recording ∧ power.controller.accepted = some .lowBattery ∧
      ∀ holder : Holder, power.HeldFor holder → holder = .shutdown i

/-! ## The looks are counted -/

/-- The clock stands for the looks while the thread looks and asks, and powering off has been asked
for at the last one once it no longer does. -/
structure Counted (w : Watched) : Prop where
  timely : Timely w.glances
  asks : ∀ a ∈ w.asks, a < w.glances.length
  counts : w.thread = .looking ∨ w.thread = .asking → w.supply.low.Counts w.glances w.asks
  answered : w.thread ≠ .looking → w.thread ≠ .asking →
    ∀ k, k + 1 = w.glances.length → k ∈ w.asks
  asked : ∀ k, w.Settled k → (k ∈ w.asks ↔ CallsFor w.glances w.asks k)
  asking : w.thread = .asking →
    ∃ k, k + 1 = w.glances.length ∧ k ∉ w.asks ∧ CallsFor w.glances w.asks k

variable {doubles : Doubles} {w w' : Watched}

/-- A supply no one has looked at has no looks to count. -/
theorem new_counted (disk : Disk) (acts : List Act) : Counted (.new disk acts) where
  timely := .nil
  asks := nofun
  counts := fun _ => .start
  answered := fun hlooking => absurd rfl hlooking
  asked := fun _ hsettled => absurd hsettled.1 (Nat.not_lt_zero _)
  asking := nofun

/-- A step that takes no look, and asks for nothing, leaves the looks counted. -/
theorem Counted.kept (hcounted : w.Counted) (hglances : w'.glances = w.glances)
    (hasks : w'.asks = w.asks) (hlow : w'.supply.low = w.supply.low)
    (hlooking : w'.thread = .looking ↔ w.thread = .looking)
    (hasking : w'.thread = .asking ↔ w.thread = .asking) : w'.Counted := by
  obtain ⟨htimely, hbefore, hcounts, hanswered, hasked, hpending⟩ := hcounted
  constructor
  · rwa [hglances]
  · rwa [hglances, hasks]
  · rw [hlooking, hasking, hglances, hasks, hlow]
    exact hcounts
  · rw [ne_eq, ne_eq, hlooking, hasking, hglances, hasks]
    exact hanswered
  · unfold Settled at hasked ⊢
    rw [hasking, hglances, hasks]
    exact hasked
  · rw [hasking, hglances, hasks]
    exact hpending

/-- A look is counted. -/
theorem Counted.look (hcounted : w.Counted) {look : Look} {now : Duration} {atMillis : ℕ}
    {uptime : Option Duration} {saves : Saves}
    (htaken : w.look doubles look now atMillis uptime saves = some w') : w'.Counted := by
  unfold Watched.look at htaken
  split_ifs at htaken with hlook
  obtain ⟨hlooking, hafter⟩ := hlook
  obtain ⟨hlow, hheld⟩ := State.observe_low doubles w.supply look now atMillis uptime saves
  rcases hobserve : w.supply.observe doubles look now atMillis uptime saves with ⟨supply, observed⟩
  rw [hobserve] at htaken hlow hheld
  dsimp only at hlow hheld
  cases htaken
  set glance : Glance := { now := now, uptime := uptime, floor := look.floor } with hglance
  have htimely : Timely (w.glances ++ [glance]) := by
    refine List.pairwise_append.mpr ⟨hcounted.timely, List.pairwise_singleton _ _, ?_⟩
    intro earlier hearlier later hlater
    rw [List.mem_singleton.mp hlater]
    exact hafter earlier hearlier
  obtain ⟨hcounts, hcalls⟩ := (hcounted.counts (.inl hlooking)).observe htimely
    (Prod.mk.eta (p := w.supply.low.observe now uptime look.floor)).symm
  rw [← hlow] at hcounts
  rw [← hheld] at hcalls
  have hasks : ∀ a ∈ w.asks, a < (w.glances ++ [glance]).length := by
    intro a ha
    have hbefore := hcounted.asks a ha
    rw [List.length_append]
    omega
  -- What the looks before it called for stands.
  have hstands : ∀ k, k < w.glances.length →
      (k ∈ w.asks ↔ CallsFor (w.glances ++ [glance]) w.asks k) := by
    intro k hk
    have hsettled : w.Settled k := ⟨hk, by simp [hlooking]⟩
    have happend : CallsFor (w.glances ++ [glance]) (w.asks ++ []) k ↔ CallsFor w.glances w.asks k :=
      callsFor_append hk (by simp)
    rw [List.append_nil] at happend
    rw [happend]
    exact hcounted.asked k hsettled
  have hnew : w.glances.length ∉ w.asks := fun hmem => lt_irrefl _ (hcounted.asks _ hmem)
  refine ⟨htimely, hasks, fun _ => hcounts, ?_, ?_, ?_⟩
  · intro hlooks hasks'
    dsimp only at hlooks hasks'
    split_ifs at hlooks hasks'
    · exact absurd rfl hasks'
    · exact absurd rfl hlooks
  · rintro k ⟨hk, hsettled⟩
    simp only [List.length_append, List.length_singleton] at hk hsettled
    by_cases hlast : k < w.glances.length
    · exact hstands k hlast
    · obtain rfl : k = w.glances.length := by omega
      refine iff_of_false hnew fun hcalled => ?_
      have hasking := hsettled (if_pos (hcalls.mpr hcalled))
      omega
  · intro hasking
    dsimp only at hasking ⊢
    refine ⟨w.glances.length, by simp, hnew, hcalls.mp ?_⟩
    by_contra hnot
    rw [if_neg hnot] at hasking
    cases hasking

theorem Counted.ask (hcounted : w.Counted) (htaken : w.ask = some w') : w'.Counted := by
  unfold Watched.ask at htaken
  split_ifs at htaken with hasking
  cases htaken
  have hstands : ∀ k, k < w.glances.length →
      (CallsFor w.glances (w.asks ++ [w.glances.length - 1]) k ↔ CallsFor w.glances w.asks k) := by
    intro k hk
    have happend : CallsFor (w.glances ++ []) (w.asks ++ [w.glances.length - 1]) k ↔
        CallsFor w.glances w.asks k :=
      callsFor_append hk (by simp; omega)
    rwa [List.append_nil] at happend
  obtain ⟨last, hlength, -, hcalled⟩ := hcounted.asking hasking
  have hthread : ∀ thread, thread = Thread.looking ∨ thread = .asking →
      (match w.power.controller.lowBattery with
        | .ok _ => Thread.learning w.power.shutdowns.length
        | .error _ => .settling) ≠ thread := by
    intro thread hthread
    rcases hthread with rfl | rfl
    all_goals
      split
      all_goals exact nofun
  refine ⟨hcounted.timely, ?_, ?_, ?_, ?_, ?_⟩
  · intro a ha
    rcases List.mem_append.mp ha with hbefore | hlast
    · exact hcounted.asks a hbefore
    · rw [List.mem_singleton.mp hlast]
      exact Nat.sub_lt (by omega) one_pos
  · rintro (hlooks | hasks)
    · exact absurd hlooks (hthread _ (.inl rfl))
    · exact absurd hasks (hthread _ (.inr rfl))
  · intro _ _ k hk
    have hlast : k = w.glances.length - 1 := by
      dsimp only at hk
      omega
    rw [hlast]
    exact List.mem_append_right _ (List.mem_singleton.mpr rfl)
  · rintro k ⟨hk, -⟩
    dsimp only at hk ⊢
    rw [hstands k hk, List.mem_append, List.mem_singleton]
    by_cases hlast : k + 1 < w.glances.length
    · rw [← hcounted.asked k ⟨hk, fun _ => hlast⟩]
      exact or_iff_left (by omega)
    · obtain rfl : k = last := by omega
      exact iff_of_true (.inr (by omega)) hcalled
  · intro hasks
    exact absurd hasks (hthread _ (.inr rfl))

theorem Counted.settle (hcounted : w.Counted) (htaken : w.settle = some w') : w'.Counted := by
  unfold Watched.settle at htaken
  split_ifs at htaken with hsettling
  cases htaken
  have hanswered := hcounted.answered (by simp [hsettling]) (by simp [hsettling])
  have hcounts : w.supply.low.settle.Counts w.glances w.asks :=
    .settle hanswered hcounted.asks
  refine ⟨hcounted.timely, hcounted.asks, fun _ => hcounts, ?_, ?_, nofun⟩
  · exact fun hlooks => absurd rfl hlooks
  · rintro k ⟨hk, -⟩
    exact hcounted.asked k ⟨hk, by simp [hsettling]⟩

/-- Every step leaves the looks counted. -/
theorem Counted.take (hcounted : w.Counted) {call : Call} (htaken : w.take doubles call = some w') :
    w'.Counted := by
  cases call with
  | look look now atMillis uptime saves => exact hcounted.look htaken
  | ask => exact hcounted.ask htaken
  | learn fails =>
      simp only [Watched.take, Watched.learn] at htaken
      split at htaken
      · rename_i call hlearning
        cases htaken
        refine hcounted.kept rfl rfl ?_ (by simp [hlearning]) (by simp [hlearning])
        obtain ⟨_, _, _, hlearnt⟩ := w.supply.learnFromRun_curves doubles fails
        rw [hlearnt]
      · cases htaken
  | begin returned =>
      simp only [Watched.take, Watched.begin] at htaken
      split at htaken
      · rename_i call hlearning
        split_ifs at htaken
        obtain ⟨power, -, rfl⟩ := Option.map_eq_some_iff.mp htaken
        exact hcounted.kept rfl rfl rfl (by simp [hlearning]) (by simp [hlearning])
      · rename_i call hlearnt
        obtain ⟨power, -, rfl⟩ := Option.map_eq_some_iff.mp htaken
        cases returned with
        | false => exact hcounted.kept rfl rfl rfl (by simp [hlearnt]) (by simp [hlearnt])
        | true => exact hcounted.kept rfl rfl rfl (by simp [hlearnt]) (by simp [hlearnt])
      · cases htaken
  | settle => exact hcounted.settle htaken
  | load document fails =>
      cases htaken
      obtain ⟨_, _, _, hload⟩ := w.supply.replace_curves document fails
      refine hcounted.kept rfl rfl ?_ .rfl .rfl
      unfold State.load
      rw [hload]
  | reset fails =>
      cases htaken
      obtain ⟨_, _, _, hreset⟩ := w.supply.replace_curves .shipped fails
      refine hcounted.kept rfl rfl ?_ .rfl .rfl
      unfold State.reset
      rw [hreset]
  | served step =>
      simp only [Watched.take, Watched.served] at htaken
      split_ifs at htaken
      obtain ⟨power, -, rfl⟩ := Option.map_eq_some_iff.mp htaken
      exact hcounted.kept rfl rfl rfl .rfl .rfl

/-! ## What the run taught is recorded -/

/-- What the run taught is recorded for the shutdown the slot is held for, before it begins. -/
structure Recorded (w : Watched) : Prop where
  alone : w.power.Alone
  slot : ∀ i ∈ w.thread.call, w.power.shutdowns[i]? = some .recording
  learnt : ∀ i, w.thread = .learnt i → ∃ power, (i, power) ∈ w.taught
  begun : ∀ i : ℕ, w.power.shutdowns[i]? = some .begun → ∃ power, (i, power) ∈ w.taught
  taught : ∀ (i : ℕ) (power : Controlled), (i, power) ∈ w.taught →
    power.shutdowns[i]? = some .recording ∧ power.controller.accepted = some .lowBattery ∧
      ∀ holder : Holder, power.HeldFor holder → holder = .shutdown i

/-- A controller with nothing yet to serve has begun no shutdown. -/
theorem new_recorded (disk : Disk) (acts : List Act) : Recorded (.new disk acts) where
  alone := Controlled.new_alone acts
  slot := nofun
  learnt := nofun
  begun := by simp [Watched.new, Controlled.new]
  taught := by simp [Watched.new]

/-- A step that leaves the shutdowns and what has been recorded as they were. -/
theorem Recorded.kept (hrecorded : w.Recorded) (halone : w'.power.Alone)
    (hshutdowns : w'.power.shutdowns = w.power.shutdowns) (htaught : w'.taught = w.taught)
    (hcall : ∀ i ∈ w'.thread.call, w.thread = w'.thread) : w'.Recorded where
  alone := halone
  slot := by
    intro i hi
    rw [hshutdowns]
    rw [← hcall i hi] at hi
    exact hrecorded.slot i hi
  learnt := by
    intro i hlearnt
    rw [htaught]
    apply hrecorded.learnt i
    rw [hcall i (by simp [hlearnt, Thread.call]), hlearnt]
  begun := by
    rw [hshutdowns, htaught]
    exact hrecorded.begun
  taught := by
    rw [htaught]
    exact hrecorded.taught

/-- Powering off is asked for, and where it is taken the shutdown is yet to begin. -/
theorem Recorded.ask (hrecorded : w.Recorded) (htaken : w.ask = some w') : w'.Recorded := by
  unfold Watched.ask at htaken
  split_ifs at htaken
  cases htaken
  have halone := hrecorded.alone.lowBattery
  have hbegun : ∀ i : ℕ, w.power.lowBattery.shutdowns[i]? = some .begun →
      w.power.shutdowns[i]? = some .begun := by
    intro i hbegun
    unfold Controlled.lowBattery at hbegun
    split at hbegun
    · rcases Roster.getElem?_append_cases hbegun with ⟨-, hlast⟩ | hbefore
      · cases hlast
      · exact hbefore
    · rcases Roster.getElem?_append_cases hbegun with ⟨-, hlast⟩ | hbefore
      · cases hlast
      · exact hbefore
  refine ⟨halone, ?_, ?_, fun i hi => hrecorded.begun i (hbegun i hi), hrecorded.taught⟩
  · intro i hi
    dsimp only at hi ⊢
    unfold Controlled.lowBattery
    cases htake : w.power.controller.lowBattery with
    | error reason =>
        rw [htake] at hi
        cases hi
    | ok controller =>
        rw [htake] at hi
        simp only [Thread.call, Option.mem_some_iff] at hi
        subst hi
        simp
  · intro i hlearnt
    dsimp only at hlearnt
    split at hlearnt
    all_goals cases hlearnt

/-- What the run taught is recorded while the slot is held for the shutdown alone. -/
theorem Recorded.learn (hrecorded : w.Recorded) {fails : Option SaveFault}
    (htaken : w.learn doubles fails = some w') : w'.Recorded := by
  unfold Watched.learn at htaken
  split at htaken
  · rename_i call hlearning
    cases htaken
    have hslot := hrecorded.slot call (by simp [hlearning, Thread.call])
    refine ⟨hrecorded.alone, ?_, ?_, ?_, ?_⟩
    · intro i hi
      obtain rfl : call = i := by simpa [Thread.call] using hi
      exact hslot
    · intro i hi
      cases hi
      exact ⟨_, List.mem_append_right _ (List.mem_singleton.mpr rfl)⟩
    · intro i hi
      obtain ⟨power, hmem⟩ := hrecorded.begun i hi
      exact ⟨power, List.mem_append_left _ hmem⟩
    · intro i power hmem
      rcases List.mem_append.mp hmem with hbefore | hlast
      · exact hrecorded.taught i power hbefore
      · obtain ⟨rfl, rfl⟩ := Prod.mk.inj (List.mem_singleton.mp hlast)
        exact ⟨hslot, hrecorded.alone.shutdown i hslot, hrecorded.alone.shutdown_only hslot⟩
  · cases htaken

/-- A shutdown begins once what the run taught is recorded, or never does. -/
theorem Recorded.ended (hrecorded : w.Recorded) {call : ℕ} {returned : Bool} {power : Controlled}
    {thread : Thread} (hended : w.power.recorded call returned = some power)
    (hcall : thread.call = none)
    (hlearnt : returned = true → ∃ power, (call, power) ∈ w.taught) :
    Recorded { w with power := power, thread := thread } := by
  have halone := hrecorded.alone.recorded hended
  refine ⟨halone, ?_, ?_, ?_, hrecorded.taught⟩
  · intro i hi
    rw [hcall] at hi
    cases hi
  · rintro i rfl
    cases hcall
  · intro i hi
    unfold Controlled.recorded at hended
    split at hended
    · split_ifs at hended with hreturned
      · cases hended
        rcases Roster.getElem?_set_cases hi with ⟨rfl, -⟩ | ⟨-, hbefore⟩
        · exact hlearnt hreturned
        · exact hrecorded.begun i hbefore
      · cases hended
        rcases Roster.getElem?_set_cases hi with ⟨-, hpanicked⟩ | ⟨-, hbefore⟩
        · cases hpanicked
        · exact hrecorded.begun i hbefore
    · cases hended

/-- Every step records what the run taught before a shutdown begins. -/
theorem Recorded.take (hrecorded : w.Recorded) {call : Call}
    (htaken : w.take doubles call = some w') : w'.Recorded := by
  cases call with
  | look look now atMillis uptime saves =>
      simp only [Watched.take, Watched.look] at htaken
      split_ifs at htaken
      · cases htaken
        exact hrecorded.kept hrecorded.alone rfl rfl nofun
      · cases htaken
        exact hrecorded.kept hrecorded.alone rfl rfl nofun
  | ask => exact hrecorded.ask htaken
  | learn fails => exact hrecorded.learn htaken
  | begin returned =>
      simp only [Watched.take, Watched.begin] at htaken
      split at htaken
      · split_ifs at htaken with hreturned
        obtain ⟨power, hended, rfl⟩ := Option.map_eq_some_iff.mp htaken
        exact hrecorded.ended hended rfl nofun
      · rename_i call hlearnt
        obtain ⟨power, hended, rfl⟩ := Option.map_eq_some_iff.mp htaken
        refine hrecorded.ended hended ?_ fun _ => hrecorded.learnt call hlearnt
        split
        all_goals rfl
      · cases htaken
  | settle =>
      simp only [Watched.take, Watched.settle] at htaken
      split_ifs at htaken
      cases htaken
      exact hrecorded.kept hrecorded.alone rfl rfl nofun
  | load document fails =>
      cases htaken
      exact hrecorded.kept hrecorded.alone rfl rfl fun _ _ => rfl
  | reset fails =>
      cases htaken
      exact hrecorded.kept hrecorded.alone rfl rfl fun _ _ => rfl
  | served step =>
      simp only [Watched.take, Watched.served] at htaken
      split_ifs at htaken with hothers
      obtain ⟨power, hserved, rfl⟩ := Option.map_eq_some_iff.mp htaken
      have hshutdowns := Controlled.take_shutdowns hothers hserved
      exact hrecorded.kept (hrecorded.alone.take hserved) hshutdowns rfl fun _ _ => rfl

/-! ## Every run -/

/-- What the two invariants come to. -/
theorem upheld (hcounted : w.Counted) (hrecorded : w.Recorded) : w.Upheld where
  asked := hcounted.asked
  asking := hcounted.asking
  begun := hrecorded.alone.begun
  recorded := hrecorded.begun
  alone := hrecorded.taught

end Watched

/-- Whatever the thread and the others do, powering off is asked for at a look exactly where the
looks back to one a minute before it, none of them before the last time it was asked for, each read
the cell below the floor with external power absent, and the system has been up long enough; and
what the run taught is recorded before the shutdown goes away, and never while another act holds the
controller. -/
theorem watching_upheld {doubles : Doubles} {disk : Disk} {acts : List Act} {w : Watched}
    (hreach : (watching doubles disk acts).Reachable w) : w.Upheld := by
  have hcounted : w.Counted := by
    refine hreach.invariant ?_ fun w call w' _ hcounted htaken => hcounted.take htaken
    rintro w rfl
    exact Watched.new_counted disk acts
  have hrecorded : w.Recorded := by
    refine hreach.invariant ?_ fun w call w' _ hrecorded htaken => hrecorded.take htaken
    rintro w rfl
    exact Watched.new_recorded disk acts
  exact Watched.upheld hcounted hrecorded

/-- The cell is below the floor at two looks a minute apart, and the device powers off. -/
def poweredOff : List Call :=
  let look : Look := { gauge := .ok { volts := 27 / 10, charge := 3 }, external := some false }
  [.look look 0 0 none ⟨none, none⟩, .look look (secs 60) 60000 none ⟨none, none⟩, .ask,
    .learn none, .begin true]

/-- The run that powers off asks for it at its second look, and is upheld. -/
theorem watching_poweredOff :
    ∃ w, (watching .decimal { file := .absent, lasting := .absent } [.powerOff]).Reachable w ∧
      w.asks = [1] ∧ w.taught.map Prod.fst = [0] ∧ w.Upheld := by
  let start : Watched := .new { file := .absent, lasting := .absent } [.powerOff]
  have hleads : (Transition.System.run (Watched.take .decimal) start poweredOff).map
      (fun w => (w.asks, w.taught.map Prod.fst)) = some ([1], [0]) := by
    decide +kernel
  obtain ⟨w, hrun, hends⟩ := Option.map_eq_some_iff.mp hleads
  obtain ⟨hasks, htaught⟩ := Prod.mk.inj hends
  have hreach : (watching .decimal { file := .absent, lasting := .absent } [.powerOff]).Reachable
      w := by
    refine .of_run (.start rfl) ?_ hrun
    intro call _ s s' htaken
    exact htaken
  exact ⟨w, hreach, hasks, htaught, watching_upheld hreach⟩

end Bliti.Facts.Power
