import Mathlib.Data.List.Induction
import Bliti.Library.Transition

/-!
# Provisioning - the window in which a device is on the air

A press of the USER button opens a window in which the device advertises, and a client connecting
ends it.  Registering with the radio is awaited, can fail, and is tried again for as long as the
window is open.  Sessions tell of themselves over a channel, an event as each opens and another as
it closes, and the device takes these in the order they were sent.

Main results:

- Theorem `onAir`: when the device is on the air, while every press finds each session that is open
  in the window.
-/

namespace Bliti.Provision.Air

open Transition (System)

/-- How long a press of the USER button puts the device on the air for, in nanoseconds. -/
def windowTime : ℕ := 5 * 60 * 1000000000

/-- How long to wait before trying a failed registration again. -/
def retryTime : ℕ := 1000000000

/-- The ceiling that wait backs off to. -/
def retryMax : ℕ := 30 * 1000000000

/-- What moves the window. -/
inductive Event where
  | press
  | timer
  | connect
  | disconnect
deriving DecidableEq, Repr

/-- What the device is to do about the air, after an event. -/
inductive Action where
  | advertise
  | withdraw
  | nothing
deriving DecidableEq, Repr

/-- Silent with no client connected, advertising until an instant, or silent for a client. -/
inductive State where
  | silent
  | opened (closes : ℕ)
  | connected
deriving DecidableEq, Repr

/-- Where the device is in the cycle of going on the air, a press at a time. -/
structure Window where
  state : State
deriving DecidableEq, Repr

namespace Window

/-- A window as the device starts. -/
def new : Window := { state := .silent }

/-- Whether the device is to be advertising. -/
def isOpen (window : Window) : Bool :=
  match window.state with
  | .opened _ => true
  | .silent => false
  | .connected => false

/-- Move on an event, as of now. -/
def handle (now : ℕ) (window : Window) (event : Event) : Action × Window :=
  match window.state, event with
  | .silent, .press => (.advertise, { state := .opened (now + windowTime) })
  | .opened _, .press => (.advertise, { state := .opened (now + windowTime) })
  | .connected, .press => (.nothing, window)
  | .opened closes, .timer =>
      if closes ≤ now then (.withdraw, { state := .silent }) else (.nothing, window)
  | .opened _, .connect => (.withdraw, { state := .connected })
  | .silent, .connect => (.nothing, { state := .connected })
  | .connected, .disconnect => (.nothing, { state := .silent })
  | .silent, .timer => (.nothing, window)
  | .connected, .timer => (.nothing, window)
  | .connected, .connect => (.nothing, window)
  | .silent, .disconnect => (.nothing, window)
  | .opened _, .disconnect => (.nothing, window)

end Window

/-! ## Keeping the device on the air -/

/-- What the loop is at: waiting for what comes first, taking the device off the air and perhaps
putting it on again, putting it on, or done. -/
inductive Doing where
  | waiting
  | withdrawing (again : Bool)
  | registering
  | ended
deriving DecidableEq, Repr

/-- The loop's own state. -/
structure Keep where
  window : Window
  registered : Bool
  retry : Option ℕ
  backoff : ℕ
  doing : Doing
deriving DecidableEq, Repr

namespace Keep

/-- The loop as it begins. -/
def new : Keep where
  window := .new
  registered := false
  retry := none
  backoff := retryTime
  doing := .waiting

/-- An action is begun. -/
def act (keep : Keep) : Action → Keep
  -- Registered afresh on every press.
  | .advertise =>
      if keep.registered then { keep with doing := .withdrawing true }
      else { keep with doing := .registering }
  | .nothing => keep
  | .withdraw =>
      let keep := { keep with retry := none, backoff := retryTime }
      if keep.registered then { keep with doing := .withdrawing false } else keep

/-- An event is taken. -/
def handle (now : ℕ) (keep : Keep) (event : Event) : Keep :=
  let (action, window) := keep.window.handle now event
  { keep with window := window }.act action

/-- The device is off the air. -/
def withdrew (keep : Keep) (again : Bool) : Keep :=
  { keep with registered := false, doing := if again then .registering else .waiting }

/-- A registration has succeeded, or failed and is to be tried again. -/
def tried (now : ℕ) (keep : Keep) (succeeded : Bool) : Keep :=
  if succeeded then
    { keep with registered := true, retry := none, backoff := retryTime, doing := .waiting }
  else
    { keep with
      retry := some (now + keep.backoff)
      backoff := min (keep.backoff * 2) retryMax
      doing := .waiting }

end Keep

/-! ## Runs -/

/-- What a session, or a client refused one, tells of itself. -/
inductive SessionEvent where
  | opened
  | closed
  | refused
deriving DecidableEq, Repr

/-- What the window is sent of it. -/
def SessionEvent.toWindow : SessionEvent → List Event
  | .opened => [.connect]
  | .closed => [.disconnect]
  | .refused => []

/-- The loop, the events sent to it and not yet taken, the sessions that are open, and the time. -/
structure World where
  keep : Keep
  events : List Event
  serving : ℕ
  now : ℕ
deriving DecidableEq, Repr

/-- As the daemon begins. -/
def World.new : World where
  keep := .new
  events := []
  serving := 0
  now := 0

/-- What may happen: time passes; a session opens or closes; the loop finds the button pressed, takes
an event, or wakes as the window's time is up or a retry is due; a withdrawal ends, or a registration
does; and the loop is told to stop. -/
inductive Occurrence where
  | elapsed (nanos : ℕ)
  | session (event : SessionEvent)
  | pressed
  | took (event : Event)
  | timedOut
  | retried
  | withdrew
  | tried (succeeded : Bool)
  | stopped
deriving DecidableEq, Repr

/-- What comes of it, where it can happen. -/
def World.take (world : World) : Occurrence → Option World
  | .elapsed nanos => some { world with now := world.now + nanos }
  | .session event =>
      if event = .closed ∧ world.serving = 0 then none
      else some { world with
        events := world.events ++ event.toWindow
        serving :=
          match event with
          | .opened => world.serving + 1
          | .closed => world.serving - 1
          | .refused => world.serving }
  | .pressed =>
      if world.keep.doing = .waiting then
        some { world with keep := world.keep.handle world.now .press }
      else none
  | .took event =>
      match world.events with
      | [] => none
      | first :: rest =>
          if world.keep.doing = .waiting ∧ first = event then
            some { world with keep := world.keep.handle world.now event, events := rest }
          else none
  | .timedOut =>
      match world.keep.window.state with
      | .opened closes =>
          if world.keep.doing = .waiting ∧ closes ≤ world.now then
            some { world with keep := world.keep.handle world.now .timer }
          else none
      | .silent => none
      | .connected => none
  | .retried =>
      match world.keep.retry with
      | none => none
      | some due =>
          if world.keep.doing = .waiting ∧ due ≤ world.now then
            some { world with keep := world.keep.act .advertise }
          else none
  | .withdrew =>
      match world.keep.doing with
      | .withdrawing again => some { world with keep := world.keep.withdrew again }
      | .waiting => none
      | .registering => none
      | .ended => none
  | .tried succeeded =>
      if world.keep.doing = .registering then
        some { world with keep := world.keep.tried world.now succeeded }
      else none
  | .stopped =>
      if world.keep.doing = .waiting ∧ world.events = [] then
        some { world with keep := { world.keep with registered := false, doing := .ended } }
      else none

/-- What comes of it, with all that has occurred. -/
def occur (at_ : World × List Occurrence) (occurrence : Occurrence) :
    Option (World × List Occurrence) :=
  (at_.1.take occurrence).map fun world => (world, at_.2 ++ [occurrence])

/-- The world from the start, with all that has occurred. -/
def keeping : System (World × List Occurrence) Occurrence := .ofTake (· = (.new, [])) occur

/-! ## What is to hold -/

/-- The sessions open, and whether the button was pressed with none open since a session last opened
and the window last ended. -/
structure Told where
  sessions : ℕ
  pressed : Bool
deriving DecidableEq, Repr

/-- What an occurrence tells, by what tells of a session opening and what of one closing. -/
def Told.follow (opening closing : Occurrence) (told : Told) (occurrence : Occurrence) : Told :=
  if occurrence = opening then { sessions := told.sessions + 1, pressed := false }
  else if occurrence = closing then { told with sessions := told.sessions - 1 }
  else
    match occurrence with
    | .pressed => { told with pressed := told.pressed || told.sessions == 0 }
    | .timedOut => { told with pressed := false }
    | .took .connect => { told with pressed := false }
    | _ => told

/-- What there is to tell, the sessions counted as they open and close. -/
def asHappened (occurred : List Occurrence) : Told :=
  occurred.foldl (Told.follow (.session .opened) (.session .closed)) ⟨0, false⟩

/-- What there is to tell, the sessions counted as the loop takes their events. -/
def asTaken (occurred : List Occurrence) : Told :=
  occurred.foldl (Told.follow (.took .connect) (.took .disconnect)) ⟨0, false⟩

/-- When the device is on the air. -/
structure OnAir (world : World) (occurred : List Occurrence) : Prop where
  /-- The radio is registered only while the window is open. -/
  registered : world.keep.doing = .waiting → world.keep.registered = true →
    world.keep.window.isOpen = true
  /-- A retry is pending only while it is open and not registered. -/
  retrying : world.keep.doing = .waiting → world.keep.retry.isSome = true →
    world.keep.window.isOpen = true ∧ world.keep.registered = false
  /-- An open window is registered or awaiting a retry. -/
  trying : world.keep.doing = .waiting → world.keep.window.isOpen = true →
    world.keep.registered = true ∨ world.keep.retry.isSome = true
  /-- Nothing is registered while any session is open, nothing being left to take. -/
  sessions : world.keep.doing = .waiting → world.events = [] → 0 < world.serving →
    world.keep.registered = false
  /-- Nor where a window has ended or a session opened since the last press with none open. -/
  pressed : world.keep.doing = .waiting → world.events = [] → world.keep.registered = true →
    (asHappened occurred).pressed = true
  /-- Nor does a registration come of anything else, in the order the loop takes what occurs. -/
  registers : ∀ succeeded next, world.take (.tried succeeded) = some next →
    (asTaken occurred).pressed = true

/-- A press, where there is one, finds the window at a client if a session is open. -/
def Attended (at_ : World × List Occurrence) (occurrence : Occurrence) : Prop :=
  occurrence = .pressed →
    (asTaken at_.2).sessions = 0 ∨ at_.1.keep.window.state = .connected

instance (at_ : World × List Occurrence) (occurrence : Occurrence) :
    Decidable (Attended at_ occurrence) :=
  inferInstanceAs (Decidable (_ → _))

/-! ## What the loop keeps -/

/-- What holds of the loop: at a wait, an open window is registered or else awaits a retry, and
neither is so of another; a withdrawal is of an open window only to register it again; and what is
being registered is an open window that is not. -/
def Keep.Orderly (keep : Keep) : Prop :=
  match keep.doing with
  | .waiting =>
      if keep.window.isOpen then (keep.registered = true ↔ keep.retry = none)
      else keep.registered = false ∧ keep.retry = none
  | .withdrawing again => keep.window.isOpen = again ∧ keep.retry = none
  | .registering => keep.window.isOpen = true ∧ keep.registered = false
  | .ended => True

/-- How an event moves the window: open to be advertised, ended to be withdrawn, or neither. -/
theorem Window.handle_cases (now : ℕ) (window : Window) (event : Event) :
    ((window.handle now event).1 = .advertise ∧ event = .press ∧ window.state ≠ .connected ∧
        (window.handle now event).2.isOpen = true) ∨
      ((window.handle now event).1 = .withdraw ∧ event ≠ .press ∧
        window.isOpen = true ∧ (window.handle now event).2.isOpen = false) ∨
      ((window.handle now event).1 = .nothing ∧
        (window.handle now event).2.isOpen = window.isOpen ∧
        (event = .connect → window.isOpen = false) ∧
        (event = .press → window.state = .connected)) := by
  obtain ⟨state⟩ := window
  cases state with
  | silent => cases event <;> simp [Window.handle, Window.isOpen]
  | connected => cases event <;> simp [Window.handle, Window.isOpen]
  | opened closes =>
      cases event with
      | timer =>
          by_cases hdue : closes ≤ now
          · simp [Window.handle, Window.isOpen, hdue]
          · simp [Window.handle, Window.isOpen, hdue]
      | press => simp [Window.handle, Window.isOpen]
      | connect => simp [Window.handle, Window.isOpen]
      | disconnect => simp [Window.handle, Window.isOpen]

/-- A client connecting ends the window. -/
@[simp]
theorem Window.isOpen_connect (now : ℕ) (window : Window) :
    (window.handle now .connect).2.isOpen = false := by
  rcases window.handle_cases now .connect with ⟨-, hevent, -, -⟩ | ⟨-, -, -, hended⟩ |
    ⟨-, hsame, hclosed, -⟩
  · cases hevent
  · exact hended
  · rw [hsame]
    exact hclosed rfl

/-- One leaving neither opens nor ends it. -/
@[simp]
theorem Window.isOpen_disconnect (now : ℕ) (window : Window) :
    (window.handle now .disconnect).2.isOpen = window.isOpen := by
  obtain ⟨state⟩ := window
  cases state <;> rfl

/-- An action leaves the window. -/
@[simp]
theorem Keep.act_window (keep : Keep) (action : Action) : (keep.act action).window = keep.window := by
  cases action with
  | advertise => unfold Keep.act; split_ifs <;> rfl
  | nothing => rfl
  | withdraw => unfold Keep.act; dsimp only; split_ifs <;> rfl

@[simp]
theorem Keep.handle_window (now : ℕ) (keep : Keep) (event : Event) :
    (keep.handle now event).window = (keep.window.handle now event).2 :=
  Keep.act_window _ _

/-- A registration's end leaves the window. -/
@[simp]
theorem Keep.tried_window (now : ℕ) (keep : Keep) (succeeded : Bool) :
    (keep.tried now succeeded).window = keep.window := by
  cases succeeded <;> rfl

/-- Putting a device on the air whose window is open keeps the loop orderly. -/
theorem Keep.orderly_advertise {keep : Keep} (hopen : keep.window.isOpen = true)
    (hretry : keep.registered = true → keep.retry = none) : (keep.act .advertise).Orderly := by
  unfold Keep.act
  by_cases hregistered : keep.registered
  · simpa [Keep.Orderly, hregistered, hopen] using hretry hregistered
  · simpa [Keep.Orderly, hregistered] using hopen

theorem Keep.orderly_withdraw {keep : Keep} (hwaiting : keep.doing = .waiting)
    (hended : keep.window.isOpen = false) : (keep.act .withdraw).Orderly := by
  unfold Keep.act
  by_cases hregistered : keep.registered
  · simp [Keep.Orderly, hregistered, hended]
  · simp [Keep.Orderly, hregistered, hended, hwaiting]

namespace Keep.Orderly

variable {keep : Keep}

/-- What the loop is at as it waits. -/
theorem waits (horderly : keep.Orderly) (hwaiting : keep.doing = .waiting) :
    if keep.window.isOpen then (keep.registered = true ↔ keep.retry = none)
      else keep.registered = false ∧ keep.retry = none := by
  simpa [Keep.Orderly, hwaiting] using horderly

/-- Where nothing is registered and no retry is pending, what is registered awaits no retry. -/
theorem retry_none (horderly : keep.Orderly) (hwaiting : keep.doing = .waiting)
    (hregistered : keep.registered = true) : keep.retry = none := by
  have hwaits := horderly.waits hwaiting
  split_ifs at hwaits with hopen
  · exact hwaits.mp hregistered
  · exact hwaits.2

/-- Taking an event keeps the loop orderly. -/
theorem handle (horderly : keep.Orderly) (hwaiting : keep.doing = .waiting) (now : ℕ)
    (event : Event) : (keep.handle now event).Orderly := by
  unfold Keep.handle
  dsimp only
  rcases keep.window.handle_cases now event with ⟨haction, -, -, hopen⟩ | ⟨haction, -, -, hended⟩ |
    ⟨haction, hsame, -, -⟩
  · rw [haction]
    exact Keep.orderly_advertise hopen (horderly.retry_none hwaiting)
  · rw [haction]
    exact Keep.orderly_withdraw hwaiting hended
  · have hwaits := horderly.waits hwaiting
    rw [haction]
    simpa [Keep.act, Keep.Orderly, hwaiting, hsame] using hwaits

theorem retried (horderly : keep.Orderly) (hwaiting : keep.doing = .waiting) {due : ℕ}
    (hretry : keep.retry = some due) : (keep.act .advertise).Orderly := by
  have hwaits := horderly.waits hwaiting
  split_ifs at hwaits with hopen
  · exact Keep.orderly_advertise hopen (horderly.retry_none hwaiting)
  · rw [hretry] at hwaits
    cases hwaits.2

theorem withdrew (horderly : keep.Orderly) {again : Bool} (hdoing : keep.doing = .withdrawing again) :
    (keep.withdrew again).Orderly := by
  obtain ⟨hopen, hretry⟩ : keep.window.isOpen = again ∧ keep.retry = none := by
    simpa [Keep.Orderly, hdoing] using horderly
  cases again with
  | true => simp [Keep.Orderly, Keep.withdrew, hopen]
  | false => simp [Keep.Orderly, Keep.withdrew, hopen, hretry]

theorem tried (horderly : keep.Orderly) (hdoing : keep.doing = .registering) (now : ℕ)
    (succeeded : Bool) : (keep.tried now succeeded).Orderly := by
  obtain ⟨hopen, hregistered⟩ : keep.window.isOpen = true ∧ keep.registered = false := by
    simpa [Keep.Orderly, hdoing] using horderly
  cases succeeded with
  | true => simp [Keep.Orderly, Keep.tried, hopen]
  | false => simp [Keep.Orderly, Keep.tried, hopen, hregistered]

end Keep.Orderly

/-! ## What holds of every run -/

/-- How the count of sessions moves as their events are taken. -/
def Event.count (sessions : ℕ) : Event → ℕ
  | .connect => sessions + 1
  | .disconnect => sessions - 1
  | .press => sessions
  | .timer => sessions

/-- What holds of a run. -/
structure Kept (world : World) (occurred : List Occurrence) : Prop where
  orderly : world.keep.Orderly
  happened : (asHappened occurred).sessions = world.serving
  sent : ∀ event ∈ world.events, event = .connect ∨ event = .disconnect
  /-- The events not yet taken make up what the loop has not been told of. -/
  untaken : world.events.foldl Event.count (asTaken occurred).sessions = world.serving
  /-- What opened the window was pressed with no session open that the loop was told of. -/
  openTaken : world.keep.window.isOpen = true → asTaken occurred = ⟨0, true⟩
  /-- Nor was any other, unless its event is yet to be taken. -/
  openHappened : world.keep.window.isOpen = true →
    (asHappened occurred).pressed = true ∨ .connect ∈ world.events

@[simp]
theorem asHappened_append (occurred : List Occurrence) (occurrence : Occurrence) :
    asHappened (occurred ++ [occurrence]) =
      (asHappened occurred).follow (.session .opened) (.session .closed) occurrence := by
  rw [asHappened, List.foldl_append]
  rfl

@[simp]
theorem asTaken_append (occurred : List Occurrence) (occurrence : Occurrence) :
    asTaken (occurred ++ [occurrence]) =
      (asTaken occurred).follow (.took .connect) (.took .disconnect) occurrence := by
  rw [asTaken, List.foldl_append]
  rfl

/-- Where the count comes to some from none, a session has opened. -/
theorem connect_mem_of_count {events : List Event} {sessions : ℕ}
    (hcount : events.foldl Event.count 0 = sessions) (hsome : 0 < sessions) :
    .connect ∈ events := by
  induction events generalizing sessions with
  | nil =>
      rw [List.foldl_nil] at hcount
      omega
  | cons event rest ih =>
      rw [List.foldl_cons] at hcount
      cases event with
      | connect => exact List.mem_cons_self
      | disconnect => exact List.mem_cons_of_mem _ (ih hcount hsome)
      | press => exact List.mem_cons_of_mem _ (ih hcount hsome)
      | timer => exact List.mem_cons_of_mem _ (ih hcount hsome)

section Steps

variable {world next : World} {occurred : List Occurrence}

/-- The loop moving by itself, its window as it was, keeps what holds. -/
theorem Kept.within (hkept : Kept world occurred) {occurrence : Occurrence} {keep : Keep}
    (horderly : keep.Orderly) (hwindow : keep.window = world.keep.window)
    (hhappened : asHappened (occurred ++ [occurrence]) = asHappened occurred)
    (htaken : asTaken (occurred ++ [occurrence]) = asTaken occurred) :
    Kept { world with keep := keep } (occurred ++ [occurrence]) where
  orderly := horderly
  happened := by rw [hhappened]; exact hkept.happened
  sent := hkept.sent
  untaken := by rw [htaken]; exact hkept.untaken
  openTaken := by
    rw [hwindow, htaken]
    exact hkept.openTaken
  openHappened := by
    rw [hwindow, hhappened]
    exact hkept.openHappened

/-- A session's coming or going keeps what holds. -/
theorem Kept.session (hkept : Kept world occurred) {event : SessionEvent}
    (htake : world.take (.session event) = some next) :
    Kept next (occurred ++ [.session event]) := by
  obtain ⟨hsome, hnext⟩ := Option.ite_none_left_eq_some.mp htake
  obtain rfl := Option.some.inj hnext
  have htaken : asTaken (occurred ++ [.session event]) = asTaken occurred := by
    simp [Told.follow]
  constructor
  · exact hkept.orderly
  · cases event <;> simp [Told.follow, hkept.happened]
  · intro sent hsent
    rcases List.mem_append.mp hsent with hbefore | hnow
    · exact hkept.sent sent hbefore
    · cases event <;> simp_all [SessionEvent.toWindow]
  · rw [htaken, List.foldl_append, hkept.untaken]
    cases event <;> rfl
  · rw [htaken]
    exact hkept.openTaken
  · intro hopen
    cases event with
    | opened => exact .inr (List.mem_append_right _ List.mem_cons_self)
    | closed => simpa [Told.follow, SessionEvent.toWindow] using hkept.openHappened hopen
    | refused => simpa [Told.follow, SessionEvent.toWindow] using hkept.openHappened hopen

/-- A press keeps what holds, where it finds the window at a client if a session is open. -/
theorem Kept.pressed (hkept : Kept world occurred) (hattended : Attended (world, occurred) .pressed)
    (htake : world.take .pressed = some next) : Kept next (occurred ++ [.pressed]) := by
  obtain ⟨hwaiting, hnext⟩ := Option.ite_none_right_eq_some.mp htake
  obtain rfl := Option.some.inj hnext
  -- The window is open after it only where it was not at a client.
  have hnone : (world.keep.handle world.now .press).window.isOpen = true →
      (asTaken occurred).sessions = 0 := by
    intro hopen
    rcases hattended rfl with hnone | hconnected
    · exact hnone
    · have hstate : world.keep.window.state = .connected := hconnected
      simp [Window.handle, Window.isOpen, hstate] at hopen
  constructor
  · exact hkept.orderly.handle hwaiting world.now .press
  · simp [Told.follow, hkept.happened]
  · exact hkept.sent
  · simp [Told.follow, hkept.untaken]
  · intro hopen
    simp [Told.follow, hnone hopen]
  · intro hopen
    by_cases hserving : world.serving = 0
    · exact .inl (by simp [Told.follow, hkept.happened, hserving])
    · have huntaken := hkept.untaken
      rw [hnone hopen] at huntaken
      exact .inr (connect_mem_of_count huntaken (Nat.pos_of_ne_zero hserving))

/-- Taking an event keeps what holds. -/
theorem Kept.took (hkept : Kept world occurred) {event : Event}
    (htake : world.take (.took event) = some next) : Kept next (occurred ++ [.took event]) := by
  rcases hevents : world.events with _ | ⟨first, rest⟩
  · simp [World.take, hevents] at htake
  simp only [World.take, hevents] at htake
  obtain ⟨⟨hwaiting, rfl⟩, hnext⟩ := Option.ite_none_right_eq_some.mp htake
  obtain rfl := Option.some.inj hnext
  have huntaken := hkept.untaken
  have hsent := hkept.sent
  rw [hevents] at huntaken hsent
  have hrest : ∀ event ∈ rest, event = .connect ∨ event = .disconnect :=
    fun event hmem => hsent event (List.mem_cons_of_mem _ hmem)
  have horderly := hkept.orderly.handle hwaiting world.now first
  rcases hsent first List.mem_cons_self with rfl | rfl
  · refine ⟨horderly, ?_, hrest, ?_, ?_, ?_⟩
    · simp [Told.follow, hkept.happened]
    · simpa [Told.follow, Event.count] using huntaken
    · simp
    · simp
  · refine ⟨horderly, ?_, hrest, ?_, ?_, ?_⟩
    · simp [Told.follow, hkept.happened]
    · simpa [Told.follow, Event.count] using huntaken
    · intro hopen
      rw [Keep.handle_window, Window.isOpen_disconnect] at hopen
      simp [Told.follow, hkept.openTaken hopen]
    · intro hopen
      rw [Keep.handle_window, Window.isOpen_disconnect] at hopen
      simpa [Told.follow, hevents] using hkept.openHappened hopen

/-- The window's time being up keeps what holds. -/
theorem Kept.timedOut (hkept : Kept world occurred) (htake : world.take .timedOut = some next) :
    Kept next (occurred ++ [.timedOut]) := by
  rcases hstate : world.keep.window.state with _ | closes | _
  · simp [World.take, hstate] at htake
  · simp only [World.take, hstate] at htake
    obtain ⟨⟨hwaiting, hdue⟩, hnext⟩ := Option.ite_none_right_eq_some.mp htake
    obtain rfl := Option.some.inj hnext
    have hended : (world.keep.window.handle world.now .timer).2.isOpen = false := by
      simp [Window.handle, hstate, hdue, Window.isOpen]
    constructor
    · exact hkept.orderly.handle hwaiting world.now .timer
    · simp [Told.follow, hkept.happened]
    · exact hkept.sent
    · simp [Told.follow, hkept.untaken]
    · simp [hended]
    · simp [hended]
  · simp [World.take, hstate] at htake

/-- Whatever occurs keeps what holds, a press where it finds the window at a client if a session is
open. -/
theorem Kept.take (hkept : Kept world occurred) {occurrence : Occurrence}
    (hattended : Attended (world, occurred) occurrence)
    (htake : world.take occurrence = some next) : Kept next (occurred ++ [occurrence]) := by
  cases occurrence with
  | elapsed nanos =>
      obtain rfl := Option.some.inj htake
      have hwithin : Kept { world with keep := world.keep } (occurred ++ [.elapsed nanos]) :=
        hkept.within hkept.orderly rfl (by simp [Told.follow]) (by simp [Told.follow])
      exact ⟨hwithin.orderly, hwithin.happened, hwithin.sent, hwithin.untaken, hwithin.openTaken,
        hwithin.openHappened⟩
  | session event => exact hkept.session htake
  | pressed => exact hkept.pressed hattended htake
  | took event => exact hkept.took htake
  | timedOut => exact hkept.timedOut htake
  | retried =>
      rcases hretry : world.keep.retry with _ | due
      · simp [World.take, hretry] at htake
      · simp only [World.take, hretry] at htake
        obtain ⟨⟨hwaiting, -⟩, hnext⟩ := Option.ite_none_right_eq_some.mp htake
        obtain rfl := Option.some.inj hnext
        exact hkept.within (hkept.orderly.retried hwaiting hretry) (Keep.act_window _ _)
          (by simp [Told.follow]) (by simp [Told.follow])
  | withdrew =>
      rcases hdoing : world.keep.doing with _ | again | _ | _
      · simp [World.take, hdoing] at htake
      · simp only [World.take, hdoing] at htake
        obtain rfl := Option.some.inj htake
        exact hkept.within (hkept.orderly.withdrew hdoing) rfl
          (by simp [Told.follow]) (by simp [Told.follow])
      · simp [World.take, hdoing] at htake
      · simp [World.take, hdoing] at htake
  | tried succeeded =>
      obtain ⟨hdoing, hnext⟩ := Option.ite_none_right_eq_some.mp htake
      obtain rfl := Option.some.inj hnext
      exact hkept.within (hkept.orderly.tried hdoing world.now succeeded)
        (Keep.tried_window _ _ _) (by simp [Told.follow]) (by simp [Told.follow])
  | stopped =>
      obtain ⟨-, hnext⟩ := Option.ite_none_right_eq_some.mp htake
      obtain rfl := Option.some.inj hnext
      have hended : Keep.Orderly { world.keep with registered := false, doing := .ended } := trivial
      exact hkept.within hended rfl (by simp [Told.follow]) (by simp [Told.follow])

end Steps

/-! ## When the device is on the air -/

/-- What holds, holds of every run whose presses find the window at a client where a session is
open. -/
theorem kept_of_guarded {at_ : World × List Occurrence}
    (hreach : (keeping.guarded Attended).Reachable at_) : Kept at_.1 at_.2 := by
  induction hreach with
  | start hinit =>
      obtain rfl := hinit
      constructor
      · exact ⟨rfl, rfl⟩
      · rfl
      · exact fun _ hsent => nomatch hsent
      · rfl
      · exact fun hopen => nomatch hopen
      · exact fun hopen => nomatch hopen
  | next _ hstep hkept =>
      obtain ⟨hattended, htake⟩ := hstep
      obtain ⟨world, htaken, rfl⟩ := Option.map_eq_some_iff.mp htake
      exact hkept.take hattended htaken

section OnAir

variable {world : World} {occurred : List Occurrence}

/-- What holds says when the device is on the air. -/
theorem Kept.airs (hkept : Kept world occurred) : OnAir world occurred := by
  have hwaits := fun hwaiting => hkept.orderly.waits hwaiting
  have hopen : world.keep.doing = .waiting → world.keep.registered = true →
      world.keep.window.isOpen = true := by
    intro hwaiting hregistered
    by_contra hended
    have hnothing := hwaits hwaiting
    rw [if_neg hended] at hnothing
    rw [hregistered] at hnothing
    cases hnothing.1
  constructor
  · exact hopen
  · intro hwaiting hretry
    have hone := hwaits hwaiting
    split_ifs at hone with hisOpen
    · refine ⟨hisOpen, Bool.eq_false_iff.mpr fun hregistered => ?_⟩
      rw [hone.mp hregistered] at hretry
      cases hretry
    · rw [hone.2] at hretry
      cases hretry
  · intro hwaiting hisOpen
    have hone := hwaits hwaiting
    rw [if_pos hisOpen] at hone
    by_cases hregistered : world.keep.registered = true
    · exact .inl hregistered
    · exact .inr (Option.isSome_iff_ne_none.mpr fun hnone => hregistered (hone.mpr hnone))
  · intro hwaiting hevents hserving
    refine Bool.eq_false_iff.mpr fun hregistered => ?_
    have huntaken := hkept.untaken
    rw [hevents, hkept.openTaken (hopen hwaiting hregistered), List.foldl_nil] at huntaken
    exact absurd huntaken (Nat.ne_of_lt hserving)
  · intro hwaiting hevents hregistered
    rcases hkept.openHappened (hopen hwaiting hregistered) with hpressed | hconnect
    · exact hpressed
    · rw [hevents] at hconnect
      cases hconnect
  · intro succeeded next htake
    obtain ⟨hdoing, -⟩ := Option.ite_none_right_eq_some.mp htake
    have hregistering : world.keep.window.isOpen = true ∧ world.keep.registered = false := by
      simpa [Keep.Orderly, hdoing] using hkept.orderly
    rw [hkept.openTaken hregistering.1]

/-- A press counts only until a session opens. -/
theorem Told.follow_alone {opening closing : Occurrence} {told : Told}
    (halone : told.pressed = true → told.sessions = 0) (occurrence : Occurrence) :
    (told.follow opening closing occurrence).pressed = true →
      (told.follow opening closing occurrence).sessions = 0 := by
  unfold Told.follow
  split_ifs with hopening hclosing
  · simp
  · intro hpressed
    rw [halone hpressed]
  · split
    · intro hpressed
      rcases Bool.or_eq_true_iff.mp hpressed with hbefore | hnone
      · exact halone hbefore
      · exact beq_iff_eq.mp hnone
    · simp
    · simp
    · exact halone

theorem asTaken_alone (occurred : List Occurrence) :
    (asTaken occurred).pressed = true → (asTaken occurred).sessions = 0 := by
  induction occurred using List.reverseRecOn with
  | nil => exact fun hpressed => nomatch hpressed
  | append_singleton occurred occurrence ih =>
      rw [asTaken_append]
      exact Told.follow_alone ih occurrence

/-- A press that finds a session open and the window at no client puts the device on the air. -/
theorem Kept.not_onAir_of_press (hkept : Kept world occurred) {next : World}
    (htake : world.take .pressed = some next)
    (hnot : ¬ Attended (world, occurred) .pressed) : ¬ OnAir next (occurred ++ [.pressed]) := by
  obtain ⟨hwaiting, hnext⟩ := Option.ite_none_right_eq_some.mp htake
  obtain rfl := Option.some.inj hnext
  simp only [Attended, forall_const, not_or] at hnot
  obtain ⟨hsome, hnone⟩ := hnot
  have hended : world.keep.window.isOpen = false := by
    refine Bool.eq_false_iff.mpr fun hopen => hsome ?_
    rw [hkept.openTaken hopen]
  have hregistered : world.keep.registered = false := by
    have hone := hkept.orderly.waits hwaiting
    rw [if_neg (by rw [hended]; exact Bool.false_ne_true)] at hone
    exact hone.1
  have hunpressed : (asTaken occurred).pressed = false :=
    Bool.eq_false_iff.mpr fun hpressed => hsome (asTaken_alone occurred hpressed)
  have hregistering : (world.keep.handle world.now .press).doing = .registering := by
    rcases hstate : world.keep.window.state with _ | closes | _
    · simp [Keep.handle, Window.handle, Keep.act, hstate, hregistered]
    · simp [Window.isOpen, hstate] at hended
    · exact absurd hstate hnone
  intro honAir
  have hpressed := honAir.registers true _ (if_pos hregistering)
  simp [Told.follow, hunpressed, hsome] at hpressed

/-- While every press finds the window at a client where a session is open, the device is on the air
only when it is to be; and the first press that does not ends that. -/
theorem onAir (hreach : (keeping.guarded Attended).Reachable (world, occurred)) :
    OnAir world occurred ∧ ∀ next, world.take .pressed = some next →
      (OnAir next (occurred ++ [.pressed]) ↔ Attended (world, occurred) .pressed) := by
  have hkept := kept_of_guarded hreach
  refine ⟨hkept.airs, fun next htake => ⟨fun honAir => ?_, fun hattended => ?_⟩⟩
  · by_contra hnot
    exact hkept.not_onAir_of_press htake hnot honAir
  · exact (hkept.pressed hattended htake).airs

end OnAir

/-- A client's session opens, is replaced and ends, and a press afterwards whose registration fails
is retried. -/
def retrying : List Occurrence :=
  [.session .opened, .took .connect, .session .opened, .took .connect, .session .closed,
    .took .disconnect, .session .closed, .took .disconnect, .pressed, .tried false,
    .elapsed retryTime, .retried, .tried true]

/-- A device whose registration failed is on the air once it is retried. -/
theorem onAir_retrying :
    ∃ world occurred, world.keep.registered = true ∧ OnAir world occurred ∧
      ∀ next, world.take .pressed = some next →
        (OnAir next (occurred ++ [.pressed]) ↔ Attended (world, occurred) .pressed) := by
  have hrun : ((System.run
      (fun at_ occurrence => if Attended at_ occurrence then occur at_ occurrence else none)
      (.new, []) retrying).map fun at_ => at_.1.keep.registered) = some true := by decide
  obtain ⟨⟨world, occurred⟩, hat, hregistered⟩ := Option.map_eq_some_iff.mp hrun
  have hstart : (keeping.guarded Attended).Reachable (.new, []) := .start rfl
  have hreach : (keeping.guarded Attended).Reachable (world, occurred) :=
    hstart.of_run (fun _ _ _ _ htake => Option.ite_none_right_eq_some.mp htake) hat
  exact ⟨world, occurred, hregistered, onAir hreach⟩

/-- A client subscribes again, its first session ends, and the button is pressed. -/
def replacing : List Occurrence :=
  [.session .opened, .took .connect, .session .opened, .took .connect, .session .closed,
    .took .disconnect, .pressed, .tried true]

/-- The end of a client's first session leaves a press to put the device on the air while its second
is open. -/
theorem not_onAir : ¬ ∀ world occurred, keeping.Reachable (world, occurred) →
    OnAir world occurred := by
  intro hall
  have hrun : ((System.run occur (.new, []) replacing).map fun at_ =>
      (at_.1.keep.doing, at_.1.events, at_.1.serving, at_.1.keep.registered)) =
        some (.waiting, [], 1, true) := by decide
  obtain ⟨⟨world, occurred⟩, hat, hends⟩ := Option.map_eq_some_iff.mp hrun
  have hstart : keeping.Reachable (.new, []) := .start rfl
  have hreach : keeping.Reachable (world, occurred) :=
    hstart.of_run (fun _ _ _ _ htake => htake) hat
  simp only [Prod.mk.injEq] at hends
  obtain ⟨hwaiting, hevents, hserving, hregistered⟩ := hends
  have hsilent := (hall world occurred hreach).sessions hwaiting hevents (by omega)
  rw [hregistered] at hsilent
  cases hsilent

end Bliti.Provision.Air
