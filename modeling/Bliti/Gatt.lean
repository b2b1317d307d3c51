import Mathlib.Data.List.Basic
import Mathlib.Logic.Function.Basic
import Bliti.Library.Transition

/-!
# The GATT transport - each client's bytes to its own session

What a client writes is queued for the transport of its current session, which reads it in pieces of
any size.  A client that subscribes again replaces its session; a transport that is dropped, or one
that does not keep up, stops receiving.  The queue is a bounded channel with one sender, which holds
as many chunks as it is made for and one more.

Main results:

- Theorem `delivers`: what a session reads, over any run.
-/

namespace Bliti.Gatt

open Transition (System)

/-- How many chunks to buffer before applying backpressure. -/
def queueDepth : ℕ := 64

/-- The chunks a queue holds: as many as it is made for, and one for its one sender. -/
def capacity : ℕ := queueDepth + 1

/-- The receiving end of a queue: the chunks in it, and whether its sender is still held. -/
structure Receiver where
  queue : List (List UInt8)
  connected : Bool

/-- A byte stream for one client, of which the half that is written is left out. -/
structure GattTransport (α : Type) where
  client : α
  inbound : Receiver
  pending : List UInt8
  consumed : ℕ

/-- The sink and the transports: the queue each client's bytes are delivered to, and each transport
that is not dropped, by its queue. -/
structure State (α : Type) where
  sessions : α → Option ℕ
  transports : ℕ → Option (GattTransport α)
  made : ℕ

/-- What comes of a delivery: no session, queued, or an error as the queue is full or its receiver is
gone. -/
inductive Delivery where
  | nobody
  | sent
  | full
  | gone
deriving DecidableEq, Repr

/-- What a read returns. -/
inductive Poll where
  | ready (bytes : List UInt8)
  | pending
deriving DecidableEq, Repr

/-- The bytes a read returns. -/
def Poll.returned : Poll → List UInt8
  | .ready bytes => bytes
  | .pending => []

/-! ## Reading -/

/-- What is pending is read into a buffer of some length. -/
def give (buf : ℕ) (pending : List UInt8) (consumed : ℕ) : List UInt8 × List UInt8 × ℕ :=
  let available := pending.drop consumed
  let n := min available.length buf
  let consumed := consumed + n
  if consumed = pending.length then (available.take n, [], 0) else (available.take n, pending, consumed)

/-- A read into a buffer of some length, of what is pending or else of the queue. -/
def pollFrom (buf : ℕ) (connected : Bool) :
    List UInt8 → ℕ → List (List UInt8) → Poll × List UInt8 × ℕ × List (List UInt8)
  | pending, consumed, [] =>
      if consumed < pending.length then
        let (read, pending, consumed) := give buf pending consumed
        (.ready read, pending, consumed, [])
      -- Once the client has gone, the end of the stream.
      else (if connected then .pending else .ready [], pending, consumed, [])
  | pending, consumed, chunk :: rest =>
      if consumed < pending.length then
        let (read, pending, consumed) := give buf pending consumed
        (.ready read, pending, consumed, chunk :: rest)
      else pollFrom buf connected chunk 0 rest

/-- A read of a transport. -/
def pollRead {α : Type} (buf : ℕ) (transport : GattTransport α) : Poll × GattTransport α :=
  let (poll, pending, consumed, queue) :=
    pollFrom buf transport.inbound.connected transport.pending transport.consumed
      transport.inbound.queue
  (poll, { transport with
    inbound := { transport.inbound with queue := queue }, pending := pending, consumed := consumed })

/-- What a transport has received and not yet given to a read. -/
def GattTransport.unread {α : Type} (transport : GattTransport α) : List UInt8 :=
  transport.pending.drop transport.consumed ++ transport.inbound.queue.flatten

/-- What a read may return: of what is unread its first bytes, some of them where there is room for
any; and where nothing is, the end of the stream once no more can come. -/
inductive Polled (buf : ℕ) (connected : Bool) (unread left : List UInt8) : Poll → Prop where
  | bytes {bytes : List UInt8} (hunread : unread = bytes ++ left) (hsome : unread ≠ [])
      (hread : bytes = [] → buf = 0) : Polled buf connected unread left (.ready bytes)
  | ended (hunread : unread = []) (hleft : left = []) (hgone : connected = false) :
      Polled buf connected unread left (.ready [])
  | pending (hunread : unread = []) (hleft : left = []) (hheld : connected = true) :
      Polled buf connected unread left .pending

/-- What is pending is read from its front, some of it where there is room for any. -/
theorem give_spec (buf : ℕ) {pending : List UInt8} {consumed : ℕ}
    (hmore : consumed < pending.length) :
    pending.drop consumed = (give buf pending consumed).1 ++
        (give buf pending consumed).2.1.drop (give buf pending consumed).2.2 ∧
      ((give buf pending consumed).1 = [] → buf = 0) := by
  have hdrop : 0 < (pending.drop consumed).length := by
    rw [List.length_drop]
    omega
  have hfirst : pending.drop consumed =
      (pending.drop consumed).take (min (pending.drop consumed).length buf) ++
        pending.drop (consumed + min (pending.drop consumed).length buf) := by
    rw [← List.drop_drop, List.take_append_drop]
  have hroom : (pending.drop consumed).take (min (pending.drop consumed).length buf) = [] →
      buf = 0 := by
    intro hnil
    have hlength := congrArg List.length hnil
    rw [List.length_take, List.length_nil] at hlength
    omega
  unfold give
  dsimp only
  split_ifs with hall
  · rw [hall, List.drop_length] at hfirst
    exact ⟨hfirst, hroom⟩
  · exact ⟨hfirst, hroom⟩

/-- A read returns the first of what is unread, and leaves the rest. -/
theorem pollFrom_polled (buf : ℕ) (connected : Bool) (pending : List UInt8) (consumed : ℕ)
    (queue : List (List UInt8)) :
    let (poll, after, place, rest) := pollFrom buf connected pending consumed queue
    Polled buf connected (pending.drop consumed ++ queue.flatten) (after.drop place ++ rest.flatten)
      poll := by
  have hgiven : ∀ {pending : List UInt8} {consumed : ℕ} (queue : List (List UInt8)),
      consumed < pending.length →
        Polled buf connected (pending.drop consumed ++ queue.flatten)
          ((give buf pending consumed).2.1.drop (give buf pending consumed).2.2 ++ queue.flatten)
          (.ready (give buf pending consumed).1) := by
    intro pending consumed queue hmore
    obtain ⟨hfirst, hroom⟩ := give_spec buf hmore
    refine .bytes ?_ ?_ hroom
    · rw [← List.append_assoc, ← hfirst]
    · intro hnil
      have hlength := congrArg List.length (List.append_eq_nil_iff.mp hnil).1
      rw [List.length_drop, List.length_nil] at hlength
      omega
  induction queue generalizing pending consumed with
  | nil =>
      unfold pollFrom
      by_cases hmore : consumed < pending.length
      · rw [if_pos hmore]
        exact hgiven [] hmore
      · have hempty : pending.drop consumed ++ ([] : List (List UInt8)).flatten = [] := by
          rw [List.flatten_nil, List.append_nil]
          exact List.drop_of_length_le (Nat.not_lt.mp hmore)
        rw [if_neg hmore]
        cases connected with
        | true => exact .pending hempty hempty rfl
        | false => exact .ended hempty hempty rfl
  | cons chunk rest ih =>
      unfold pollFrom
      by_cases hmore : consumed < pending.length
      · rw [if_pos hmore]
        exact hgiven (chunk :: rest) hmore
      · rw [if_neg hmore, List.drop_of_length_le (Nat.not_lt.mp hmore), List.nil_append,
          List.flatten_cons]
        exact ih chunk 0

/-- A read of a transport returns the first of what it has not read. -/
theorem pollRead_polled {α : Type} (buf : ℕ) (transport : GattTransport α) :
    Polled buf transport.inbound.connected transport.unread (pollRead buf transport).2.unread
        (pollRead buf transport).1 ∧
      (pollRead buf transport).2.client = transport.client ∧
      (pollRead buf transport).2.inbound.connected = transport.inbound.connected :=
  ⟨pollFrom_polled _ _ _ _ _, rfl, rfl⟩

/-! ## Delivering -/

namespace State

variable {α : Type} [DecidableEq α]

/-- The sender of a queue is dropped. -/
def disconnect (state : State α) (channel : ℕ) : State α :=
  { state with
    transports := Function.update state.transports channel
      ((state.transports channel).map fun transport =>
        { transport with inbound := { transport.inbound with connected := false } }) }

/-- A client's bytes are delivered to a queue from now on, in place of any before. -/
def install (state : State α) (client : α) (channel : ℕ) : State α :=
  let state :=
    match state.sessions client with
    | some earlier => state.disconnect earlier
    | none => state
  { state with sessions := Function.update state.sessions client (some channel) }

/-- A transport is opened for a client's session. -/
def openTransport (state : State α) (client : α) : State α :=
  let channel := state.made
  let transport := {
    client := client
    inbound := { queue := [], connected := true }
    pending := []
    consumed := 0 }
  let state := {
    state with
    made := state.made + 1
    transports := Function.update state.transports channel (some transport) }
  state.install client channel

/-- Bytes a client wrote are delivered to its session, if it has one. -/
def deliver (state : State α) (client : α) (bytes : List UInt8) : Delivery × State α :=
  match state.sessions client with
  | none => (.nobody, state)
  | some channel =>
      let removed := Function.update state.sessions client none
      match state.transports channel with
      | none => (.gone, { state with sessions := removed })
      | some transport =>
          if capacity ≤ transport.inbound.queue.length then
            (.full, { state.disconnect channel with sessions := removed })
          else
            let inbound := {
              transport.inbound with queue := transport.inbound.queue ++ [bytes] }
            (.sent, { state with
              transports := Function.update state.transports channel
                (some { transport with inbound := inbound }) })

/-- A transport is dropped, and stops receiving unless a later one has replaced it. -/
def dropTransport (state : State α) (channel : ℕ) (transport : GattTransport α) : State α where
  sessions :=
    if state.sessions transport.client = some channel then
      Function.update state.sessions transport.client none
    else state.sessions
  transports := Function.update state.transports channel none
  made := state.made

end State

/-! ## Runs -/

/-- What happens: a transport is opened, bytes are delivered, a transport is dropped or read. -/
inductive Event (α : Type) where
  | opened (client : α) (channel : ℕ)
  | delivered (client : α) (bytes : List UInt8) (delivery : Delivery)
  | dropped (channel : ℕ)
  | read (channel buf : ℕ) (poll : Poll)

variable {α : Type} [DecidableEq α]

/-- What may happen, and what comes of it. -/
inductive Step (state : State α) : Event α → State α → Prop where
  | opened (client : α) : Step state (.opened client state.made) (state.openTransport client)
  | delivered (client : α) (bytes : List UInt8) :
      Step state (.delivered client bytes (state.deliver client bytes).1)
        (state.deliver client bytes).2
  | dropped {channel : ℕ} {transport : GattTransport α}
      (hheld : state.transports channel = some transport) :
      Step state (.dropped channel) (state.dropTransport channel transport)
  | read {channel : ℕ} {transport : GattTransport α} (buf : ℕ)
      (hheld : state.transports channel = some transport) :
      Step state (.read channel buf (pollRead buf transport).1)
        { state with
          transports := Function.update state.transports channel (some (pollRead buf transport).2) }

/-- The transport from the start, with all that happened. -/
def system (α : Type) [DecidableEq α] : System (State α × List (Event α)) (Event α) where
  init at_ := at_ = ({ sessions := fun _ => none, transports := fun _ => none, made := 0 }, [])
  step at_ event next := Step at_.1 event next.1 ∧ next.2 = at_.2 ++ [event]

/-! ## What a session is to read -/

/-- A session, from what happened alone: its client, whether it has ended, what was delivered for
its client until then, and what was read of it. -/
structure Session (α : Type) where
  client : α
  ended : Bool
  written : List UInt8
  read : List UInt8

/-- What an event tells of a session: it begins as its transport is opened, and ends as its client
opens another, it is dropped, or its queue is found full. -/
def follow (channel : ℕ) : Option (Session α) → Event α → Option (Session α)
  | none, .opened client other =>
      if other = channel then some { client := client, ended := false, written := [], read := [] }
      else none
  | none, _ => none
  | some session, .opened client _ =>
      some (if client = session.client then { session with ended := true } else session)
  | some session, .delivered client bytes delivery =>
      some (
        if client = session.client ∧ session.ended = false then
          if delivery = .full then { session with ended := true }
          else { session with written := session.written ++ bytes }
        else session)
  | some session, .dropped other =>
      some (if other = channel then { session with ended := true } else session)
  | some session, .read other _ (.ready bytes) =>
      some (if other = channel then { session with read := session.read ++ bytes } else session)
  | some session, .read _ _ .pending => some session

/-- The session of a transport. -/
def sessionOf (channel : ℕ) (events : List (Event α)) : Option (Session α) :=
  events.foldl (follow channel) none

@[simp]
theorem sessionOf_append (channel : ℕ) (events : List (Event α)) (event : Event α) :
    sessionOf channel (events ++ [event]) = follow channel (sessionOf channel events) event := by
  rw [sessionOf, List.foldl_append]
  rfl

/-! ## What holds of every run -/

/-- A transport and its session agree: neither is made; what is read and what is not yet is what was
written, and the session has ended once the transport's sender is gone; or the transport is
dropped. -/
inductive Agrees : Option (GattTransport α) → Option (Session α) → Prop where
  | unmade : Agrees none none
  | held {transport : GattTransport α} {session : Session α}
      (hclient : session.client = transport.client)
      (hended : session.ended = !transport.inbound.connected)
      (hwritten : session.written = session.read ++ transport.unread) :
      Agrees (some transport) (some session)
  | dropped {session : Session α} (hended : session.ended = true)
      (hread : session.read <+: session.written) : Agrees none (some session)

/-- What holds of the transports and their sessions: a client's bytes are delivered to the queue
whose sender is held for it, and to no other. -/
structure Kept (state : State α) (told : ℕ → Option (Session α)) : Prop where
  fresh : ∀ channel, state.made ≤ channel → state.transports channel = none ∧ told channel = none
  sink : ∀ client channel, state.sessions client = some channel ↔
    ∃ transport, state.transports channel = some transport ∧ transport.client = client ∧
      transport.inbound.connected = true
  agrees : ∀ channel, Agrees (state.transports channel) (told channel)

/-- A session that has ended. -/
def Session.finish (session : Session α) : Session α :=
  { session with ended := true }

/-- A transport with one more chunk in its queue. -/
def GattTransport.queue (transport : GattTransport α) (bytes : List UInt8) : GattTransport α :=
  { transport with
    inbound := { transport.inbound with queue := transport.inbound.queue ++ [bytes] } }

/-- A transport whose sender is gone. -/
def GattTransport.hangUp (transport : GattTransport α) : GattTransport α :=
  { transport with inbound := { transport.inbound with connected := false } }

section Steps

variable {state : State α} {told : ℕ → Option (Session α)} {client : α} {channel : ℕ}
  {transport : GattTransport α} {session : Session α}

omit [DecidableEq α] in
/-- A session that has not ended is the one its client's bytes are delivered to. -/
theorem Kept.delivered_to (hkept : Kept state told) (hsession : told channel = some session)
    (hlive : session.ended = false) : state.sessions session.client = some channel := by
  have hagrees := hkept.agrees channel
  rw [hsession] at hagrees
  generalize htransport : state.transports channel = found at hagrees
  cases hagrees with
  | held hclient hended hwritten =>
      rw [hlive] at hended
      exact (hkept.sink _ _).mpr ⟨_, htransport, hclient.symm, by simpa using hended.symm⟩
  | dropped hended hread =>
      rw [hlive] at hended
      cases hended

omit [DecidableEq α] in
/-- The session a client's bytes are delivered to has its client, and has not ended. -/
theorem Kept.live (hkept : Kept state told) (hsession : state.sessions client = some channel) :
    ∃ transport session, state.transports channel = some transport ∧ told channel = some session ∧
      transport.client = client ∧ transport.inbound.connected = true ∧
      session.client = client ∧ session.ended = false ∧
      session.written = session.read ++ transport.unread := by
  obtain ⟨transport, htransport, hclient, hconnected⟩ := (hkept.sink _ _).mp hsession
  have hagrees := hkept.agrees channel
  rw [htransport] at hagrees
  generalize htold : told channel = found at hagrees
  cases hagrees with
  | held hown hended hwritten =>
      refine ⟨_, _, htransport, rfl, hclient, hconnected, hown.trans hclient, ?_, hwritten⟩
      rw [hended, hconnected]
      rfl

omit [DecidableEq α] in
/-- A transport that is held was made. -/
theorem Kept.held_lt (hkept : Kept state told) (hheld : state.transports channel = some transport) :
    channel < state.made := by
  by_contra hmade
  rw [(hkept.fresh channel (Nat.not_lt.mp hmade)).1] at hheld
  cases hheld

omit [DecidableEq α] in
/-- What is not made stays so, whatever becomes of one that is. -/
theorem Kept.fresh_update (hkept : Kept state told) (hmade : channel < state.made)
    (after : Option (GattTransport α)) (later : Option (Session α)) {other : ℕ}
    (hother : state.made ≤ other) :
    Function.update state.transports channel after other = none ∧
      Function.update told channel later other = none := by
  have hne : other ≠ channel := Nat.ne_of_gt (Nat.lt_of_lt_of_le hmade hother)
  rw [Function.update_of_ne hne, Function.update_of_ne hne]
  exact hkept.fresh other hother

omit [DecidableEq α] in
/-- Transports and sessions agree once one of each is put in place that do. -/
theorem Kept.agrees_update (hkept : Kept state told) {after : Option (GattTransport α)}
    {later : Option (Session α)} (hagrees : Agrees after later) (channel other : ℕ) :
    Agrees (Function.update state.transports channel after other)
      (Function.update told channel later other) := by
  by_cases hne : other = channel
  · rw [hne, Function.update_self, Function.update_self]
    exact hagrees
  · rw [Function.update_of_ne hne, Function.update_of_ne hne]
    exact hkept.agrees other

omit [DecidableEq α] in
/-- A transport and its session may change together, while they agree and the transport is the same
client's, its sender held as before. -/
theorem Kept.change (hkept : Kept state told) (hheld : state.transports channel = some transport)
    {after : GattTransport α} {later : Session α} (hclient : after.client = transport.client)
    (hconnected : after.inbound.connected = transport.inbound.connected)
    (hagrees : Agrees (some after) (some later)) :
    Kept { state with transports := Function.update state.transports channel (some after) }
      (Function.update told channel (some later)) := by
  constructor
  · exact fun other hmade => hkept.fresh_update (hkept.held_lt hheld) _ _ hmade
  · intro client other
    rw [hkept.sink client other]
    by_cases hne : other = channel
    · rw [hne, hheld]
      simp [hclient, hconnected]
    · simp only [Function.update_of_ne hne]
  · exact hkept.agrees_update hagrees channel

/-- The session of a client may be cut off: its sender dropped, and its bytes delivered nowhere. -/
theorem Kept.cut (hkept : Kept state told) (hsession : state.sessions client = some channel) :
    Kept { state.disconnect channel with sessions := Function.update state.sessions client none }
      (Function.update told channel ((told channel).map Session.finish)) := by
  obtain ⟨transport, session, htransport, htold, hclient, -, hown, -, hwritten⟩ :=
    hkept.live hsession
  have hafter : (state.disconnect channel).transports =
      Function.update state.transports channel (some transport.hangUp) := by
    rw [State.disconnect, htransport]
    rfl
  constructor
  · intro other hmade
    rw [hafter]
    exact hkept.fresh_update (hkept.held_lt htransport) _ _ hmade
  · intro owner other
    simp only [hafter]
    by_cases hne : other = channel
    · rw [hne, Function.update_self]
      refine iff_of_false ?_ ?_
      · by_cases howner : owner = client
        · rw [howner, Function.update_self]
          simp
        · rw [Function.update_of_ne howner, hkept.sink, htransport]
          rintro ⟨found, hfound, hcurrent, -⟩
          rw [← Option.some.inj hfound, hclient] at hcurrent
          exact howner hcurrent.symm
      · rintro ⟨found, hfound, -, hlive⟩
        rw [← Option.some.inj hfound] at hlive
        cases hlive
    · rw [Function.update_of_ne hne, ← hkept.sink]
      by_cases howner : owner = client
      · rw [howner, Function.update_self, hsession]
        simp [Ne.symm hne]
      · rw [Function.update_of_ne howner]
  · intro other
    have hgone : Agrees (some transport.hangUp) (some session.finish) :=
      .held (hown.trans hclient.symm) rfl hwritten
    rw [hafter, htold]
    exact hkept.agrees_update hgone channel other

/-- A transport may be opened for a client that has no session. -/
theorem Kept.start (hkept : Kept state told) (hnone : state.sessions client = none) :
    Kept {
        sessions := Function.update state.sessions client (some state.made)
        transports := Function.update state.transports state.made (some {
          client := client
          inbound := { queue := [], connected := true }
          pending := []
          consumed := 0 })
        made := state.made + 1 }
      (Function.update told state.made
        (some { client := client, ended := false, written := [], read := [] })) := by
  constructor
  · intro other hmade
    have hne : other ≠ state.made := Nat.ne_of_gt (Nat.lt_of_succ_le hmade)
    simp only [Function.update_of_ne hne]
    exact hkept.fresh other (Nat.le_of_succ_le hmade)
  · intro owner other
    by_cases hne : other = state.made
    · subst hne
      simp only [Function.update_self, Option.some.injEq, exists_eq_left', and_true]
      by_cases howner : owner = client
      · rw [howner, Function.update_self]
        simp
      · rw [Function.update_of_ne howner, hkept.sink, (hkept.fresh _ (Nat.le_refl _)).1]
        simp [Ne.symm howner]
    · simp only [Function.update_of_ne hne]
      rw [← hkept.sink]
      by_cases howner : owner = client
      · rw [howner, Function.update_self, hnone]
        simp [Ne.symm hne]
      · rw [Function.update_of_ne howner]
  · exact hkept.agrees_update (.held rfl rfl rfl) state.made

/-- A transport that is dropped leaves what is delivered to any other. -/
theorem Kept.dropTransport_sessions (hkept : Kept state told)
    (hheld : state.transports channel = some transport) (owner : α) (other : ℕ) :
    (state.dropTransport channel transport).sessions owner = some other ↔
      state.sessions owner = some other ∧ other ≠ channel := by
  have howned : state.sessions owner = some channel → owner = transport.client := by
    intro hsession
    obtain ⟨found, hfound, hclient, -⟩ := (hkept.sink _ _).mp hsession
    rw [hheld] at hfound
    rw [← hclient, Option.some.inj hfound]
  unfold State.dropTransport
  dsimp only
  by_cases howner : owner = transport.client
  · subst howner
    by_cases hcurrent : state.sessions transport.client = some channel
    · rw [if_pos hcurrent, Function.update_self, hcurrent]
      simp [eq_comm]
    · rw [if_neg hcurrent]
      refine ⟨fun hsession => ⟨hsession, ?_⟩, And.left⟩
      rintro rfl
      exact hcurrent hsession
  · have hsame : (if state.sessions transport.client = some channel then
        Function.update state.sessions transport.client none else state.sessions) owner =
          state.sessions owner := by
      split_ifs
      · exact Function.update_of_ne howner ..
      · rfl
    rw [hsame]
    refine ⟨fun hsession => ⟨hsession, ?_⟩, And.left⟩
    rintro rfl
    exact howner (howned hsession)

/-- A transport may be dropped. -/
theorem Kept.drop (hkept : Kept state told) (hheld : state.transports channel = some transport) :
    Kept (state.dropTransport channel transport)
      (Function.update told channel ((told channel).map Session.finish)) := by
  constructor
  · exact fun other hmade => hkept.fresh_update (hkept.held_lt hheld) _ _ hmade
  · intro owner other
    rw [hkept.dropTransport_sessions hheld, hkept.sink]
    by_cases hne : other = channel
    · simp [State.dropTransport, hne]
    · simp [State.dropTransport, hne]
  · refine hkept.agrees_update ?_ channel
    have hagrees := hkept.agrees channel
    rw [hheld] at hagrees
    generalize told channel = found at hagrees
    cases hagrees with
    | held hclient hended hwritten =>
        exact .dropped rfl (hwritten ▸ List.prefix_append _ _)

/-! ## What happens, and what it tells -/

/-- The sessions, from what happened alone. -/
def toldBy (events : List (Event α)) (channel : ℕ) : Option (Session α) :=
  sessionOf channel events

omit [DecidableEq α] in
/-- A session that has ended has ended. -/
theorem Session.finish_of_ended (hended : session.ended = true) : session.finish = session := by
  rw [Session.finish, ← hended]

variable {events : List (Event α)}

/-- What an event tells, where it tells of one session alone. -/
theorem toldBy_eq_update {event : Event α} {later : Option (Session α)}
    (hlater : follow channel (toldBy events channel) event = later)
    (hothers : ∀ other ≠ channel, follow other (toldBy events other) event = toldBy events other) :
    toldBy (events ++ [event]) = Function.update (toldBy events) channel later := by
  have hfollow : ∀ other, toldBy (events ++ [event]) other =
      follow other (toldBy events other) event := fun other => sessionOf_append other events event
  rw [Function.eq_update_iff]
  refine ⟨(hfollow channel).trans hlater, fun other hne => ?_⟩
  rw [hfollow, hothers other hne]

/-- Another session of a client is opened: those of its own that have not ended do. -/
theorem toldBy_opened (hkept : Kept state (toldBy events)) {other : ℕ} (hother : other ≠ state.made) :
    toldBy (events ++ [.opened client state.made]) other =
      if state.sessions client = some other then (toldBy events other).map Session.finish
      else toldBy events other := by
  have happend := sessionOf_append other events (.opened client state.made)
  rw [toldBy, happend]
  change follow other (toldBy events other) _ = _
  cases hsession : toldBy events other with
  | none =>
      rw [follow, if_neg hother.symm]
      simp
  | some session =>
      change some (if client = session.client then session.finish else session) = _
      by_cases hclient : client = session.client
      · rw [if_pos hclient]
        by_cases hcurrent : state.sessions client = some other
        · rw [if_pos hcurrent]
          rfl
        · have hended : session.ended = true := by
            by_contra hlive
            rw [Bool.not_eq_true] at hlive
            exact hcurrent (hclient ▸ hkept.delivered_to hsession hlive)
          rw [if_neg hcurrent, Session.finish_of_ended hended]
      · have hcurrent : state.sessions client ≠ some other := by
          intro hcurrent
          obtain ⟨-, found, -, hfound, -, -, hown, -⟩ := hkept.live hcurrent
          rw [hsession] at hfound
          rw [← Option.some.inj hfound] at hown
          exact hclient hown.symm
        rw [if_neg hclient, if_neg hcurrent]

/-- A session is opened under a queue of its own. -/
theorem toldBy_opened_self (hkept : Kept state (toldBy events)) (client : α) :
    toldBy (events ++ [.opened client state.made]) state.made =
      some { client := client, ended := false, written := [], read := [] } := by
  have hnone : sessionOf state.made events = none := (hkept.fresh _ (Nat.le_refl _)).2
  rw [toldBy, sessionOf_append, hnone]
  exact if_pos rfl

/-- Opening a transport keeps what holds. -/
theorem Kept.opened (hkept : Kept state (toldBy events)) (client : α) :
    Kept (state.openTransport client) (toldBy (events ++ [.opened client state.made])) := by
  cases hsession : state.sessions client with
  | none =>
      have htold : toldBy (events ++ [.opened client state.made]) =
          Function.update (toldBy events) state.made
            (some { client := client, ended := false, written := [], read := [] }) := by
        refine Function.eq_update_iff.mpr ⟨toldBy_opened_self hkept client, fun other hne => ?_⟩
        rw [toldBy_opened hkept hne, hsession, if_neg (by simp)]
      rw [htold, State.openTransport, State.install]
      simp only [hsession]
      exact hkept.start hsession
  | some earlier =>
      obtain ⟨transport, -, htransport, -⟩ := hkept.live hsession
      have hearlier : earlier ≠ state.made := by
        rintro rfl
        rw [(hkept.fresh _ (Nat.le_refl _)).1] at htransport
        cases htransport
      have htold : toldBy (events ++ [.opened client state.made]) =
          Function.update (Function.update (toldBy events) earlier
              ((toldBy events earlier).map Session.finish)) state.made
            (some { client := client, ended := false, written := [], read := [] }) := by
        refine Function.eq_update_iff.mpr ⟨toldBy_opened_self hkept client, fun other hne => ?_⟩
        rw [toldBy_opened hkept hne, hsession]
        by_cases hsame : other = earlier
        · rw [hsame, Function.update_self, if_pos rfl]
        · rw [Function.update_of_ne hsame, if_neg fun h => hsame (Option.some.inj h).symm]
      have hcleared : Function.update state.sessions client none client = none :=
        Function.update_self ..
      have hstart := (hkept.cut hsession).start hcleared
      rw [htold, State.openTransport, State.install]
      simp only [hsession, State.disconnect] at hstart ⊢
      rw [Function.update_of_ne hearlier,
        Function.update_comm hearlier.symm _ _ state.transports]
      rw [Function.update_idem] at hstart
      exact hstart

/-- What is delivered for a client tells of the session its bytes are delivered to alone. -/
theorem toldBy_delivered (hkept : Kept state (toldBy events)) (bytes : List UInt8)
    (delivery : Delivery) {other : ℕ} (hother : state.sessions client ≠ some other) :
    toldBy (events ++ [.delivered client bytes delivery]) other = toldBy events other := by
  have happend := sessionOf_append other events (.delivered client bytes delivery)
  rw [toldBy, happend]
  change follow other (toldBy events other) _ = _
  cases hsession : toldBy events other with
  | none => rfl
  | some session =>
      have hnot : ¬(client = session.client ∧ session.ended = false) := by
        rintro ⟨rfl, hlive⟩
        exact hother (hkept.delivered_to hsession hlive)
      exact congrArg some (if_neg hnot)

/-- What a delivery does: with no session it goes nowhere; a full queue cuts the session off; and
else it is queued last.  No queue bytes are delivered to has lost its receiver. -/
theorem Kept.deliver_cases (hkept : Kept state (toldBy events)) (client : α) (bytes : List UInt8) :
    (state.sessions client = none ∧ state.deliver client bytes = (.nobody, state)) ∨
    ∃ channel transport, state.sessions client = some channel ∧
      state.transports channel = some transport ∧
      ((capacity ≤ transport.inbound.queue.length ∧ state.deliver client bytes = (.full,
          { state.disconnect channel with
            sessions := Function.update state.sessions client none })) ∨
        (transport.inbound.queue.length < capacity ∧ state.deliver client bytes = (.sent,
          { state with
            transports :=
              Function.update state.transports channel (some (transport.queue bytes)) }))) := by
  cases hsession : state.sessions client with
  | none =>
      refine .inl ⟨rfl, ?_⟩
      rw [State.deliver, hsession]
  | some channel =>
      obtain ⟨transport, -, htransport, -⟩ := hkept.live hsession
      refine .inr ⟨channel, transport, rfl, htransport, ?_⟩
      rw [State.deliver, hsession]
      simp only [htransport]
      by_cases hfull : capacity ≤ transport.inbound.queue.length
      · exact .inl ⟨hfull, if_pos hfull⟩
      · exact .inr ⟨Nat.not_le.mp hfull, if_neg hfull⟩

/-- Delivering bytes keeps what holds. -/
theorem Kept.delivered (hkept : Kept state (toldBy events)) (client : α) (bytes : List UInt8) :
    Kept (state.deliver client bytes).2
      (toldBy (events ++ [.delivered client bytes (state.deliver client bytes).1])) := by
  have hothers : ∀ (delivery : Delivery) {channel : ℕ} {later : Option (Session α)},
      state.sessions client = some channel →
      follow channel (toldBy events channel) (.delivered client bytes delivery) = later →
        toldBy (events ++ [.delivered client bytes delivery]) =
          Function.update (toldBy events) channel later := by
    intro delivery channel later hsession hlater
    refine toldBy_eq_update hlater fun other hne => ?_
    have hother : state.sessions client ≠ some other := by
      rw [hsession]
      exact fun h => hne (Option.some.inj h).symm
    have hfollow := sessionOf_append other events (.delivered client bytes delivery)
    exact hfollow.symm.trans (toldBy_delivered hkept bytes delivery hother)
  rcases hkept.deliver_cases client bytes with ⟨hnone, hnobody⟩ |
    ⟨channel, transport, hsession, htransport, ⟨hfull, hcut⟩ | ⟨hroom, hsent⟩⟩
  · have htold : toldBy (events ++ [.delivered client bytes .nobody]) = toldBy events := by
      funext other
      exact toldBy_delivered hkept bytes .nobody (by simp [hnone])
    rw [hnobody]
    exact htold.symm ▸ hkept
  · obtain ⟨-, session, -, htold, -, -, hown, hlive, -⟩ := hkept.live hsession
    have hlater : follow channel (toldBy events channel) (.delivered client bytes .full) =
        (toldBy events channel).map Session.finish := by
      rw [htold]
      exact congrArg some (if_pos ⟨hown.symm, hlive⟩)
    rw [hcut, hothers .full hsession hlater]
    exact hkept.cut hsession
  · obtain ⟨found, session, hfound, htold, hclient, hconnected, hown, hlive, hwritten⟩ :=
      hkept.live hsession
    rw [htransport] at hfound
    obtain rfl := Option.some.inj hfound
    have hlater : follow channel (toldBy events channel) (.delivered client bytes .sent) =
        some { session with written := session.written ++ bytes } := by
      rw [htold]
      exact congrArg some (if_pos ⟨hown.symm, hlive⟩)
    rw [hsent, hothers .sent hsession hlater]
    refine hkept.change htransport rfl rfl (.held (hown.trans hclient.symm) ?_ ?_)
    · rw [hlive]
      exact (congrArg not hconnected).symm
    · simp [hwritten, GattTransport.unread, GattTransport.queue]

/-- Dropping a transport keeps what holds. -/
theorem Kept.dropped (hkept : Kept state (toldBy events))
    (hheld : state.transports channel = some transport) :
    Kept (state.dropTransport channel transport) (toldBy (events ++ [.dropped channel])) := by
  have htold : toldBy (events ++ [.dropped channel]) =
      Function.update (toldBy events) channel ((toldBy events channel).map Session.finish) := by
    apply toldBy_eq_update
    · cases toldBy events channel with
      | none => rfl
      | some session => exact congrArg some (if_pos rfl)
    · intro other hne
      cases toldBy events other with
      | none => rfl
      | some session => exact congrArg some (if_neg (Ne.symm hne))
  rw [htold]
  exact hkept.drop hheld

/-- What a read of a transport tells: its session has read what the read returned. -/
theorem toldBy_read (hsession : toldBy events channel = some session) (buf : ℕ) (poll : Poll) :
    toldBy (events ++ [.read channel buf poll]) = Function.update (toldBy events) channel
      (some { session with
        read := session.read ++ poll.returned }) := by
  apply toldBy_eq_update
  · rw [hsession]
    cases poll with
    | pending => simp [follow, Poll.returned]
    | ready bytes => exact congrArg some (if_pos rfl)
  · intro other hne
    cases toldBy events other with
    | none => rfl
    | some found =>
        cases poll with
        | pending => rfl
        | ready bytes => exact congrArg some (if_neg (Ne.symm hne))

/-- What is left unread after a read, and what the read returned, was unread before. -/
theorem Polled.unread_eq {buf : ℕ} {connected : Bool} {unread left : List UInt8} {poll : Poll}
    (hpolled : Polled buf connected unread left poll) : unread = poll.returned ++ left := by
  cases hpolled with
  | bytes hunread => exact hunread
  | ended hunread hleft => rw [hunread, hleft]; rfl
  | pending hunread hleft => rw [hunread, hleft]; rfl

/-- Reading keeps what holds. -/
theorem Kept.read (hkept : Kept state (toldBy events)) (buf : ℕ)
    (hheld : state.transports channel = some transport) :
    Kept { state with
        transports := Function.update state.transports channel (some (pollRead buf transport).2) }
      (toldBy (events ++ [.read channel buf (pollRead buf transport).1])) := by
  obtain ⟨hpolled, hclient, hconnected⟩ := pollRead_polled buf transport
  have hagrees := hkept.agrees channel
  rw [hheld] at hagrees
  generalize hsession : toldBy events channel = found at hagrees
  cases hagrees with
  | held hown hended hwritten =>
      rw [toldBy_read hsession]
      refine hkept.change hheld hclient hconnected (.held (hown.trans hclient.symm) ?_ ?_)
      · rw [hconnected]
        exact hended
      · rw [hwritten, hpolled.unread_eq, List.append_assoc]

/-- Whatever happens keeps what holds. -/
theorem Kept.step (hkept : Kept state (toldBy events)) {event : Event α} {next : State α}
    (hstep : Step state event next) : Kept next (toldBy (events ++ [event])) := by
  cases hstep with
  | opened client => exact hkept.opened client
  | delivered client bytes => exact hkept.delivered client bytes
  | dropped hheld => exact hkept.dropped hheld
  | read buf hheld => exact hkept.read buf hheld

/-- What holds, holds of every run. -/
theorem kept_of_reachable {at_ : State α × List (Event α)} (hreach : (system α).Reachable at_) :
    Kept at_.1 (toldBy at_.2) := by
  induction hreach with
  | start hinit =>
      obtain rfl := hinit
      exact ⟨fun _ _ => ⟨rfl, rfl⟩, fun _ _ => by simp, fun _ => .unmade⟩
  | next _ hstep hkept =>
      rw [hstep.2]
      exact hkept.step hstep.1

end Steps

/-! ## What each client's session reads -/

/-- What is so of a run so far, and of whatever happens next. -/
structure Delivers (state : State α) (events : List (Event α)) : Prop where
  /-- What a session has read is the first of what was delivered for it. -/
  reads : ∀ channel session, sessionOf channel events = some session →
    session.read <+: session.written
  /-- A read goes on from there, and returns something where there is anything and room for it. -/
  goesOn : ∀ channel buf bytes next, Step state (.read channel buf (.ready bytes)) next →
    ∃ session, sessionOf channel events = some session ∧
      session.read ++ bytes <+: session.written ∧
      (bytes = [] → buf = 0 ∨ session.ended = true ∧ session.read = session.written)
  /-- A read waits only for a session that has read all it is to and has not ended. -/
  waits : ∀ channel buf next, Step state (.read channel buf .pending) next →
    ∃ session, sessionOf channel events = some session ∧ session.ended = false ∧
      session.read = session.written
  /-- A session that has ended and read all it is to reads the end of the stream. -/
  ends : ∀ channel buf poll next session, Step state (.read channel buf poll) next →
    sessionOf channel events = some session → session.ended = true →
      session.read = session.written → poll = .ready []
  /-- A client has one session at most that has not ended. -/
  one : ∀ channel other session found, sessionOf channel events = some session →
    sessionOf other events = some found → session.client = found.client →
      session.ended = false → found.ended = false → channel = other
  /-- What is delivered is queued for that one, unless its queue is found full. -/
  delivery : ∀ client bytes delivery next, Step state (.delivered client bytes delivery) next →
    (delivery = .nobody ∧ ∀ channel session, sessionOf channel events = some session →
      session.client = client → session.ended = true) ∨
    ∃ channel session transport, sessionOf channel events = some session ∧
      session.client = client ∧ session.ended = false ∧
      state.transports channel = some transport ∧
      delivery = if capacity ≤ transport.inbound.queue.length then .full else .sent
  /-- A transport dropping never stops delivery to another. -/
  dropping : ∀ channel next, Step state (.dropped channel) next → ∀ other session,
    sessionOf other events = some session → session.ended = false → other ≠ channel →
      next.sessions session.client = some other
  /-- A full queue ends the session of its client alone. -/
  filling : ∀ client bytes next, Step state (.delivered client bytes .full) next →
    ∀ other session, sessionOf other events = some session → session.ended = false →
      session.client ≠ client → next.sessions session.client = some other

/-- What a read returns of a transport, and what its session has read. -/
theorem Kept.polled {state : State α} {events : List (Event α)}
    (hkept : Kept state (toldBy events)) {channel buf : ℕ} {poll : Poll} {next : State α}
    (hstep : Step state (.read channel buf poll) next) :
    ∃ session unread left, sessionOf channel events = some session ∧
      session.written = session.read ++ unread ∧ Polled buf (!session.ended) unread left poll := by
  cases hstep with
  | read buf hheld =>
      rename_i transport
      have hagrees := hkept.agrees channel
      rw [hheld] at hagrees
      generalize hsession : toldBy events channel = found at hagrees
      cases hagrees with
      | held hown hended hwritten =>
          refine ⟨_, _, (pollRead buf transport).2.unread, hsession, hwritten, ?_⟩
          rw [hended, Bool.not_not]
          exact (pollRead_polled buf transport).1

/-- Over any run, each client's bytes reach its own current session, in order and whole, and no
other. -/
theorem delivers {state : State α} {events : List (Event α)}
    (hreach : (system α).Reachable (state, events)) : Delivers state events := by
  have hkept : Kept state (toldBy events) := kept_of_reachable hreach
  have hstays : ∀ {event : Event α} {next : State α}, Step state event next → ∀ other session,
      follow other (sessionOf other events) event = some session → session.ended = false →
        next.sessions session.client = some other := by
    intro event next hstep other session hsession hlive
    apply (hkept.step hstep).delivered_to _ hlive
    rw [toldBy, sessionOf_append]
    exact hsession
  constructor
  · intro channel session hsession
    have hagrees := hkept.agrees channel
    rw [show toldBy events channel = some session from hsession] at hagrees
    generalize state.transports channel = found at hagrees
    cases hagrees with
    | held hclient hended hwritten => exact hwritten ▸ List.prefix_append _ _
    | dropped hended hread => exact hread
  · intro channel buf bytes next hstep
    obtain ⟨session, unread, left, hsession, hwritten, hpolled⟩ := hkept.polled hstep
    refine ⟨session, hsession, ?_, ?_⟩
    · rw [hwritten, hpolled.unread_eq, ← List.append_assoc]
      exact List.prefix_append _ _
    · intro hnil
      cases hpolled with
      | bytes hunread hsome hread => exact .inl (hread hnil)
      | ended hunread hleft hgone =>
          refine .inr ⟨by simpa using hgone, ?_⟩
          rw [hwritten, hunread, List.append_nil]
  · intro channel buf next hstep
    obtain ⟨session, unread, left, hsession, hwritten, hpolled⟩ := hkept.polled hstep
    cases hpolled with
    | pending hunread hleft hheld =>
        refine ⟨session, hsession, by simpa using hheld, ?_⟩
        rw [hwritten, hunread, List.append_nil]
  · intro channel buf poll next found hstep hfound hended hall
    obtain ⟨session, unread, left, hsession, hwritten, hpolled⟩ := hkept.polled hstep
    rw [hsession] at hfound
    obtain rfl := Option.some.inj hfound
    have hunread : unread = [] := by
      rw [hall] at hwritten
      exact List.append_right_eq_self.mp hwritten.symm
    cases hpolled with
    | bytes _ hsome _ => exact absurd hunread hsome
    | ended => rfl
    | pending _ _ hheld =>
        rw [hended] at hheld
        cases hheld
  · intro channel other session found hsession hfound hclient hlive hfoundLive
    have hcurrent := hkept.delivered_to hsession hlive
    rw [hclient, hkept.delivered_to hfound hfoundLive] at hcurrent
    exact (Option.some.inj hcurrent).symm
  · intro client bytes delivery next hstep
    cases hstep with
    | delivered client bytes =>
        rcases hkept.deliver_cases client bytes with ⟨hnone, hnobody⟩ |
          ⟨channel, transport, hsession, htransport, hcases⟩
        · refine .inl ⟨congrArg Prod.fst hnobody, fun channel session hsession hclient => ?_⟩
          by_contra hlive
          rw [Bool.not_eq_true] at hlive
          have hcurrent := hkept.delivered_to hsession hlive
          rw [hclient, hnone] at hcurrent
          cases hcurrent
        · obtain ⟨-, session, -, htold, -, -, hown, hlive, -⟩ := hkept.live hsession
          refine .inr ⟨channel, session, transport, htold, hown, hlive, htransport, ?_⟩
          rcases hcases with ⟨hfull, hcut⟩ | ⟨hroom, hsent⟩
          · rw [if_pos hfull, hcut]
          · rw [if_neg (Nat.not_le.mpr hroom), hsent]
  · intro channel next hstep other session hsession hlive hne
    apply hstays hstep other session _ hlive
    rw [hsession]
    exact congrArg some (if_neg (Ne.symm hne))
  · intro client bytes next hstep other session hsession hlive hne
    apply hstays hstep other session _ hlive
    rw [hsession]
    exact congrArg some (if_neg fun h => hne h.1.symm)

/-- Whatever may happen next is reachable. -/
theorem reachable_next {state next : State α} {events : List (Event α)} {event : Event α}
    (hreach : (system α).Reachable (state, events)) (hstep : Step state event next) :
    (system α).Reachable (next, events ++ [event]) :=
  .next hreach ⟨hstep, rfl⟩

/-- A client writes, subscribes again and writes again: its first session reads what came before and
then the end of the stream, and its second what came after. -/
theorem delivers_replaced :
    Delivers
      ((((State.openTransport ⟨fun _ : ℕ => none, fun _ => none, 0⟩ 7).deliver 7 [1, 2]).2.openTransport
        7).deliver 7 [3]).2
      [.opened 7 0, .delivered 7 [1, 2] .sent, .opened 7 1, .delivered 7 [3] .sent] := by
  have hstart : (system ℕ).Reachable (⟨fun _ => none, fun _ => none, 0⟩, []) := .start rfl
  have hopened := reachable_next hstart (.opened 7)
  have hdelivered := reachable_next hopened (.delivered 7 [1, 2])
  have hreplaced := reachable_next hdelivered (.opened 7)
  exact delivers (reachable_next hreplaced (.delivered 7 [3]))

end Bliti.Gatt
