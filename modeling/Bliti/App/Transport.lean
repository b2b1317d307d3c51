import Bliti.Gatt

/-!
# The page's transport

A byte stream over the two characteristics, as the page has it: what the device notifies is queued
for the reads, and what is written is queued for a task that hands it to the browser one chunk at a
time.  Both queues are bounded channels with one sender.  A write waits for room; a notification
that finds none is let go, since there is no way to push back on the browser.

Main results:

- Theorem `transports`: what is read and what is lost, over every run.
-/

namespace Bliti.App.Transport

open Gatt (Poll Polled Receiver capacity pollFrom)

/-! ## The transport -/

/-- A byte stream over the two characteristics: the most one write carries, what is queued each way,
whether the half that is written is closed, and the chunk in hand with how much of it was read. -/
structure WebTransport where
  chunk : ℕ
  inbound : Receiver
  outbound : List (List UInt8)
  closed : Bool
  pending : List UInt8
  consumed : ℕ

/-- The task that writes: ready for a chunk, waiting for the write of one, or ended, the receiving end
of its queue dropped. -/
inductive Writer where
  | ready
  | waiting (chunk : List UInt8)
  | ended

/-- What calling the function that writes a chunk comes to: it throws, or returns a promise or
another value. -/
inductive Returned where
  | threw
  | promise
  | value

/-- What a write comes to. -/
inductive Wrote where
  | accepted (bytes : List UInt8)
  | broken
  | pending

/-- A transport and its task, whether the transport was dropped, and what was notified, read,
accepted, handed to the browser and written. -/
structure World where
  transport : WebTransport
  writer : Writer
  dropped : Bool
  notified : List UInt8
  read : List UInt8
  accepted : List UInt8
  handed : List UInt8
  written : List UInt8

/-- What happens to a transport. -/
inductive Event where
  | receive (bytes : List UInt8)
  | disconnect
  | pollRead (buf : ℕ)
  | pollWrite (buf : List UInt8)
  | pollClose
  | dropTransport
  | call (returned : Returned)
  | settle (fulfilled : Bool)

/-- What is queued and not yet read. -/
def WebTransport.unread (t : WebTransport) : List UInt8 :=
  t.pending.drop t.consumed ++ t.inbound.queue.flatten

/-- A read of a transport. -/
def WebTransport.pollRead (t : WebTransport) (buf : ℕ) : Poll × WebTransport :=
  let (poll, pending, consumed, queue) := pollFrom buf t.inbound.connected t.pending t.consumed
    t.inbound.queue
  (poll, { t with
    inbound := { t.inbound with queue := queue }, pending := pending, consumed := consumed })

/-- A write to a transport, its task ended or not. -/
def WebTransport.pollWrite (t : WebTransport) (ended : Bool) (buf : List UInt8) :
    Wrote × WebTransport :=
  if buf = [] then (.accepted [], t)
  else if t.closed || ended then (.broken, t)
  else if t.outbound.length < capacity then
    let chunk := buf.take t.chunk
    (.accepted chunk, { t with outbound := t.outbound ++ [chunk] })
  else (.pending, t)

/-- The bytes a write takes. -/
def Wrote.bytes : Wrote → List UInt8
  | .accepted bytes => bytes
  | _ => []

/-- The task has ended. -/
def Writer.isEnded : Writer → Bool
  | .ended => true
  | _ => false

namespace World

/-- A transport as it is opened. -/
def new (chunk : ℕ) : World where
  transport := {
    chunk := chunk
    inbound := { queue := [], connected := true }
    outbound := []
    closed := false
    pending := []
    consumed := 0 }
  writer := .ready
  dropped := false
  notified := []
  read := []
  accepted := []
  handed := []
  written := []

/-- A notification is queued where there is room for it and anything to read it, and else is let go
without a word. -/
def receive (w : World) (bytes : List UInt8) : World :=
  let inbound := w.transport.inbound
  let queue :=
    if !w.dropped && inbound.queue.length < capacity then inbound.queue ++ [bytes]
    else inbound.queue
  { w with
    transport := { w.transport with inbound := { inbound with queue := queue } }
    notified := w.notified ++ bytes }

/-- The task takes the next chunk and hands it to the browser. -/
def call (w : World) (returned : Returned) : Option World :=
  match w.writer, w.transport.outbound with
  | .ready, chunk :: rest =>
      let w := { w with handed := w.handed ++ chunk }
      match returned with
      | .threw => some { w with writer := .ended, transport := { w.transport with outbound := [] } }
      | .promise =>
          some { w with writer := .waiting chunk, transport := { w.transport with outbound := rest } }
      -- What is no promise is not waited for.
      | .value => some { w with
          written := w.written ++ chunk, transport := { w.transport with outbound := rest } }
  | _, _ => none

/-- The write in hand completes or fails. -/
def settle (w : World) (fulfilled : Bool) : Option World :=
  match w.writer with
  | .waiting chunk =>
      if fulfilled then some { w with writer := .ready, written := w.written ++ chunk }
      else some { w with writer := .ended, transport := { w.transport with outbound := [] } }
  | _ => none

/-- What happens to a transport, where it can. -/
def take (w : World) : Event → Option World
  | .receive bytes => if w.transport.inbound.connected then some (w.receive bytes) else none
  | .disconnect => some { w with
      transport := { w.transport with inbound := { w.transport.inbound with connected := false } } }
  | .pollRead buf =>
      if w.dropped then none
      else
        let (poll, transport) := w.transport.pollRead buf
        some { w with transport := transport, read := w.read ++ poll.returned }
  | .pollWrite buf =>
      if w.dropped then none
      else
        let (wrote, transport) := w.transport.pollWrite w.writer.isEnded buf
        some { w with transport := transport, accepted := w.accepted ++ wrote.bytes }
  | .pollClose =>
      if w.dropped then none else some { w with transport := { w.transport with closed := true } }
  | .dropTransport => some { w with
      dropped := true
      transport := { w.transport with
        closed := true, inbound := { w.transport.inbound with queue := [] }, pending := [], consumed := 0 } }
  | .call returned => w.call returned
  | .settle fulfilled => w.settle fulfilled

end World

/-- A transport, under anything that happens to it. -/
def system (chunk : ℕ) : Transition.System World Event where
  init := fun w => w = .new chunk
  step := fun w event next => w.take event = some next

/-- A notification finds room in the queue, or nothing is left to read it. -/
def Room (w : World) : Event → Prop
  | .receive _ => w.dropped = true ∨ w.transport.inbound.queue.length < capacity
  | _ => True

/-! ## What is written -/

/-- What the browser was handed and wrote: in order, what was accepted, each chunk once. -/
structure Writes (w : World) : Prop where
  handed : w.handed <+: w.accepted
  written : w.written <+: w.handed
  queued : w.writer.isEnded = false → w.handed ++ w.transport.outbound.flatten = w.accepted
  ready : w.writer = .ready → w.written = w.handed
  waiting : ∀ chunk, w.writer = .waiting chunk → w.written ++ chunk = w.handed

/-- What was handed stays where neither the task nor what is queued for it moves. -/
theorem Writes.kept {w w' : World} (h : Writes w) (hwriter : w'.writer = w.writer)
    (houtbound : w'.transport.outbound = w.transport.outbound) (haccepted : w'.accepted = w.accepted)
    (hhanded : w'.handed = w.handed) (hwritten : w'.written = w.written) : Writes w' where
  handed := by rw [hhanded, haccepted]; exact h.handed
  written := by rw [hhanded, hwritten]; exact h.written
  queued := by rw [hwriter, hhanded, houtbound, haccepted]; exact h.queued
  ready := by rw [hwriter, hhanded, hwritten]; exact h.ready
  waiting := by rw [hwriter, hhanded, hwritten]; exact h.waiting

/-- A write keeps it so. -/
theorem Writes.pollWrite {w : World} (h : Writes w) (buf : List UInt8) :
    Writes { w with
      transport := (w.transport.pollWrite w.writer.isEnded buf).2
      accepted := w.accepted ++ (w.transport.pollWrite w.writer.isEnded buf).1.bytes } := by
  unfold WebTransport.pollWrite
  split
  · exact h.kept rfl rfl (List.append_nil _) rfl rfl
  · split
    · exact h.kept rfl rfl (List.append_nil _) rfl rfl
    · rename_i hopen
      split
      · rw [Bool.or_eq_true, not_or, Bool.not_eq_true, Bool.not_eq_true] at hopen
        have hqueued := h.queued hopen.2
        refine ⟨h.handed.trans (List.prefix_append _ _), h.written, fun _ => ?_, h.ready, h.waiting⟩
        simp only [Wrote.bytes]
        rw [List.flatten_append, ← List.append_assoc, hqueued, List.flatten_singleton]
      · exact h.kept rfl rfl (List.append_nil _) rfl rfl

theorem Writes.call {w w' : World} (h : Writes w) {returned : Returned}
    (htake : w.call returned = some w') : Writes w' := by
  unfold World.call at htake
  split at htake
  · rename_i chunk rest hready hqueue
    have hqueued := h.queued (by rw [hready]; rfl)
    rw [hqueue, List.flatten_cons, ← List.append_assoc] at hqueued
    have hhanded : w.handed ++ chunk <+: w.accepted := ⟨_, hqueued⟩
    have hsame := h.ready hready
    cases returned with
    | threw =>
        cases htake
        exact ⟨hhanded, h.written.trans (List.prefix_append _ _), by simp [Writer.isEnded], by simp,
          by simp⟩
    | promise =>
        cases htake
        refine ⟨hhanded, h.written.trans (List.prefix_append _ _), fun _ => hqueued, by simp, ?_⟩
        intro other hother
        cases hother
        simp only [hsame]
    | value =>
        cases htake
        simp only [hsame]
        exact ⟨hhanded, List.prefix_refl _, fun _ => hqueued, fun _ => rfl, by simp [hready]⟩
  · cases htake

theorem Writes.settle {w w' : World} (h : Writes w) {fulfilled : Bool}
    (htake : w.settle fulfilled = some w') : Writes w' := by
  unfold World.settle at htake
  split at htake
  · rename_i chunk hwaiting
    have hsame := h.waiting chunk hwaiting
    have hqueued := h.queued (by rw [hwaiting]; rfl)
    split at htake
    · cases htake
      exact ⟨h.handed, hsame ▸ List.prefix_refl _, fun _ => hqueued, fun _ => hsame, by simp⟩
    · cases htake
      exact ⟨h.handed, h.written, by simp [Writer.isEnded], by simp, by simp⟩
  · cases htake

/-- Whatever happens keeps it so. -/
theorem Writes.take {w w' : World} (h : Writes w) {event : Event}
    (htake : w.take event = some w') : Writes w' := by
  cases event with
  | receive bytes =>
      simp only [World.take] at htake
      split at htake
      · cases htake
        exact h.kept rfl rfl rfl rfl rfl
      · cases htake
  | disconnect =>
      cases htake
      exact h.kept rfl rfl rfl rfl rfl
  | pollRead buf =>
      simp only [World.take] at htake
      split at htake
      · cases htake
      · cases htake
        exact h.kept rfl rfl rfl rfl rfl
  | pollWrite buf =>
      simp only [World.take] at htake
      split at htake
      · cases htake
      · cases htake
        exact h.pollWrite buf
  | pollClose =>
      simp only [World.take] at htake
      split at htake
      · cases htake
      · cases htake
        exact h.kept rfl rfl rfl rfl rfl
  | dropTransport =>
      cases htake
      exact h.kept rfl rfl rfl rfl rfl
  | call returned => exact h.call htake
  | settle fulfilled => exact h.settle htake

/-! ## What is read -/

/-- What was read is the first of what was notified, and what is unread the rest of it. -/
structure Reads (w : World) : Prop where
  first : w.read <+: w.notified
  unread : w.dropped = false → w.read ++ w.transport.unread = w.notified

/-- What is read stays where neither the reads nor what is queued for them moves. -/
theorem Reads.kept {w w' : World} (h : Reads w) (hunread : w'.transport.unread = w.transport.unread)
    (hdropped : w'.dropped = w.dropped) (hnotified : w'.notified = w.notified)
    (hread : w'.read = w.read) : Reads w' where
  first := by rw [hread, hnotified]; exact h.first
  unread := by rw [hdropped, hread, hunread, hnotified]; exact h.unread

/-- A notification that finds room keeps it so. -/
theorem Reads.receive {w : World} (h : Reads w) {bytes : List UInt8}
    (hroom : Room w (.receive bytes)) : Reads (w.receive bytes) where
  first := h.first.trans (List.prefix_append _ _)
  unread := by
    intro hdropped
    have hheld : w.dropped = false := hdropped
    have hless : w.transport.inbound.queue.length < capacity :=
      hroom.resolve_left (by simp [hheld])
    have hunread := h.unread hheld
    simp only [World.receive, WebTransport.unread, hheld, hless, Bool.not_false, decide_true,
      Bool.and_self, if_true, List.flatten_append, List.flatten_singleton] at hunread ⊢
    rw [← hunread]
    simp only [List.append_assoc]

theorem Reads.pollRead {w : World} (h : Reads w) (hheld : w.dropped = false) (buf : ℕ) :
    Reads { w with
      transport := (w.transport.pollRead buf).2
      read := w.read ++ (w.transport.pollRead buf).1.returned } := by
  have hpolled : Polled buf w.transport.inbound.connected w.transport.unread
      (w.transport.pollRead buf).2.unread (w.transport.pollRead buf).1 :=
    Gatt.pollFrom_polled _ _ _ _ _
  have hunread : w.transport.unread =
      (w.transport.pollRead buf).1.returned ++ (w.transport.pollRead buf).2.unread := by
    revert hpolled
    generalize (w.transport.pollRead buf).2.unread = left
    generalize (w.transport.pollRead buf).1 = poll
    intro hpolled
    cases hpolled with
    | bytes hsplit => exact hsplit
    | ended hnil hleft => rw [hnil, hleft]; rfl
    | pending hnil hleft => rw [hnil, hleft]; rfl
  have hall : (w.read ++ (w.transport.pollRead buf).1.returned) ++
      (w.transport.pollRead buf).2.unread = w.notified := by
    rw [List.append_assoc, ← hunread]
    exact h.unread hheld
  exact ⟨⟨_, hall⟩, fun _ => hall⟩

/-- A write leaves what is unread as it was. -/
theorem unread_pollWrite (t : WebTransport) (ended : Bool) (buf : List UInt8) :
    (t.pollWrite ended buf).2.unread = t.unread := by
  unfold WebTransport.pollWrite
  split
  · rfl
  · split
    · rfl
    · split <;> rfl

/-- Whatever happens keeps it so, where each notification finds room. -/
theorem Reads.take {w w' : World} (h : Reads w) {event : Event} (hroom : Room w event)
    (htake : w.take event = some w') : Reads w' := by
  cases event with
  | receive bytes =>
      simp only [World.take] at htake
      split at htake
      · cases htake
        exact h.receive hroom
      · cases htake
  | disconnect =>
      cases htake
      exact h.kept rfl rfl rfl rfl
  | pollRead buf =>
      simp only [World.take] at htake
      split at htake
      · cases htake
      · rename_i hheld
        cases htake
        exact h.pollRead (Bool.not_eq_true _ ▸ hheld) buf
  | pollWrite buf =>
      simp only [World.take] at htake
      split at htake
      · cases htake
      · cases htake
        exact h.kept (unread_pollWrite _ _ _) rfl rfl rfl
  | pollClose =>
      simp only [World.take] at htake
      split at htake
      · cases htake
      · cases htake
        exact h.kept rfl rfl rfl rfl
  | dropTransport =>
      cases htake
      exact ⟨h.first, by simp⟩
  | call returned =>
      simp only [World.take, World.call] at htake
      split at htake
      · cases returned with
        | threw =>
            cases htake
            exact h.kept rfl rfl rfl rfl
        | promise =>
            cases htake
            exact h.kept rfl rfl rfl rfl
        | value =>
            cases htake
            exact h.kept rfl rfl rfl rfl
      · cases htake
  | settle fulfilled =>
      simp only [World.take, World.settle] at htake
      split at htake
      · split at htake
        · cases htake
          exact h.kept rfl rfl rfl rfl
        · cases htake
          exact h.kept rfl rfl rfl rfl
      · cases htake

/-! ## Over a run -/

/-- In every run the browser is handed, and writes, the first of what was accepted; and where each
notification finds room in the queue, what is read is the first of what was notified, the rest being
what is yet unread. -/
theorem transports (chunk : ℕ) :
    (∀ w, (system chunk).Reachable w → w.written <+: w.handed ∧ w.handed <+: w.accepted) ∧
      ∀ w, ((system chunk).guarded Room).Reachable w → w.read <+: w.notified ∧
        (w.dropped = false → w.read ++ w.transport.unread = w.notified) := by
  constructor
  · intro w hreach
    have hwrites : Writes w := by
      induction hreach with
      | start hstart =>
          rw [show _ = World.new chunk from hstart]
          exact ⟨List.prefix_refl _, List.prefix_refl _, fun _ => rfl, fun _ => rfl, by
            simp [World.new]⟩
      | next _ hnext ih => exact ih.take hnext
    exact ⟨hwrites.written, hwrites.handed⟩
  · intro w hreach
    have hreads : Reads w := by
      induction hreach with
      | start hstart =>
          rw [show _ = World.new chunk from hstart]
          exact ⟨List.prefix_refl _, fun _ => rfl⟩
      | next _ hnext ih => exact ih.take hnext.1 hnext.2
    exact ⟨hreads.first, hreads.unread⟩

/-- One notification, read whole. -/
def readWhole : World :=
  { World.new 20 with notified := [3, 4], read := [3, 4] }

/-- A notification that finds room is read whole. -/
theorem transports_read : readWhole.written <+: readWhole.handed ∧ readWhole.read <+: [3, 4] := by
  have hreceived : ((system 20).guarded Room).step (World.new 20) (.receive [3, 4])
      ((World.new 20).receive [3, 4]) := ⟨.inr (by decide), rfl⟩
  have hread : ((system 20).guarded Room).step ((World.new 20).receive [3, 4]) (.pollRead 5)
      readWhole := ⟨trivial, rfl⟩
  have hreach : ((system 20).guarded Room).Reachable readWhole :=
    .next (.next (.start rfl) hreceived) hread
  exact ⟨((transports 20).1 _ hreach.unguarded).1, ((transports 20).2 _ hreach).1⟩

/-- A burst of more notifications than the queue holds, then one more as the reads catch up. -/
def burst : List Event :=
  List.replicate capacity (.receive [0]) ++ [.receive [1], .pollRead 1, .receive [2]] ++
    List.replicate capacity (.pollRead 1)

/-- A notification that finds no room is lost from the middle: what is read goes on without it. -/
theorem not_reads_burst : ∃ w, (system 20).Reachable w ∧ ¬ w.read <+: w.notified := by
  have hstart : (system 20).Reachable (.new 20) := .start rfl
  have hlost : (Transition.System.run World.take (World.new 20) burst).any
      (fun w => !w.read.isPrefixOf w.notified) = true := by
    decide +kernel
  cases hrun : Transition.System.run World.take (World.new 20) burst with
  | none =>
      rw [hrun] at hlost
      cases hlost
  | some w =>
      rw [hrun] at hlost
      refine ⟨w, hstart.of_run (fun _ _ _ _ htake => htake) hrun, fun hfirst => ?_⟩
      have hsame : w.read.isPrefixOf w.notified = true := List.isPrefixOf_iff_prefix.mpr hfirst
      simp [hsame] at hlost

end Bliti.App.Transport
