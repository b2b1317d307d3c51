import Bliti.Channel.Framing

/-!
# The encrypted stream

A byte stream over a byte transport and an established Noise transport: each write is
encrypted into one framed Noise message, and reads reassemble those frames and decrypt them.
The inner transport may take part of what it is given, or stay pending, at any call; how it
answers is a script each call reads from, and past its end it stays pending.
-/

namespace Bliti.Channel.Stream

open Framing

/-- What a poll comes to. -/
inductive Poll (α : Type) where
  | pending
  | ready (outcome : Except IoError α)

/-! ## The backlog -/

/-- How an inner transport answers being given bytes: it takes some of them, at most so many. -/
inductive Accepts where
  | upTo (n : Nat)
  | pending
  | fails (error : IoError)

/-- Bytes written by a layer of the stack but not yet accepted by the one beneath it. -/
structure WriteBacklog where
  buf : List UInt8
  sent : Nat

/-- What draining a backlog comes to: how the poll ends, what is left of the backlog and of the
answers, and what the inner transport took. -/
structure Drained where
  poll : Poll Unit
  backlog : WriteBacklog
  answers : List Accepts
  taken : List UInt8

namespace WriteBacklog

/-- A backlog of nothing. -/
def empty : WriteBacklog := ⟨[], 0⟩

/-- Add bytes to the back of the backlog. -/
def extend (w : WriteBacklog) (bytes : List UInt8) : WriteBacklog :=
  { w with buf := w.buf ++ bytes }

/-- The bytes of a backlog still to be sent. -/
def waiting (w : WriteBacklog) : List UInt8 :=
  w.buf.drop w.sent

/-- Write what is waiting to the inner transport. -/
def pollDrain : List Accepts → WriteBacklog → Drained
  | [], w =>
      if w.sent < w.buf.length then
        { poll := .pending, backlog := w, answers := [], taken := [] }
      else { poll := .ready (.ok ()), backlog := empty, answers := [], taken := [] }
  | answer :: answers, w =>
      if w.sent < w.buf.length then
        match answer with
        | .pending => { poll := .pending, backlog := w, answers := answers, taken := [] }
        | .fails error =>
            { poll := .ready (.error error), backlog := w, answers := answers, taken := [] }
        | .upTo n =>
            let taken := w.waiting.take n
            if taken.length = 0 then
              { poll := .ready (.error { kind := .writeZero, text := "write zero" })
                backlog := w, answers := answers, taken := [] }
            else
              let drained := pollDrain answers { w with sent := w.sent + taken.length }
              { drained with taken := taken ++ drained.taken }
      else { poll := .ready (.ok ()), backlog := empty, answers := answer :: answers, taken := [] }

/-- Bytes wait exactly where a backlog is not sent whole. -/
theorem waiting_ne_nil_iff {w : WriteBacklog} : w.waiting ≠ [] ↔ w.sent < w.buf.length := by
  rw [waiting, Ne, List.drop_eq_nil_iff, Nat.not_le]

/-- Bytes taken off the front of what waits are taken off it. -/
theorem waiting_advance (w : WriteBacklog) (n : Nat) :
    w.waiting = w.waiting.take n ++
      waiting { w with sent := w.sent + (w.waiting.take n).length } := by
  have hdrop : waiting { w with sent := w.sent + (w.waiting.take n).length } =
      w.waiting.drop (w.waiting.take n).length := by
    simp [waiting, List.drop_drop]
  rw [hdrop, List.length_take]
  rcases Nat.le_total n w.waiting.length with hle | hle
  · rw [Nat.min_eq_left hle, List.take_append_drop]
  · rw [Nat.min_eq_right hle, List.drop_length, List.append_nil, List.take_of_length_le hle]

/-- What draining a backlog keeps: what is taken and what waits after is what waited, and it is
drained whole exactly where the poll says so. -/
structure Drains (w : WriteBacklog) (drained : Drained) : Prop where
  bytes : w.waiting = drained.taken ++ drained.backlog.waiting
  whole : drained.poll = .ready (.ok ()) → drained.backlog = empty
  short : drained.poll ≠ .ready (.ok ()) → drained.backlog.waiting ≠ []

/-- Draining stops where the inner transport takes nothing more. -/
theorem Drains.stops {w : WriteBacklog} {poll : Poll Unit} {answers : List Accepts}
    (hwaits : w.sent < w.buf.length) (hpoll : poll ≠ .ready (.ok ())) :
    Drains w { poll := poll, backlog := w, answers := answers, taken := [] } where
  bytes := rfl
  whole := fun hready => absurd hready hpoll
  short := fun _ => waiting_ne_nil_iff.mpr hwaits

/-- Draining ends where nothing waits. -/
theorem Drains.ends {w : WriteBacklog} {answers : List Accepts}
    (hnone : ¬ w.sent < w.buf.length) :
    Drains w { poll := .ready (.ok ()), backlog := empty, answers := answers, taken := [] } where
  bytes := not_not.mp (mt waiting_ne_nil_iff.mp hnone)
  whole := fun _ => rfl
  short := fun hready => absurd rfl hready

/-- What draining a backlog comes to, however the inner transport answers. -/
theorem pollDrain_drains (answers : List Accepts) (w : WriteBacklog) :
    Drains w (w.pollDrain answers) := by
  induction answers generalizing w with
  | nil =>
      unfold pollDrain
      split
      · exact .stops ‹_› nofun
      · exact .ends ‹_›
  | cons answer answers ih =>
      unfold pollDrain
      split
      · rename_i hwaits
        cases answer with
        | pending => exact .stops hwaits nofun
        | fails error => exact .stops hwaits nofun
        | upTo n =>
            simp only
            split
            · exact .stops hwaits nofun
            · have hrest := ih { w with sent := w.sent + (w.waiting.take n).length }
              refine ⟨?_, hrest.whole, hrest.short⟩
              rw [List.append_assoc, ← hrest.bytes]
              exact waiting_advance w n
      · exact .ends ‹_›

@[simp] theorem waiting_extend_empty (one other : List UInt8) :
    ((empty.extend one).extend other).waiting = one ++ other := by
  simp [waiting, extend, empty]

end WriteBacklog

/-! ## The Noise transport -/

/-- The authentication tag length added to every transport message. -/
def tagLen : Nat := 16

/-- The largest plaintext that fits in one transport message. -/
def maxPlaintext : Nat := 65535 - tagLen

/-- The size of the buffer used to pull bytes off the inner transport on each read. -/
def readChunk : Nat := 8192

/-- An established Noise transport: what encrypting and decrypting one message comes to. -/
structure Noise (τ : Type) where
  encrypt : τ → List UInt8 → Except String (List UInt8 × τ)
  decrypt : τ → List UInt8 → Except String (List UInt8 × τ)

/-- A fault of the channel as an I/O error. -/
def toIo (error : String) : IoError where
  kind := .invalidData
  text := error

/-! ## The stream -/

/-- How an inner transport answers being read from: it gives some bytes, at most so many. -/
inductive Gives where
  | upTo (n : Nat)
  | pending
  | fails (error : IoError)

/-- An encrypted, reliable, ordered byte stream. -/
structure NoiseStream (τ : Type) where
  transport : τ
  reassembler : Reassembler
  readPlain : List UInt8
  readConsumed : Nat
  write : WriteBacklog

/-- What a call that writes comes to: how the poll ends, the stream after it, and what the inner
transport took. -/
structure Sent (τ α : Type) where
  poll : Poll α
  stream : NoiseStream τ
  taken : List UInt8

/-- What a call that reads comes to: how the poll ends, the stream after it, and what is left on
the wire. -/
structure Received (τ : Type) where
  poll : Poll (List UInt8)
  stream : NoiseStream τ
  wire : List UInt8

namespace NoiseStream

variable {τ : Type}

/-- Wrap an established Noise transport. -/
def new (transport : τ) : NoiseStream τ where
  transport := transport
  reassembler := .new
  readPlain := []
  readConsumed := 0
  write := .empty

/-- Encrypt one message of a write and put it on the backlog, drained as far as it will go. -/
def send (noise : Noise τ) (s : NoiseStream τ) (buf : List UInt8) (answers : List Accepts) :
    Sent τ Nat :=
  let chunk := buf.take maxPlaintext
  match noise.encrypt s.transport chunk with
  | .error error => { poll := .ready (.error (toIo error)), stream := s, taken := [] }
  | .ok (ciphertext, transport) =>
      let encrypted := { s with transport := transport }
      match encodePrefix transportPrefix ciphertext.length with
      | .error error => { poll := .ready (.error error), stream := encrypted, taken := [] }
      | .ok length =>
          -- Best effort: anything left is drained on the next call or on flush.
          let drained := ((s.write.extend length).extend ciphertext).pollDrain answers
          { poll :=
              match drained.poll with
              | .ready (.error error) => .ready (.error error)
              | _ => .ready (.ok chunk.length)
            stream := { encrypted with write := drained.backlog }
            taken := drained.taken }

/-- Write bytes: what waits is finished first, as one Noise message is in flight at a time. -/
def pollWrite (noise : Noise τ) (s : NoiseStream τ) (buf : List UInt8)
    (answers : List Accepts) : Sent τ Nat :=
  if buf = [] then { poll := .ready (.ok 0), stream := s, taken := [] }
  else
    let drained := s.write.pollDrain answers
    let after := { s with write := drained.backlog }
    match drained.poll with
    | .pending => { poll := .pending, stream := after, taken := drained.taken }
    | .ready (.error error) =>
        { poll := .ready (.error error), stream := after, taken := drained.taken }
    | .ready (.ok ()) =>
        let sent := after.send noise buf drained.answers
        { sent with taken := drained.taken ++ sent.taken }

/-- Drain what waits, then do with the inner transport what is asked of it. -/
def drainThen (s : NoiseStream τ) (answers : List Accepts) (inner : Poll Unit) : Sent τ Unit :=
  let drained := s.write.pollDrain answers
  { poll :=
      match drained.poll with
      | .ready (.ok ()) => inner
      | ended => ended
    stream := { s with write := drained.backlog }
    taken := drained.taken }

/-- Flush what waits, and the inner transport. -/
def pollFlush (s : NoiseStream τ) (answers : List Accepts) (inner : Poll Unit) : Sent τ Unit :=
  s.drainThen answers inner

/-- Flush what waits, and close the inner transport. -/
def pollClose (s : NoiseStream τ) (answers : List Accepts) (inner : Poll Unit) : Sent τ Unit :=
  s.drainThen answers inner

/-- Read bytes into a buffer: buffered plaintext first, then the next frame, then what the inner
transport gives of what is on the wire. -/
def pollRead (noise : Noise τ) (s : NoiseStream τ) (wire : List UInt8) (room : Nat)
    (answers : List Gives) : Received τ :=
  if s.readConsumed < s.readPlain.length then
    let bytes := (s.readPlain.drop s.readConsumed).take room
    let consumed := s.readConsumed + bytes.length
    { poll := .ready (.ok bytes)
      stream :=
        if consumed = s.readPlain.length then { s with readPlain := [], readConsumed := 0 }
        else { s with readConsumed := consumed }
      wire := wire }
  else
    match _htake : s.reassembler.take with
    | some (message, rest) =>
        match noise.decrypt s.transport message with
        | .error error =>
            { poll := .ready (.error (toIo error))
              stream := { s with reassembler := rest }
              wire := wire }
        | .ok (plain, transport) =>
            pollRead noise
              { s with
                transport := transport
                reassembler := rest
                readPlain := plain
                readConsumed := 0 }
              wire room answers
    | none =>
        match answers with
        | [] => { poll := .pending, stream := s, wire := wire }
        | .pending :: _ => { poll := .pending, stream := s, wire := wire }
        | .fails error :: _ => { poll := .ready (.error error), stream := s, wire := wire }
        | .upTo n :: answers =>
            let chunk := wire.take (min n readChunk)
            if chunk.length = 0 then { poll := .ready (.ok []), stream := s, wire := wire }
            else
              pollRead noise { s with reassembler := s.reassembler.push chunk }
                (wire.drop chunk.length) room answers
termination_by (answers.length, s.reassembler.buf.length)
decreasing_by
  · exact .right _ (Reassembler.length_of_take _htake)
  · exact .left _ _ (Nat.lt_succ_self _)

end NoiseStream

end Bliti.Channel.Stream
