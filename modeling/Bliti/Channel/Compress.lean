import Bliti.Channel.Stream

/-!
# The compression layer

One zlib stream per direction over a byte transport, spanning the connection: what is written
is deflated and what is read is inflated, each through a context that lasts as long as the
connection.  The two contexts are parameters.  The inner transport may take part of what it is
given, give part of what is coming, or stay pending, at any call.
-/

namespace Bliti.Channel.Compress

open Framing Bliti.Channel.Stream

/-! ## The contexts -/

/-- The scratch buffer size for both directions. -/
def chunk : Nat := 8192

/-- Where a call leaves a zlib stream. -/
inductive Status where
  | ok
  | bufError
  | streamEnd
deriving DecidableEq, Repr

/-- What a call into a deflate context is to bring out. -/
inductive FlushCompress where
  | none
  | sync
  | finish
deriving DecidableEq, Repr

/-- What a call into a context comes to: the context after it, what is in the buffer it was
given, and where the stream stands. -/
structure Called (κ : Type) where
  context : κ
  buffer : List UInt8
  status : Except String Status

/-- A deflate context.  A call takes at most what it is given, and of what a context holds it
writes until nothing is left: one that takes nothing leaves less to write where it fills its
chunk, or writes at all without being asked to flush. -/
structure Compressor (κ : Type) where
  new : κ
  totalIn : κ → Nat
  totalOut : κ → Nat
  compress : κ → List UInt8 → Nat → FlushCompress → Called κ
  held : κ → Nat
  took_le : ∀ context input room flush,
    totalIn (compress context input room flush).context ≤ totalIn context + input.length
  held_lt : ∀ context input flush,
    let after := (compress context input chunk flush).context
    totalIn after - totalIn context = 0 →
      (chunk ≤ totalOut after - totalOut context ∨
        (flush = .none ∧ totalOut after - totalOut context ≠ 0)) →
      held after < held context

/-- An inflate context.  A call takes at most what it is given. -/
structure Decompressor (δ : Type) where
  new : δ
  totalIn : δ → Nat
  totalOut : δ → Nat
  decompress : δ → List UInt8 → Nat → Called δ
  took_le : ∀ context input room,
    totalIn (decompress context input room).context ≤ totalIn context + input.length

/-! ## The stream -/

/-- A byte stream with one zlib stream layered over each direction. -/
structure CompressStream (κ δ : Type) where
  compress : κ
  decompress : δ
  out : WriteBacklog
  dirty : Bool
  finished : Bool
  inBuf : List UInt8
  inStart : Nat
  readEof : Bool
  streamEnd : Bool

/-- What a call that writes comes to: how the poll ends, the stream after it, and what the inner
transport took. -/
structure Sent (κ δ α : Type) where
  poll : Poll α
  stream : CompressStream κ δ
  taken : List UInt8

/-- The bytes coming from the other end, and whether the inner transport has ended. -/
structure Wire where
  coming : List UInt8
  ended : Bool

/-- Be given at most so many of the bytes that are coming.  A transport that gives none has
ended. -/
def Wire.give (wire : Wire) (n : Nat) : List UInt8 × Wire :=
  let given := wire.coming.take (min n chunk)
  (given, { coming := wire.coming.drop given.length, ended := wire.ended || given.isEmpty })

/-- What a call that reads comes to: how the poll ends, the stream after it, and the wire. -/
structure Received (κ δ : Type) where
  poll : Poll (List UInt8)
  stream : CompressStream κ δ
  wire : Wire

namespace CompressStream

variable {κ δ : Type}

/-- Wrap a byte stream, establishing a fresh context in each direction. -/
def new (compressor : Compressor κ) (decompressor : Decompressor δ) : CompressStream κ δ where
  compress := compressor.new
  decompress := decompressor.new
  out := .empty
  dirty := false
  finished := false
  inBuf := []
  inStart := 0
  readEof := false
  streamEnd := false

/-! ## Writing -/

/-- One call into the deflate context: what it took, how much it wrote and where the stream
stands, with everything written put on the backlog. -/
def deflate (compressor : Compressor κ) (s : CompressStream κ δ) (input : List UInt8)
    (flush : FlushCompress) : Except IoError (Nat × Nat × Status) × CompressStream κ δ :=
  let called := compressor.compress s.compress input chunk flush
  match called.status with
  | .error error => (.error { kind := .other, text := error }, { s with compress := called.context })
  | .ok status =>
      let read := compressor.totalIn called.context - compressor.totalIn s.compress
      let wrote := compressor.totalOut called.context - compressor.totalOut s.compress
      (.ok (read, wrote, status),
        { s with compress := called.context, out := s.out.extend (called.buffer.take wrote) })

/-- What a call into the deflate context that succeeds came to. -/
theorem deflate_ok {compressor : Compressor κ} {s after : CompressStream κ δ}
    {input : List UInt8} {flush : FlushCompress} {read wrote : Nat} {status : Status}
    (hok : s.deflate compressor input flush = (.ok (read, wrote, status), after)) :
    let called := compressor.compress s.compress input chunk flush
    called.status = .ok status ∧
      read = compressor.totalIn called.context - compressor.totalIn s.compress ∧
      wrote = compressor.totalOut called.context - compressor.totalOut s.compress ∧
      after = { s with
        compress := called.context, out := s.out.extend (called.buffer.take wrote) } := by
  unfold deflate at hok
  cases hstatus : (compressor.compress s.compress input chunk flush).status with
  | error error =>
      simp only [hstatus] at hok
      cases hok
  | ok held =>
      simp only [hstatus] at hok
      cases hok
      exact ⟨hstatus, rfl, rfl, rfl⟩

/-- Run input through the deflate context, from an offset on, and return how much of it was
taken. -/
def compressInput (compressor : Compressor κ) (s : CompressStream κ δ) (input : List UInt8)
    (offset : Nat) : Except IoError Nat × CompressStream κ δ :=
  match _hcall : s.deflate compressor (input.drop offset) .none with
  | (.error error, after) => (.error error, after)
  | (.ok (read, wrote, _), after) =>
      if (input.length ≤ offset + read ∧ wrote < chunk) ∨ (read = 0 ∧ wrote = 0) then
        (.ok (offset + read), after)
      else compressInput compressor after input (offset + read)
termination_by (input.length - offset, compressor.held s.compress)
decreasing_by
  rename_i hmore
  obtain ⟨-, hread, hwrote, hafter⟩ := deflate_ok _hcall
  have htook := compressor.took_le s.compress (input.drop offset) chunk .none
  rw [List.length_drop] at htook
  rcases Nat.eq_zero_or_pos read with hnone | hsome
  · have hheld : compressor.held after.compress < compressor.held s.compress := by
      rw [hafter]
      exact compressor.held_lt s.compress (input.drop offset) .none (by omega)
        (.inr ⟨rfl, by omega⟩)
    rw [hnone, Nat.add_zero]
    exact .right _ hheld
  · exact .left _ _ (by omega)

/-- Flush the deflate context, and report whether that brought the stream to its end. -/
def flushCompress (compressor : Compressor κ) (s : CompressStream κ δ) (flush : FlushCompress) :
    Except IoError Bool × CompressStream κ δ :=
  match _hcall : s.deflate compressor [] flush with
  | (.error error, after) => (.error error, after)
  | (.ok (_, wrote, status), after) =>
      if status = .streamEnd then (.ok true, after)
      else if wrote < chunk then (.ok false, after)
      else flushCompress compressor after flush
termination_by compressor.held s.compress
decreasing_by
  rename_i hfull
  obtain ⟨-, -, hwrote, hafter⟩ := deflate_ok _hcall
  have htook := compressor.took_le s.compress [] chunk flush
  rw [List.length_nil] at htook
  rw [hafter]
  exact compressor.held_lt s.compress [] flush (by omega) (.inl (by omega))

/-- Write bytes: what waits is drained first, so that a burst cannot grow it without bound. -/
def pollWrite (compressor : Compressor κ) (s : CompressStream κ δ) (buf : List UInt8)
    (answers : List Accepts) : Sent κ δ Nat :=
  if buf = [] then { poll := .ready (.ok 0), stream := s, taken := [] }
  else if s.finished then
    { poll := .ready (.error { kind := .brokenPipe, text := "broken pipe" })
      stream := s
      taken := [] }
  else
    let drained := s.out.pollDrain answers
    let clear := { s with out := drained.backlog }
    match drained.poll with
    | .pending => { poll := .pending, stream := clear, taken := drained.taken }
    | .ready (.error error) =>
        { poll := .ready (.error error), stream := clear, taken := drained.taken }
    | .ready (.ok ()) =>
        match clear.compressInput compressor buf 0 with
        | (.error error, after) =>
            { poll := .ready (.error error), stream := after, taken := drained.taken }
        | (.ok consumed, after) =>
            if consumed = 0 then
              { poll := .ready (.error {
                  kind := .other
                  text := "the compressor took no input; refusing to report a zero-length write" })
                stream := after
                taken := drained.taken }
            else
              -- Best effort: anything left is drained on the next call or on flush.
              let again := after.out.pollDrain drained.answers
              { poll :=
                  match again.poll with
                  | .ready (.error error) => .ready (.error error)
                  | _ => .ready (.ok consumed)
                stream := { after with dirty := true, out := again.backlog }
                taken := drained.taken ++ again.taken }

/-- Drain what waits, then do with the inner transport what is asked of it. -/
def drainThen (s : CompressStream κ δ) (answers : List Accepts) (inner : Poll Unit) :
    Sent κ δ Unit :=
  let drained := s.out.pollDrain answers
  { poll :=
      match drained.poll with
      | .ready (.ok ()) => inner
      | ended => ended
    stream := { s with out := drained.backlog }
    taken := drained.taken }

/-- Flush what was written, where anything was since the last flush, and the inner transport. -/
def pollFlush (compressor : Compressor κ) (s : CompressStream κ δ) (answers : List Accepts)
    (inner : Poll Unit) : Sent κ δ Unit :=
  if s.dirty && !s.finished then
    match s.flushCompress compressor .sync with
    | (.error error, after) => { poll := .ready (.error error), stream := after, taken := [] }
    | (.ok _, after) => { after with dirty := false }.drainThen answers inner
  else s.drainThen answers inner

/-- Finish the stream, where it is not finished, and close the inner transport. -/
def pollClose (compressor : Compressor κ) (s : CompressStream κ δ) (answers : List Accepts)
    (inner : Poll Unit) : Sent κ δ Unit :=
  if s.finished then s.drainThen answers inner
  else
    match s.flushCompress compressor .finish with
    | (.error error, after) => { poll := .ready (.error error), stream := after, taken := [] }
    | (.ok false, after) =>
        { poll := .ready (.error {
            kind := .other
            text := "the compressor did not finish the stream" })
          stream := after
          taken := [] }
    | (.ok true, after) =>
        { after with finished := true, dirty := false }.drainThen answers inner

/-! ## Reading -/

/-- A stream after a call into its inflate context that took so much, and left the zlib stream
as it says. -/
def inflated (s : CompressStream κ δ) (context : δ) (read : Nat) (status : Status) :
    CompressStream κ δ :=
  let start := s.inStart + read
  let streamEnd := s.streamEnd || status == .streamEnd
  -- A buffer taken whole is cleared.
  if start = s.inBuf.length then
    { s with decompress := context, inBuf := [], inStart := 0, streamEnd := streamEnd }
  else { s with decompress := context, inStart := start, streamEnd := streamEnd }

@[simp]
theorem inflated_decompress (s : CompressStream κ δ) (context : δ) (read : Nat)
    (status : Status) : (s.inflated context read status).decompress = context := by
  simp only [inflated]
  split <;> rfl

@[simp]
theorem inflated_readEof (s : CompressStream κ δ) (context : δ) (read : Nat) (status : Status) :
    (s.inflated context read status).readEof = s.readEof := by
  simp only [inflated]
  split <;> rfl

@[simp]
theorem inflated_streamEnd (s : CompressStream κ δ) (context : δ) (read : Nat)
    (status : Status) :
    (s.inflated context read status).streamEnd = (s.streamEnd || status == .streamEnd) := by
  simp only [inflated]
  split <;> rfl

/-- The bytes pulled off the inner transport that are not inflated yet. -/
def unread (s : CompressStream κ δ) : List UInt8 :=
  s.inBuf.drop s.inStart

/-- What is left to inflate is what there was without what was taken. -/
theorem unread_inflated (s : CompressStream κ δ) (context : δ) (read : Nat) (status : Status) :
    (s.inflated context read status).unread = s.unread.drop read := by
  unfold inflated unread
  simp only [List.drop_drop]
  split
  · rename_i hall
    rw [hall, List.drop_length]
    rfl
  · rfl

/-- Inflate into a buffer with room, pulling from the inner transport only once the inflate
context has nothing more to bring out. -/
def readLoop (decompressor : Decompressor δ) (s : CompressStream κ δ) (wire : Wire) (room : Nat)
    (answers : List Gives) : Received κ δ :=
  if s.streamEnd then { poll := .ready (.ok []), stream := s, wire := wire }
  else
    let called := decompressor.decompress s.decompress s.unread room
    match called.status with
    | .error error =>
        { poll := .ready (.error (toIo ("decompression failed: " ++ error)))
          stream := { s with decompress := called.context }
          wire := wire }
    | .ok status =>
        let read := decompressor.totalIn called.context - decompressor.totalIn s.decompress
        let wrote := decompressor.totalOut called.context - decompressor.totalOut s.decompress
        let after := s.inflated called.context read status
        if 0 < wrote then
          { poll := .ready (.ok (called.buffer.take wrote)), stream := after, wire := wire }
        else if after.streamEnd then { poll := .ready (.ok []), stream := after, wire := wire }
        -- Taken without bringing anything out: in the middle of a block.
        else if _hread : 0 < read then readLoop decompressor after wire room answers
        else if after.readEof then
          if after.streamEnd || decompressor.totalIn after.decompress == 0 then
            { poll := .ready (.ok []), stream := after, wire := wire }
          else
            { poll := .ready (.error { kind := .unexpectedEof, text := "unexpected end of file" })
              stream := after
              wire := wire }
        else
          match answers with
          | [] => { poll := .pending, stream := after, wire := wire }
          | .pending :: _ => { poll := .pending, stream := after, wire := wire }
          | .fails error :: _ => { poll := .ready (.error error), stream := after, wire := wire }
          | .upTo n :: answers =>
              let (given, wire) := wire.give n
              if given = [] then
                readLoop decompressor { after with readEof := true } wire room answers
              else
                readLoop decompressor { after with inBuf := after.inBuf ++ given } wire room answers
termination_by (answers.length, s.unread.length)
decreasing_by
  · have htook := decompressor.took_le s.decompress s.unread room
    have hsome : 0 < decompressor.totalIn
        (decompressor.decompress s.decompress s.unread room).context -
          decompressor.totalIn s.decompress := _hread
    refine .right _ ?_
    rw [unread_inflated, List.length_drop]
    exact Nat.sub_lt (by omega) hsome
  · exact .left _ _ (Nat.lt_succ_self _)
  · exact .left _ _ (Nat.lt_succ_self _)

/-- Read bytes into a buffer of some room. -/
def pollRead (decompressor : Decompressor δ) (s : CompressStream κ δ) (wire : Wire) (room : Nat)
    (answers : List Gives) : Received κ δ :=
  if room = 0 then { poll := .ready (.ok []), stream := s, wire := wire }
  else s.readLoop decompressor wire room answers

end CompressStream

end Bliti.Channel.Compress
