import Bliti.Library.Transition
import Bliti.Channel.Stream

/-!
# The encrypted stream - bytes from one end to the other

One end writes and flushes over an inner transport that takes what it will; the other reads
what has come off the wire, in whatever chunks.  A writer that has failed is not called again:
whoever drives the connection gives it up.

Main results:

- Theorem `crosses`: in every run what is read is a prefix of what was written, and all of it
  once it is flushed and has come across.
-/

namespace Bliti.Channel.Stream

open Framing Transition

variable {τ : Type}

/-! ## In-order messages -/

/-- Put messages through a transport, one after another. -/
def through (turn : τ → List UInt8 → Except String (List UInt8 × τ)) :
    τ → List (List UInt8) → Except String (List (List UInt8) × τ)
  | t, [] => .ok ([], t)
  | t, message :: rest => do
      let (out, t) ← turn t message
      let (outs, t) ← through turn t rest
      pure (out :: outs, t)

/-- What is relied on of two ends of a Noise transport: what one encrypts the other decrypts,
message by message in order, and a message is no longer than its plaintext and its tag. -/
structure InOrder (noise : Noise τ) (sender receiver : τ) : Prop where
  opens : ∀ plains ciphers t, through noise.encrypt sender plains = .ok (ciphers, t) →
    ∃ t', through noise.decrypt receiver ciphers = .ok (plains, t')
  size : ∀ t plain cipher t', noise.encrypt t plain = .ok (cipher, t') →
    cipher.length ≤ plain.length + tagLen

section

variable {turn : τ → List UInt8 → Except String (List UInt8 × τ)}

/-- Messages go through one by one. -/
theorem through_cons_eq_ok {t t' : τ} {message : List UInt8} {rest outs : List (List UInt8)} :
    through turn t (message :: rest) = .ok (outs, t') ↔
      ∃ out next others, turn t message = .ok (out, next) ∧
        through turn next rest = .ok (others, t') ∧ outs = out :: others := by
  rw [through]
  constructor
  · intro hok
    cases hturn : turn t message with
    | error => simp [hturn, bind, Except.bind] at hok
    | ok answer =>
        obtain ⟨out, next⟩ := answer
        cases hrest : through turn next rest with
        | error => simp [hturn, hrest, bind, Except.bind] at hok
        | ok answers =>
            obtain ⟨others, last⟩ := answers
            simp only [hturn, hrest, bind, Except.bind, pure, Except.pure, Except.ok.injEq,
              Prod.mk.injEq] at hok
            obtain ⟨rfl, rfl⟩ := hok
            exact ⟨out, next, others, rfl, hrest, rfl⟩
  · rintro ⟨out, next, others, hturn, hrest, rfl⟩
    simp [hturn, hrest, bind, Except.bind, pure, Except.pure]

/-- Messages go through after others. -/
theorem through_append_eq_ok {t t' : τ} {one other outs : List (List UInt8)} :
    through turn t (one ++ other) = .ok (outs, t') ↔
      ∃ firsts next others, through turn t one = .ok (firsts, next) ∧
        through turn next other = .ok (others, t') ∧ outs = firsts ++ others := by
  induction one generalizing t outs with
  | nil =>
      constructor
      · exact fun hok => ⟨[], t, outs, rfl, hok, rfl⟩
      · rintro ⟨firsts, next, others, hnone, hok, rfl⟩
        cases hnone
        exact hok
  | cons message rest ih =>
      rw [List.cons_append, through_cons_eq_ok]
      constructor
      · rintro ⟨out, next, others, hturn, hrest, rfl⟩
        obtain ⟨firsts, later, lasts, hfirsts, hlasts, rfl⟩ := ih.mp hrest
        exact ⟨out :: firsts, later, lasts,
          through_cons_eq_ok.mpr ⟨out, next, firsts, hturn, hfirsts, rfl⟩, hlasts, rfl⟩
      · rintro ⟨firsts, later, lasts, hfirsts, hlasts, rfl⟩
        obtain ⟨out, next, others, hturn, hrest, rfl⟩ := through_cons_eq_ok.mp hfirsts
        exact ⟨out, next, others ++ lasts, hturn,
          ih.mpr ⟨others, later, lasts, hrest, hlasts, rfl⟩, rfl⟩

/-- One message goes through as its turn does. -/
theorem through_singleton_eq_ok {t t' : τ} {message : List UInt8} {outs : List (List UInt8)} :
    through turn t [message] = .ok (outs, t') ↔
      ∃ out, turn t message = .ok (out, t') ∧ outs = [out] := by
  rw [through_cons_eq_ok]
  constructor
  · rintro ⟨out, next, others, hturn, hnone, rfl⟩
    cases hnone
    exact ⟨out, hturn, rfl⟩
  · rintro ⟨out, hturn, rfl⟩
    exact ⟨out, t', [], hturn, rfl, rfl⟩

/-- As many messages come out as go in. -/
theorem length_through {t t' : τ} {messages outs : List (List UInt8)}
    (hok : through turn t messages = .ok (outs, t')) : outs.length = messages.length := by
  induction messages generalizing t outs with
  | nil =>
      cases hok
      rfl
  | cons message rest ih =>
      obtain ⟨out, next, others, -, hrest, rfl⟩ := through_cons_eq_ok.mp hok
      rw [List.length_cons, ih hrest, List.length_cons]

end

/-- A message sent, as its plaintext and what it was encrypted to. -/
abbrev Message := List UInt8 × List UInt8

/-- The plaintexts of messages. -/
abbrev plains (messages : List Message) : List (List UInt8) := messages.map Prod.fst

/-- What messages were encrypted to. -/
abbrev ciphers (messages : List Message) : List (List UInt8) := messages.map Prod.snd

/-- The receiver of messages decrypts the next of them, having decrypted those before it. -/
theorem InOrder.decrypts {noise : Noise τ} {sender receiver sent opened : τ}
    (hnoise : InOrder noise sender receiver) {past ahead : List Message} {message : Message}
    (hsealed : through noise.encrypt sender (plains (past ++ message :: ahead)) =
      .ok (ciphers (past ++ message :: ahead), sent))
    (hopened : through noise.decrypt receiver (ciphers past) = .ok (plains past, opened)) :
    ∃ next, noise.decrypt opened message.2 = .ok (message.1, next) := by
  have hsplit : past ++ message :: ahead = (past ++ [message]) ++ ahead := by simp
  rw [hsplit, plains, List.map_append] at hsealed
  obtain ⟨firsts, middle, others, hfirsts, -, houts⟩ := through_append_eq_ok.mp hsealed
  have hlength := length_through hfirsts
  rw [ciphers, List.map_append] at houts
  obtain ⟨rfl, -⟩ := List.append_inj houts (by simpa using hlength.symm)
  obtain ⟨last, hboth⟩ := hnoise.opens _ _ _ hfirsts
  rw [List.map_append] at hboth
  obtain ⟨befores, next, lasts, hbefore, hmessage, heq⟩ := through_append_eq_ok.mp hboth
  rw [ciphers] at hopened
  rw [hopened] at hbefore
  cases hbefore
  obtain ⟨out, hturn, rfl⟩ := through_singleton_eq_ok.mp hmessage
  rw [List.map_append] at heq
  obtain rfl : message.1 = out := by simpa using List.append_cancel_left heq
  exact ⟨last, hturn⟩

/-! ## The link -/

namespace Poll

/-- Whether a poll has failed. -/
def failed {α : Type} : Poll α → Bool
  | .ready (.error _) => true
  | _ => false

/-- Whether a poll is done. -/
def done {α : Type} : Poll α → Bool
  | .ready (.ok _) => true
  | _ => false

/-- A poll that is done has not failed. -/
theorem not_failed_of_done {α : Type} {poll : Poll α} (hdone : poll.done = true) :
    ¬ poll.failed = true := by
  cases poll with
  | pending => exact Bool.false_ne_true
  | ready outcome =>
      cases outcome with
      | ok a => exact Bool.false_ne_true
      | error error => cases hdone

/-- The bytes a read comes to. -/
def bytes : Poll (List UInt8) → List UInt8
  | .ready (.ok bytes) => bytes
  | _ => []

/-- The bytes of a buffer a write reports written. -/
def written (buf : List UInt8) : Poll Nat → List UInt8
  | .ready (.ok n) => buf.take n
  | _ => []

end Poll

/-- Two ends of a stream and the wire between them, with all that was put on it, what was
reported written and what was read; whether a call that writes has failed, and whether a flush
has been completed since the last write. -/
structure Link (τ : Type) where
  writer : NoiseStream τ
  wire : List UInt8
  reader : NoiseStream τ
  carried : List UInt8
  written : List UInt8
  read : List UInt8
  failed : Bool
  flushed : Bool

/-- A call on one of the ends, with how the inner transport answers it. -/
inductive Call where
  | write (buf : List UInt8) (answers : List Accepts)
  | flush (answers : List Accepts) (inner : Poll Unit)
  | close (answers : List Accepts) (inner : Poll Unit)
  | read (room : Nat) (answers : List Gives)

namespace Link

/-- A link of two ends that have sent each other nothing. -/
def start (sender receiver : τ) : Link τ where
  writer := .new sender
  wire := []
  reader := .new receiver
  carried := []
  written := []
  read := []
  failed := false
  flushed := false

/-- What the inner transport took of a call is put on the wire. -/
def sends {α : Type} (link : Link τ) (sent : Sent τ α) : Link τ :=
  { link with
    writer := sent.stream
    wire := link.wire ++ sent.taken
    carried := link.carried ++ sent.taken
    failed := sent.poll.failed }

/-- Take a call. -/
def take (noise : Noise τ) (link : Link τ) : Call → Option (Link τ)
  | .write buf answers =>
      if link.failed then none
      else
        let sent := link.writer.pollWrite noise buf answers
        some { link.sends sent with
          written := link.written ++ sent.poll.written buf, flushed := false }
  | .flush answers inner =>
      if link.failed then none
      else
        let sent := link.writer.pollFlush answers inner
        some { link.sends sent with flushed := sent.poll.done }
  | .close answers inner =>
      if link.failed then none
      else
        let sent := link.writer.pollClose answers inner
        some { link.sends sent with flushed := sent.poll.done }
  | .read room answers =>
      let received := link.reader.pollRead noise link.wire room answers
      some { link with
        reader := received.stream
        wire := received.wire
        read := link.read ++ received.poll.bytes }

end Link

/-- The system of a link. -/
def system (noise : Noise τ) (sender receiver : τ) : System (Link τ) Call :=
  .ofTake (· = .start sender receiver) (Link.take noise)

/-! ## Reading -/

/-- What a reader has and is to get: the messages it has decrypted are what was read and what it
still holds of the last, and what it holds undecrypted, with what is coming, the frames of the
others. -/
structure Receiving (noise : Noise τ) (receiver : τ) (past ahead : List Message)
    (reader : NoiseStream τ) (coming read : List UInt8) : Prop where
  opened : through noise.decrypt receiver (ciphers past) = .ok (plains past, reader.transport)
  stream : reader.reassembler.buf ++ coming = frames (ciphers ahead)
  served : (plains past).flatten = read ++ reader.readPlain.drop reader.readConsumed

/-- A reader that has nothing to serve and no whole frame. -/
def Idle (reader : NoiseStream τ) : Prop :=
  reader.readPlain.drop reader.readConsumed = [] ∧ reader.reassembler.take = none

/-- What a read keeps: some of the messages have been decrypted and the others have not, what
they held is served in order, and a read that stays pending leaves nothing to serve. -/
def Reads (noise : Noise τ) (receiver : τ) (messages : List Message) (rest read : List UInt8)
    (received : Received τ) : Prop :=
  ∃ past ahead, messages = past ++ ahead ∧
    Receiving noise receiver past ahead received.stream (received.wire ++ rest)
      (read ++ received.poll.bytes) ∧
    (received.poll = .pending → Idle received.stream)

namespace Receiving

variable {noise : Noise τ} {receiver : τ} {past ahead : List Message} {reader : NoiseStream τ}
  {wire rest coming read : List UInt8}

/-- Buffered plaintext is served from where it was left. -/
theorem serve (h : Receiving noise receiver past ahead reader coming read) {bytes : List UInt8}
    {room : Nat} (hbytes : bytes = (reader.readPlain.drop reader.readConsumed).take room) :
    Receiving noise receiver past ahead
      (if reader.readConsumed + bytes.length = reader.readPlain.length then
        { reader with readPlain := [], readConsumed := 0 }
      else { reader with readConsumed := reader.readConsumed + bytes.length })
      coming (read ++ bytes) := by
  have hplain : reader.readPlain.drop reader.readConsumed =
      bytes ++ reader.readPlain.drop (reader.readConsumed + bytes.length) := by
    have hprefix : bytes <+: reader.readPlain.drop reader.readConsumed :=
      hbytes ▸ List.take_prefix _ _
    rw [← List.drop_drop]
    exact (List.prefix_iff_eq_append.mp hprefix).symm
  have hserved := h.served
  rw [hplain, ← List.append_assoc] at hserved
  split
  · rename_i hall
    rw [hall, List.drop_length] at hserved
    exact { opened := h.opened, stream := h.stream, served := hserved }
  · exact { opened := h.opened, stream := h.stream, served := hserved }

/-- The next frame is that of the next message. -/
theorem next (h : Receiving noise receiver past ahead reader coming read)
    (hsizes : ∀ message ∈ ahead, message.2.length ≤ 65535) {frame : List UInt8}
    {left : Reassembler} (htake : reader.reassembler.take = some (frame, left)) :
    ∃ first others, ahead = first :: others ∧ frame = first.2 ∧
      left.buf ++ coming = frames (ciphers others) := by
  obtain ⟨hsize, hbuf⟩ := Reassembler.take_eq_some_iff.mp htake
  have hstream := h.stream
  rw [hbuf, List.append_assoc] at hstream
  cases ahead with
  | nil =>
      have hlength := congrArg List.length hstream
      simp at hlength
  | cons first others =>
      have hfirst := hsizes first List.mem_cons_self
      obtain ⟨rfl, hleft⟩ := frame_append_inj hsize hfirst hstream
      exact ⟨first, others, rfl, rfl, hleft⟩

/-- A message decrypted is served next, where nothing was left to serve. -/
theorem decrypted {first : Message} {others : List Message}
    (h : Receiving noise receiver past (first :: others) reader coming read)
    (hserved : reader.readPlain.drop reader.readConsumed = []) {left : Reassembler}
    (hleft : left.buf ++ coming = frames (ciphers others)) {transport : τ}
    (hdecrypt : noise.decrypt reader.transport first.2 = .ok (first.1, transport)) :
    Receiving noise receiver (past ++ [first]) others
      { reader with
        transport := transport, reassembler := left, readPlain := first.1, readConsumed := 0 }
      coming read where
  opened := by
    rw [ciphers, plains, List.map_append, List.map_append]
    exact through_append_eq_ok.mpr ⟨_, _, _, h.opened,
      through_singleton_eq_ok.mpr ⟨first.1, hdecrypt, rfl⟩, rfl⟩
  stream := hleft
  served := by
    have hbefore := h.served
    rw [hserved, List.append_nil] at hbefore
    simp [hbefore]

/-- Bytes pulled off the wire are held undecrypted. -/
theorem pull (h : Receiving noise receiver past ahead reader (wire ++ rest) read) (n : Nat) :
    Receiving noise receiver past ahead
      { reader with reassembler := reader.reassembler.push (wire.take n) }
      (wire.drop (wire.take n).length ++ rest) read where
  opened := h.opened
  stream := by
    have hwire : wire.take n ++ wire.drop (wire.take n).length = wire :=
      (List.prefix_iff_eq_append.mp (List.take_prefix n wire))
    rw [← h.stream, Reassembler.push, List.append_assoc, ← List.append_assoc (wire.take n), hwire]
  served := h.served

/-- A read that serves nothing and does not stay pending keeps what there was. -/
theorem reads (h : Receiving noise receiver past ahead reader (wire ++ rest) read)
    {outcome : Except IoError (List UInt8)} (hnone : (Poll.ready outcome).bytes = []) :
    Reads noise receiver (past ++ ahead) rest read
      { poll := .ready outcome, stream := reader, wire := wire } :=
  ⟨past, ahead, rfl, by simpa [hnone] using h, nofun⟩

end Receiving

/-- What a read comes to, however the inner transport answers. -/
theorem pollRead_reads {noise : Noise τ} {sender receiver sent : τ}
    (hnoise : InOrder noise sender receiver) {messages past ahead : List Message}
    (hsealed : through noise.encrypt sender (plains messages) = .ok (ciphers messages, sent))
    (hsizes : ∀ message ∈ messages, message.2.length ≤ 65535)
    (hsplit : messages = past ++ ahead) {reader : NoiseStream τ} {wire rest read : List UInt8}
    (h : Receiving noise receiver past ahead reader (wire ++ rest) read) (room : Nat)
    (answers : List Gives) :
    Reads noise receiver messages rest read (reader.pollRead noise wire room answers) := by
  subst hsplit
  fun_induction NoiseStream.pollRead noise reader wire room answers generalizing past ahead with
  | case1 reader wire answers hlt =>
      exact ⟨past, ahead, rfl, h.serve rfl, nofun⟩
  | case2 reader wire answers hnot frame left htake error herror =>
      have hahead := fun message hmem => hsizes message (List.mem_append_right past hmem)
      obtain ⟨first, others, rfl, rfl, hleft⟩ := h.next hahead htake
      obtain ⟨next, hdecrypt⟩ := hnoise.decrypts hsealed h.opened
      rw [herror] at hdecrypt
      cases hdecrypt
  | case3 reader wire answers hnot frame left htake plain transport hok ih =>
      have hahead := fun message hmem => hsizes message (List.mem_append_right past hmem)
      obtain ⟨first, others, rfl, rfl, hleft⟩ := h.next hahead htake
      obtain ⟨next, hdecrypt⟩ := hnoise.decrypts hsealed h.opened
      rw [hok] at hdecrypt
      cases hdecrypt
      have hserved : reader.readPlain.drop reader.readConsumed = [] :=
        List.drop_eq_nil_of_le (Nat.le_of_not_lt hnot)
      rw [List.append_cons] at hsealed hsizes ⊢
      exact ih (h.decrypted hserved hleft hok) hsealed hsizes
  | case4 reader wire hnot hnone =>
      refine ⟨past, ahead, rfl, by simpa [Poll.bytes] using h, fun _ => ⟨?_, hnone⟩⟩
      exact List.drop_eq_nil_of_le (Nat.le_of_not_lt hnot)
  | case5 reader wire hnot hnone answers =>
      refine ⟨past, ahead, rfl, by simpa [Poll.bytes] using h, fun _ => ⟨?_, hnone⟩⟩
      exact List.drop_eq_nil_of_le (Nat.le_of_not_lt hnot)
  | case6 reader wire hnot hnone error answers => exact h.reads rfl
  | case7 reader wire hnot hnone n answers hempty => exact h.reads rfl
  | case8 =>
      rename_i ih
      exact ih (h.pull _) hsealed hsizes

/-! ## Writing -/

/-- What a write comes to: it encrypts nothing and reports nothing written, or encrypts one
message, which it reports written unless it fails with some of it waiting. -/
inductive Writes (noise : Noise τ) (before : NoiseStream τ) (buf : List UInt8)
    (sent : Sent τ Nat) : Prop
  | nothing (htransport : sent.stream.transport = before.transport)
      (hwaiting : before.write.waiting = sent.taken ++ sent.stream.write.waiting)
      (hwritten : sent.poll.written buf = [])
  | message (plain cipher : List UInt8)
      (hencrypt : noise.encrypt before.transport plain = .ok (cipher, sent.stream.transport))
      (hsize : cipher.length ≤ 65535)
      (hwaiting : before.write.waiting ++ frame cipher =
        sent.taken ++ sent.stream.write.waiting)
      (hwritten : sent.poll.written buf = plain ∨
        sent.poll.written buf = [] ∧ sent.poll.failed = true ∧ sent.stream.write.waiting ≠ [])

/-- A message sent on a backlog of nothing is encrypted whole, or not at all. -/
theorem send_writes {noise : Noise τ} {sender receiver : τ}
    (hnoise : InOrder noise sender receiver) {s : NoiseStream τ} (hempty : s.write = .empty)
    (buf : List UInt8) (answers : List Accepts) :
    Writes noise s buf (s.send noise buf answers) := by
  unfold NoiseStream.send
  simp only
  split
  · exact .nothing rfl rfl rfl
  · rename_i cipher transport hencrypt
    have hsize : cipher.length ≤ 65535 := by
      have hcipher := hnoise.size _ _ _ _ hencrypt
      have hchunk : (buf.take maxPlaintext).length ≤ maxPlaintext := List.length_take_le _ _
      simp only [maxPlaintext, tagLen] at hcipher hchunk
      omega
    rw [encodePrefix_transport hsize]
    have hdrains := WriteBacklog.pollDrain_drains answers
      ((s.write.extend (BigEndian.bytes 2 cipher.length)).extend cipher)
    rw [hempty] at hdrains ⊢
    refine .message _ cipher hencrypt hsize ?_ ?_
    · rw [hempty]
      exact (WriteBacklog.waiting_extend_empty _ _).symm.trans hdrains.bytes
    · simp only
      split
      · rename_i error herror
        exact .inr ⟨rfl, rfl, hdrains.short (by rw [herror]; simp)⟩
      · left
        simp [Poll.written]

/-- A write after what waited was drained comes to what it does, with what was drained. -/
theorem Writes.after {noise : Noise τ} {before : NoiseStream τ} {backlog : WriteBacklog}
    {taken buf : List UInt8} {sent : Sent τ Nat}
    (hdrained : before.write.waiting = taken ++ backlog.waiting)
    (h : Writes noise { before with write := backlog } buf sent) :
    Writes noise before buf { sent with taken := taken ++ sent.taken } := by
  cases h with
  | nothing htransport hwaiting hwritten =>
      have hboth : before.write.waiting = (taken ++ sent.taken) ++ sent.stream.write.waiting := by
        rw [hdrained, List.append_assoc, ← hwaiting]
      exact .nothing htransport hboth hwritten
  | message plain cipher hencrypt hsize hwaiting hwritten =>
      have hboth : before.write.waiting ++ frame cipher =
          (taken ++ sent.taken) ++ sent.stream.write.waiting := by
        rw [hdrained, List.append_assoc, List.append_assoc, ← hwaiting]
      exact .message plain cipher hencrypt hsize hboth hwritten

/-- What a write comes to, however the inner transport answers. -/
theorem pollWrite_writes {noise : Noise τ} {sender receiver : τ}
    (hnoise : InOrder noise sender receiver) (s : NoiseStream τ) (buf : List UInt8)
    (answers : List Accepts) : Writes noise s buf (s.pollWrite noise buf answers) := by
  unfold NoiseStream.pollWrite
  have hdrains := WriteBacklog.pollDrain_drains answers s.write
  split
  · exact .nothing rfl rfl (by simp [Poll.written])
  · simp only
    split
    · exact .nothing rfl hdrains.bytes rfl
    · exact .nothing rfl hdrains.bytes rfl
    · rename_i hready
      exact (send_writes hnoise (hdrains.whole hready) buf _).after hdrains.bytes

/-! ## The run -/

/-- Where the bytes of each message are: all were encrypted in order; some have been decrypted,
and the frames of the others are held by the reader, on the wire or waiting at the writer; what
was reported written is what they hold, but for the last of a writer that failed before it had
sent it whole. -/
structure Crossing (noise : Noise τ) (sender receiver : τ) (past ahead : List Message)
    (link : Link τ) : Prop where
  encrypted : through noise.encrypt sender (plains (past ++ ahead)) =
    .ok (ciphers (past ++ ahead), link.writer.transport)
  sizes : ∀ message ∈ past ++ ahead, message.2.length ≤ 65535
  receiving : Receiving noise receiver past ahead link.reader
    (link.wire ++ link.writer.write.waiting) link.read
  carried : link.carried ++ link.writer.write.waiting = frames (ciphers (past ++ ahead))
  written : (plains (past ++ ahead)).flatten = link.written ∨
    link.failed = true ∧ link.writer.write.waiting ≠ [] ∧
      ∃ before last, past ++ ahead = before ++ [last] ∧ (plains before).flatten = link.written
  flushed : link.flushed = true → link.writer.write.waiting = []

namespace Crossing

variable {noise : Noise τ} {sender receiver : τ} {past ahead : List Message} {link link' : Link τ}

/-- Two ends that have sent each other nothing. -/
theorem start : Crossing noise sender receiver [] [] (.start sender receiver) where
  encrypted := rfl
  sizes := nofun
  receiving := { opened := rfl, stream := rfl, served := rfl }
  carried := rfl
  written := .inl rfl
  flushed := nofun

/-- What was reported written is what was encrypted, while no call has failed. -/
theorem written_of_live (h : Crossing noise sender receiver past ahead link)
    (hlive : link.failed = false) : (plains (past ++ ahead)).flatten = link.written := by
  rcases h.written with hwritten | ⟨hfailed, -⟩
  · exact hwritten
  · rw [hlive] at hfailed
    cases hfailed

/-- A call that encrypts nothing moves bytes on. -/
theorem sends (h : Crossing noise sender receiver past ahead link) (hlive : link.failed = false)
    {α : Type} {sent : Sent τ α} (htransport : sent.stream.transport = link.writer.transport)
    (hwaiting : link.writer.write.waiting = sent.taken ++ sent.stream.write.waiting)
    {flushed : Bool} (hflushed : flushed = true → sent.stream.write.waiting = []) :
    Crossing noise sender receiver past ahead { link.sends sent with flushed := flushed } where
  encrypted := htransport ▸ h.encrypted
  sizes := h.sizes
  receiving := by
    have hreceiving := h.receiving
    rw [hwaiting, ← List.append_assoc] at hreceiving
    exact hreceiving
  carried := by
    have hcarried := h.carried
    rw [hwaiting, ← List.append_assoc] at hcarried
    exact hcarried
  written := .inl (h.written_of_live hlive)
  flushed := hflushed

/-- A write that encrypts a message puts its frame behind what waits. -/
theorem sendsMessage (h : Crossing noise sender receiver past ahead link)
    (hlive : link.failed = false) {sent : Sent τ Nat} {plain cipher written : List UInt8}
    (hencrypt : noise.encrypt link.writer.transport plain = .ok (cipher, sent.stream.transport))
    (hsize : cipher.length ≤ 65535)
    (hwaiting : link.writer.write.waiting ++ frame cipher =
      sent.taken ++ sent.stream.write.waiting)
    (hwritten : written = plain ∨
      written = [] ∧ sent.poll.failed = true ∧ sent.stream.write.waiting ≠ []) :
    Crossing noise sender receiver past (ahead ++ [(plain, cipher)])
      { link.sends sent with written := link.written ++ written, flushed := false } where
  encrypted := by
    have hplains : plains (past ++ (ahead ++ [(plain, cipher)])) =
        plains (past ++ ahead) ++ [plain] := by simp
    have hciphers : ciphers (past ++ (ahead ++ [(plain, cipher)])) =
        ciphers (past ++ ahead) ++ [cipher] := by simp
    rw [hplains, hciphers]
    exact through_append_eq_ok.mpr ⟨_, _, _, h.encrypted,
      through_singleton_eq_ok.mpr ⟨cipher, hencrypt, rfl⟩, rfl⟩
  sizes := by
    intro message hmem
    rw [← List.append_assoc, List.mem_append, List.mem_singleton] at hmem
    rcases hmem with hmem | rfl
    · exact h.sizes message hmem
    · exact hsize
  receiving := {
    opened := h.receiving.opened
    stream := by
      have hstream := congrArg (· ++ frame cipher) h.receiving.stream
      simp only [List.append_assoc, hwaiting] at hstream
      simpa [Link.sends] using hstream
    served := h.receiving.served }
  carried := by
    have hcarried := congrArg (· ++ frame cipher) h.carried
    simp only [List.append_assoc, hwaiting] at hcarried
    simpa [Link.sends] using hcarried
  written := by
    have hbefore := h.written_of_live hlive
    rcases hwritten with rfl | ⟨rfl, hfailed, hwaits⟩
    · left
      simp [← hbefore]
    · right
      refine ⟨hfailed, hwaits, past ++ ahead, (plain, cipher), by simp, ?_⟩
      rw [hbefore, List.append_nil]
  flushed := nofun

/-- Nothing waits at a writer that has drained all it had. -/
theorem waiting_of_drained {s : NoiseStream τ} {answers : List Accepts} {inner : Poll Unit}
    (hdone : (s.drainThen answers inner).poll.done = true) :
    (s.drainThen answers inner).stream.write.waiting = [] := by
  have hdrains := WriteBacklog.pollDrain_drains answers s.write
  have hready : (s.write.pollDrain answers).poll = .ready (.ok ()) := by
    unfold NoiseStream.drainThen at hdone
    cases hpoll : (s.write.pollDrain answers).poll with
    | pending => simp [hpoll, Poll.done] at hdone
    | ready outcome =>
        cases outcome with
        | error error => simp [hpoll, Poll.done] at hdone
        | ok done => rfl
  have hempty := hdrains.whole hready
  simp [NoiseStream.drainThen, hempty, WriteBacklog.waiting, WriteBacklog.empty]

/-- A read takes messages from those ahead to those past. -/
theorem reads (h : Crossing noise sender receiver past ahead link) {received : Received τ}
    (hreads : Reads noise receiver (past ++ ahead) link.writer.write.waiting link.read received) :
    ∃ past' ahead', past ++ ahead = past' ++ ahead' ∧
      Crossing noise sender receiver past' ahead' { link with
        reader := received.stream
        wire := received.wire
        read := link.read ++ received.poll.bytes } := by
  obtain ⟨past', ahead', hsplit, hreceiving, -⟩ := hreads
  refine ⟨past', ahead', hsplit, ?_⟩
  exact {
    encrypted := hsplit ▸ h.encrypted
    sizes := hsplit ▸ h.sizes
    receiving := hreceiving
    carried := hsplit ▸ h.carried
    written := hsplit ▸ h.written
    flushed := h.flushed }

/-- A call keeps every byte where it is, or moves it on. -/
theorem take (hnoise : InOrder noise sender receiver)
    (h : Crossing noise sender receiver past ahead link) {call : Call}
    (htake : link.take noise call = some link') :
    ∃ past ahead, Crossing noise sender receiver past ahead link' := by
  have hdrain (answers : List Accepts) (inner : Poll Unit) (hlive : link.failed = false) :
      Crossing noise sender receiver past ahead
        { link.sends (link.writer.drainThen answers inner) with
          flushed := (link.writer.drainThen answers inner).poll.done } :=
    h.sends hlive rfl (WriteBacklog.pollDrain_drains answers link.writer.write).bytes
      waiting_of_drained
  cases call with
  | write buf answers =>
      simp only [Link.take] at htake
      split at htake
      · cases htake
      · rename_i hlive
        have hlive := Bool.eq_false_iff.mpr hlive
        obtain rfl := Option.some.inj htake
        cases pollWrite_writes hnoise link.writer buf answers with
        | nothing htransport hwaiting hwritten =>
            rw [hwritten, List.append_nil]
            exact ⟨past, ahead, h.sends hlive htransport hwaiting nofun⟩
        | message plain cipher hencrypt hsize hwaiting hwritten =>
            exact ⟨past, _, h.sendsMessage hlive hencrypt hsize hwaiting hwritten⟩
  | flush answers inner =>
      simp only [Link.take] at htake
      split at htake
      · cases htake
      · rename_i hlive
        obtain rfl := Option.some.inj htake
        exact ⟨past, ahead, hdrain answers inner (Bool.eq_false_iff.mpr hlive)⟩
  | close answers inner =>
      simp only [Link.take] at htake
      split at htake
      · cases htake
      · rename_i hlive
        obtain rfl := Option.some.inj htake
        exact ⟨past, ahead, hdrain answers inner (Bool.eq_false_iff.mpr hlive)⟩
  | read room answers =>
      obtain rfl := Option.some.inj htake
      have hreads := pollRead_reads hnoise h.encrypted h.sizes rfl h.receiving room answers
      obtain ⟨past', ahead', -, hafter⟩ := h.reads hreads
      exact ⟨past', ahead', hafter⟩

/-- What was read is a prefix of what was reported written. -/
theorem read_prefix (h : Crossing noise sender receiver past ahead link) :
    link.read <+: link.written := by
  have hread : link.read <+: (plains past).flatten :=
    h.receiving.served ▸ List.prefix_append _ _
  have hflatten (one other : List Message) :
      (plains (one ++ other)).flatten = (plains one).flatten ++ (plains other).flatten := by simp
  rcases h.written with hwritten | ⟨-, hwaits, before, last, hsplit, hwritten⟩
  · rw [hflatten] at hwritten
    exact hread.trans (hwritten ▸ List.prefix_append _ _)
  · -- The last message is not whole on the wire, so it is one of those ahead.
    have hahead : ahead ≠ [] := by
      rintro rfl
      have hstream := h.receiving.stream
      simp [hwaits] at hstream
    have hpast : past <+: before := by
      rcases List.prefix_concat_iff.mp (hsplit ▸ List.prefix_append past ahead) with hall | hpast
      · rw [← hsplit] at hall
        exact absurd (List.append_right_eq_self.mp hall.symm) hahead
      · exact hpast
    obtain ⟨others, rfl⟩ := hpast
    rw [hflatten] at hwritten
    exact hread.trans (hwritten ▸ List.prefix_append _ _)

/-- What was put on the wire is the beginning of frames of no more than 65535 bytes each. -/
theorem carried_frames (h : Crossing noise sender receiver past ahead link) :
    ∃ messages : List (List UInt8), (∀ message ∈ messages, message.length ≤ 65535) ∧
      link.carried <+: frames messages := by
  refine ⟨ciphers (past ++ ahead), fun message hmem => ?_, ?_⟩
  · obtain ⟨pair, hpair, rfl⟩ := List.mem_map.mp hmem
    exact h.sizes pair hpair
  · exact h.carried ▸ List.prefix_append _ _

/-- Once nothing waits, nothing is on the wire and the reader has nothing to serve, everything
reported written has been read. -/
theorem read_all (h : Crossing noise sender receiver past ahead link)
    (hflushed : link.flushed = true) (hwire : link.wire = []) (hidle : Idle link.reader) :
    link.read = link.written := by
  have hwaiting := h.flushed hflushed
  have hstream := h.receiving.stream
  rw [hwire, hwaiting, List.append_nil, List.append_nil] at hstream
  have hahead : ahead = [] := by
    cases ahead with
    | nil => rfl
    | cons first others =>
        have hsize := h.sizes first (List.mem_append_right past List.mem_cons_self)
        have hnone := Reassembler.take_eq_none_iff.mp hidle.2 first.2 hsize
        exact absurd ⟨_, hstream.symm⟩ hnone
  have hserved := h.receiving.served
  rw [hidle.1, List.append_nil] at hserved
  rcases h.written with hwritten | ⟨-, hwaits, -⟩
  · rw [hahead, List.append_nil, hserved] at hwritten
    exact hwritten
  · exact absurd hwaiting hwaits

end Crossing

/-- In every run the bytes of each message are somewhere on the way. -/
theorem crossing_of_reachable {noise : Noise τ} {sender receiver : τ}
    (hnoise : InOrder noise sender receiver) {link : Link τ}
    (hreach : (system noise sender receiver).Reachable link) :
    ∃ past ahead, Crossing noise sender receiver past ahead link := by
  refine hreach.invariant (?_ : ∀ link, link = .start sender receiver →
    ∃ past ahead, Crossing noise sender receiver past ahead link) ?_
  · rintro link rfl
    exact ⟨[], [], .start⟩
  · rintro link call link' - ⟨past, ahead, h⟩ htake
    exact h.take hnoise htake

/-- Bytes cross the encrypted stream unchanged: however the inner transport answers and however
bytes are read, what is read is a prefix of what was reported written, in frames of no more than
65535 bytes each; and once a flush has been completed and a read finds nothing more, with nothing
left on the wire, it is all of it. -/
theorem crosses {noise : Noise τ} {sender receiver : τ}
    (hnoise : InOrder noise sender receiver) {link : Link τ}
    (hreach : (system noise sender receiver).Reachable link) :
    link.read <+: link.written ∧
      (∃ messages : List (List UInt8), (∀ message ∈ messages, message.length ≤ 65535) ∧
        link.carried <+: frames messages) ∧
      ∀ (room : Nat) (answers : List Gives), link.flushed = true →
        (link.reader.pollRead noise link.wire room answers).poll = .pending →
        (link.reader.pollRead noise link.wire room answers).wire = [] →
        link.read = link.written := by
  obtain ⟨past, ahead, h⟩ := crossing_of_reachable hnoise hreach
  refine ⟨h.read_prefix, h.carried_frames, fun room answers hflushed hpending hwire => ?_⟩
  have hreads := pollRead_reads hnoise h.encrypted h.sizes rfl h.receiving room answers
  obtain ⟨past', ahead', -, hafter⟩ := h.reads hreads
  obtain ⟨-, -, -, -, hidle⟩ := hreads
  have hall := hafter.read_all hflushed hwire (hidle hpending)
  rw [hpending] at hall
  simpa [Poll.bytes] using hall

/-- A transport that puts a tag of zeros after each plaintext, and takes it off again. -/
def tagged : Noise Unit where
  encrypt := fun _ plain => .ok (plain ++ List.replicate tagLen 0, ())
  decrypt := fun _ cipher => .ok (cipher.take (cipher.length - tagLen), ())

/-- What is tagged is read back, message by message. -/
theorem tagged_inOrder : InOrder tagged () () where
  opens := by
    intro plains
    induction plains with
    | nil =>
        rintro ciphers t ⟨⟩
        exact ⟨(), rfl⟩
    | cons plain rest ih =>
        intro ciphers t hok
        obtain ⟨cipher, next, others, hturn, hrest, rfl⟩ := through_cons_eq_ok.mp hok
        obtain ⟨t', hopened⟩ := ih others t hrest
        obtain ⟨rfl, -⟩ := Prod.mk.inj (Except.ok.inj hturn)
        refine ⟨t', through_cons_eq_ok.mpr ⟨plain, (), rest, ?_, hopened, rfl⟩⟩
        simp [tagged]
  size := by
    rintro t plain cipher t' ⟨⟩
    simp

/-- A link three bytes were written to and flushed: none of them has been read. -/
def threeSent : Link Unit :=
  { Link.start () () with
    wire := [0, 19, 7, 8, 9] ++ List.replicate 16 0
    carried := [0, 19, 7, 8, 9] ++ List.replicate 16 0
    written := [7, 8, 9]
    flushed := true }

/-- The inner transport takes five bytes of a write, stays pending, and takes the rest of them
when they are flushed. -/
theorem run_threeSent :
    System.run (Link.take tagged) (.start () ())
      [.write [7, 8, 9] [.upTo 5, .pending], .flush [.upTo 100] (.ready (.ok ()))] =
        some threeSent := by
  rfl

/-- Three bytes read from across two chunks are the three written. -/
theorem crosses_three :
    ∃ link, (system tagged () ()).Reachable link ∧ link.written = [7, 8, 9] ∧
      link.read = link.written := by
  have hread : threeSent.take tagged (.read 8 [.upTo 4, .upTo 30]) =
      some { threeSent with wire := [], read := [7, 8, 9] } := by
    simp [Link.take, Link.start, threeSent, NoiseStream.pollRead, NoiseStream.new,
      Reassembler.new, Reassembler.push, Reassembler.take, transportPrefix, decodePrefix,
      BigEndian.value, tagged, readChunk, tagLen, Poll.bytes]
  have hsent := System.Reachable.of_run (M := system tagged () ()) (.start rfl)
    (fun _ _ _ _ htake => htake) run_threeSent
  have hreach := System.Reachable.next hsent hread
  refine ⟨_, hreach, rfl, (crosses tagged_inOrder hreach).2.2 8 [] rfl ?_ ?_⟩
  · simp [Link.start, threeSent, NoiseStream.pollRead, NoiseStream.new, Reassembler.new,
      Reassembler.take, transportPrefix]
  · simp [Link.start, threeSent, NoiseStream.pollRead, NoiseStream.new, Reassembler.new,
      Reassembler.take, transportPrefix]

end Bliti.Channel.Stream
