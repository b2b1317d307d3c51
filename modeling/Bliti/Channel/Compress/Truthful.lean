import Bliti.Channel.Compress.Reading
import Bliti.Channel.Compress.Writing

/-!
# The compression layer - the end of a stream

Whoever drives the connection writes, flushes, closes and reads in any order, over an inner
transport that takes and gives what it will and ends where it will.

Main results:

- Theorem `tells_truly`: what a reader is told, in every run.
-/

namespace Bliti.Channel.Compress

open Framing Bliti.Channel.Stream Transition

variable {κ δ : Type}

/-! ## The runs -/

/-- A stream with what is coming to it, all that the inner transport took of it and all that was
read of it; whether anything was written since the last flush that did not fail, and whether a
flush has been completed with nothing written or closed since. -/
structure Connection (κ δ : Type) where
  stream : CompressStream κ δ
  wire : Wire
  carried : List UInt8
  read : List UInt8
  written : Bool
  flushed : Bool

namespace Connection

/-- A fresh stream, with what the other end sends. -/
def start (compressor : Compressor κ) (decompressor : Decompressor δ) (sent : List UInt8) :
    Connection κ δ where
  stream := .new compressor decompressor
  wire := { coming := sent, ended := false }
  carried := []
  read := []
  written := false
  flushed := false

/-- All that was written so far of the stream that goes. -/
def produced (c : Connection κ δ) : List UInt8 :=
  c.stream.produced c.carried

/-- Take a call. -/
def take (compressor : Compressor κ) (decompressor : Decompressor δ) (c : Connection κ δ) :
    Call → Connection κ δ
  | .write buf answers =>
      let sent := c.stream.pollWrite compressor buf answers
      { c with
        stream := sent.stream
        carried := c.carried ++ sent.taken
        written := c.written || wroteSome sent.poll
        flushed := c.flushed && !wroteSome sent.poll }
  | .flush answers inner =>
      let sent := c.stream.pollFlush compressor answers inner
      { c with
        stream := sent.stream
        carried := c.carried ++ sent.taken
        written := c.written && sent.poll.failed
        flushed := c.flushed || sent.poll.done }
  | .close answers inner =>
      let sent := c.stream.pollClose compressor answers inner
      { c with
        stream := sent.stream
        carried := c.carried ++ sent.taken
        flushed := false }
  | .read room answers =>
      let received := c.stream.pollRead decompressor c.wire room answers
      { c with
        stream := received.stream
        wire := received.wire
        read := c.read ++ received.poll.bytes }

end Connection

/-- The system of a connection. -/
def system (compressor : Compressor κ) (decompressor : Decompressor δ) (sent : List UInt8) :
    System (Connection κ δ) Call where
  init := (· = .start compressor decompressor sent)
  step := fun c call after => after = c.take compressor decompressor call

section

variable {compressor : Compressor κ} {decompressor : Decompressor δ}
  {content : List UInt8 → List UInt8} {whole : List UInt8 → Prop}
  {Wrote : κ → List UInt8 → Prop} {Stands : δ → List UInt8 → List UInt8 → Prop}
  {Failed : δ → Prop}

/-! ## What holds in every run -/

/-- What holds of a connection in every run: both directions stand, a stream that is finished is
not dirty, one that is dirty was written to, and nothing waits where it was flushed. -/
structure Holding (content : List UInt8 → List UInt8) (whole : List UInt8 → Prop)
    (Wrote : κ → List UInt8 → Prop) (Stands : δ → List UInt8 → List UInt8 → Prop)
    (Failed : δ → Prop) (sent : List UInt8) (c : Connection κ δ) : Prop where
  deflating : Deflating whole Wrote c.stream c.carried
  standing : Standing content whole Stands Failed sent c.stream c.wire c.read
  clean : c.stream.finished = true → c.stream.dirty = false
  dirty : c.stream.dirty = true → c.written = true
  flushed : c.flushed = true → c.stream.out.waiting = [] ∧ c.stream.dirty = false

/-- A fresh connection holds. -/
theorem Holding.start (hinflate : decompressor.Faithful content whole Stands Failed)
    (hdeflate : compressor.Faithful whole Wrote) (sent : List UInt8) :
    Holding content whole Wrote Stands Failed sent (.start compressor decompressor sent) where
  deflating := ⟨Nat.le_refl 0, hdeflate.fresh, iff_of_false hdeflate.begins Bool.false_ne_true⟩
  standing := .inflating [] ⟨hinflate.fresh, rfl, Nat.le_refl 0, nofun, rfl⟩
  clean := fun _ => rfl
  dirty := nofun
  flushed := nofun

/-- The reading stands as it did where a call leaves it alone. -/
theorem Deflates.standing {s after : CompressStream κ δ} {carried taken sent read : List UInt8}
    {wire : Wire} (h : Deflates whole Wrote s carried after taken)
    (hstanding : Standing content whole Stands Failed sent s wire read) :
    Standing content whole Stands Failed sent after wire read := by
  rw [h.reading]
  cases hstanding with
  | inflating taken hinflating =>
      exact .inflating taken ⟨hinflating.stands, hinflating.bytes, hinflating.fits,
        hinflating.ended, hinflating.eof⟩
  | failed hopen hfailed hread => exact .failed hopen hfailed hread

/-- Every call keeps what holds. -/
theorem Holding.take (hinflate : decompressor.Faithful content whole Stands Failed)
    (hdeflate : compressor.Faithful whole Wrote) {sent : List UInt8} {c : Connection κ δ}
    (h : Holding content whole Wrote Stands Failed sent c) (call : Call) :
    Holding content whole Wrote Stands Failed sent (c.take compressor decompressor call) := by
  cases call with
  | write buf answers =>
      have hwrites := pollWrite_deflates hdeflate h.deflating buf answers
      obtain ⟨hfinished, hdirty, hclosed⟩ :=
        pollWrite_dirty hdeflate h.deflating buf answers
      refine ⟨hwrites.deflating, hwrites.standing h.standing, fun hended => ?_, fun hstill => ?_,
        fun hflushed => ?_⟩
      · have hended := hfinished.symm.trans hended
        exact (hclosed hended).trans (h.clean hended)
      · rcases hdirty hstill with hbefore | hsome
        · exact Bool.or_eq_true_iff.mpr (.inl (h.dirty hbefore))
        · exact Bool.or_eq_true_iff.mpr (.inr hsome)
      · obtain ⟨hbefore, hnothing⟩ := Bool.and_eq_true_iff.mp hflushed
        obtain ⟨hwaits, hquiet⟩ := h.flushed hbefore
        obtain ⟨hsame, hempty⟩ := pollWrite_nothing ((Bool.not_eq_true' _).mp hnothing)
        exact ⟨hempty hwaits, hsame.trans hquiet⟩
  | flush answers inner =>
      have hflushes := pollFlush_deflates hdeflate h.deflating answers inner
      obtain ⟨hfinished, hdirty, hdone⟩ :=
        pollFlush_dirty hdeflate h.deflating h.clean answers inner
      have hclean (hbefore : c.stream.dirty = false) :
          (c.stream.pollFlush compressor answers inner).stream.dirty = false := by
        cases hstill : (c.stream.pollFlush compressor answers inner).stream.dirty with
        | false => rfl
        | true =>
            rw [(hdirty hstill).1] at hbefore
            cases hbefore
      refine ⟨hflushes.deflating, hflushes.standing h.standing, fun hended => ?_,
        fun hstill => ?_, fun hflushed => ?_⟩
      · exact hclean (h.clean (hfinished.symm.trans hended))
      · obtain ⟨hbefore, hfailed⟩ := hdirty hstill
        exact Bool.and_eq_true_iff.mpr ⟨h.dirty hbefore, hfailed⟩
      · rcases Bool.or_eq_true_iff.mp hflushed with hbefore | hnow
        · obtain ⟨hnone, hquiet⟩ := h.flushed hbefore
          refine ⟨?_, hclean hquiet⟩
          have hsilent := (drainThen_silent answers inner hnone).2
          rwa [← pollFlush_clean compressor answers inner hquiet] at hsilent
        · refine ⟨hdone hnow, Bool.eq_false_iff.mpr fun hstill => ?_⟩
          exact Poll.not_failed_of_done hnow (hdirty hstill).2
  | close answers inner =>
      have hcloses := pollClose_deflates hdeflate h.deflating answers inner
      obtain ⟨hclean, hdirty, -⟩ :=
        pollClose_dirty hdeflate h.deflating h.clean answers inner
      exact ⟨hcloses.deflating, hcloses.standing h.standing, hclean,
        fun hstill => h.dirty (hdirty hstill), nofun⟩
  | read room answers =>
      have hsame := pollRead_sameWriting decompressor c.stream c.wire room answers
      refine ⟨h.deflating.read hsame, ?_, ?_, ?_, ?_⟩
      · by_cases hroom : room = 0
        · have hnothing : c.stream.pollRead decompressor c.wire room answers =
              { poll := .ready (.ok []), stream := c.stream, wire := c.wire } := by
            rw [CompressStream.pollRead, if_pos hroom]
          simp only [Connection.take, hnothing, Poll.bytes, List.append_nil]
          exact h.standing
        · exact (pollRead_reads hinflate h.standing hroom answers).standing
            (h.standing.read_prefix hinflate)
      · simp only [Connection.take, hsame.finished, hsame.dirty]
        exact h.clean
      · simp only [Connection.take, hsame.dirty]
        exact h.dirty
      · simp only [Connection.take, hsame.out, hsame.dirty]
        exact h.flushed

/-- What holds holds in every run. -/
theorem holding_of_reachable (hinflate : decompressor.Faithful content whole Stands Failed)
    (hdeflate : compressor.Faithful whole Wrote) {sent : List UInt8} {c : Connection κ δ}
    (hreach : (system compressor decompressor sent).Reachable c) :
    Holding content whole Wrote Stands Failed sent c := by
  refine hreach.invariant (fun c hstart => ?_) fun c call after _ h hstep => ?_
  · rw [hstart]
    exact .start hinflate hdeflate sent
  · rw [hstep]
    exact h.take hinflate hdeflate call

/-! ## The end of the stream that is coming -/

/-- The bytes of the other end that the inflate context has taken, as it counts them. -/
def Received.taken (decompressor : Decompressor δ) (sent : List UInt8)
    (received : Received κ δ) : List UInt8 :=
  sent.take (decompressor.totalIn received.stream.decompress)

/-- What reads into a buffer with room say of the end of the stream that is coming. -/
structure TellsEnd (compressor : Compressor κ) (decompressor : Decompressor δ)
    (content : List UInt8 → List UInt8) (whole : List UInt8 → Prop) (sent : List UInt8)
    (c : Connection κ δ) : Prop where
  /-- Nothing is read only where the zlib stream has ended with all of its content read, or the
  transport ended before anything of it was taken. -/
  zero : ∀ room answers, room ≠ 0 →
    let received := c.stream.pollRead decompressor c.wire room answers
    received.poll = .ready (.ok []) →
      (whole (received.taken decompressor sent) ∧
        c.read = content (received.taken decompressor sent)) ∨
      (received.wire.ended = true ∧ received.taken decompressor sent = [])
  /-- A transport that ended anywhere else gives an error, once there are no bytes to give: that
  it ended, or that the inflate context refuses what came. -/
  cut : ∀ room answers, room ≠ 0 →
    let received := c.stream.pollRead decompressor c.wire room answers
    received.wire.ended = true → ¬ whole (received.taken decompressor sent) →
      received.taken decompressor sent ≠ [] →
      (∃ bytes, bytes ≠ [] ∧ received.poll = .ready (.ok bytes)) ∨
        ∃ error, received.poll = .ready (.error error) ∧
          (error.kind = .unexpectedEof ∨ error.kind = .invalidData)
  /-- Where the end of the transport is an error, all that came was taken, and all that can be
  decoded of it was read. -/
  delivered : ∀ room answers error, room ≠ 0 →
    let received := c.stream.pollRead decompressor c.wire room answers
    received.wire.ended = true → received.poll = .ready (.error error) →
      error.kind = .unexpectedEof →
        ¬ whole (received.taken decompressor sent) ∧
        sent = received.taken decompressor sent ++ received.wire.coming ∧
        c.read = content (received.taken decompressor sent)
  /-- What is read is the beginning of the content of what is sent. -/
  begins : c.read <+: content sent
  /-- Once nothing is read for the end of the stream, nothing is read ever after. -/
  stays : ∀ room answers, room ≠ 0 →
    let received := c.stream.pollRead decompressor c.wire room answers
    received.poll = .ready (.ok []) → whole (received.taken decompressor sent) →
      ∀ later, ((system compressor decompressor sent).since
          (c.take compressor decompressor (.read room answers))).Reachable later →
        ∀ room answers,
          (later.stream.pollRead decompressor later.wire room answers).poll = .ready (.ok [])

/-- The bytes taken are those the inflate context took. -/
theorem Inflating.taken_eq (hlaws : decompressor.Faithful content whole Stands Failed)
    {sent taken read : List UInt8} {received : Received κ δ}
    (h : Inflating content whole Stands sent received.stream received.wire taken read) :
    received.taken decompressor sent = taken := by
  rw [Received.taken, (hlaws.totals _ _ _ h.stands).1, h.bytes, List.append_assoc,
    List.take_left]

/-- A read after the end of the stream finds nothing. -/
theorem pollRead_ended {s : CompressStream κ δ} (hended : s.streamEnd = true) (wire : Wire)
    (room : Nat) (answers : List Gives) :
    s.pollRead decompressor wire room answers =
      { poll := .ready (.ok []), stream := s, wire := wire } := by
  rw [CompressStream.pollRead]
  split
  · rfl
  · rw [CompressStream.readLoop, if_pos hended]

/-- The end of the stream stays the end, whatever is called. -/
theorem Holding.ended_take (hdeflate : compressor.Faithful whole Wrote) {sent : List UInt8}
    {c : Connection κ δ} (h : Holding content whole Wrote Stands Failed sent c)
    (hended : c.stream.streamEnd = true) (call : Call) :
    (c.take compressor decompressor call).stream.streamEnd = true := by
  cases call with
  | write buf answers =>
      have hreading := (pollWrite_deflates hdeflate h.deflating buf answers).reading
      exact (congrArg CompressStream.streamEnd hreading).trans hended
  | flush answers inner =>
      have hreading := (pollFlush_deflates hdeflate h.deflating answers inner).reading
      exact (congrArg CompressStream.streamEnd hreading).trans hended
  | close answers inner =>
      have hreading := (pollClose_deflates hdeflate h.deflating answers inner).reading
      exact (congrArg CompressStream.streamEnd hreading).trans hended
  | read room answers =>
      simp only [Connection.take, pollRead_ended hended]
      exact hended

/-- A read that finds nothing has come to the end of the stream, or of a transport of nothing. -/
theorem Reads.of_nothing {sent read : List UInt8} {received : Received κ δ}
    (h : Reads decompressor content whole Stands Failed sent read received)
    (hnone : received.poll = .ready (.ok [])) :
    (∃ taken, received.stream.streamEnd = true ∧
        Inflating content whole Stands sent received.stream received.wire taken read) ∨
      received.wire.ended = true ∧
        Inflating content whole Stands sent received.stream received.wire [] read := by
  cases h with
  | bytes given taken hpoll hsome hafter =>
      rw [hnone] at hpoll
      cases hpoll
      exact absurd rfl hsome
  | ended taken hpoll hend hafter => exact .inl ⟨taken, hend, hafter⟩
  | nothing hpoll hgone hafter => exact .inr ⟨hgone, hafter⟩
  | cut taken error hpoll =>
      rw [hnone] at hpoll
      cases hpoll
  | refused error hpoll =>
      rw [hnone] at hpoll
      cases hpoll
  | waits taken hpoll =>
      rw [hnone] at hpoll
      rcases hpoll with hpoll | ⟨error, hpoll⟩
      · cases hpoll
      · cases hpoll

/-- Reads tell the end of the stream truly. -/
theorem Holding.tellsEnd (hinflate : decompressor.Faithful content whole Stands Failed)
    (hdeflate : compressor.Faithful whole Wrote) {sent : List UInt8} {c : Connection κ δ}
    (h : Holding content whole Wrote Stands Failed sent c) :
    TellsEnd compressor decompressor content whole sent c := by
  have hreads {room : Nat} (hroom : room ≠ 0) (answers : List Gives) :=
    pollRead_reads hinflate h.standing hroom answers
  refine ⟨fun room answers hroom hnone => ?_, fun room answers hroom hgone hshort htaken => ?_,
    fun room answers error hroom hgone herror hkind => ?_, h.standing.read_prefix hinflate,
    fun room answers hroom hnone hwhole later hlater room' answers' => ?_⟩
  · rcases (hreads hroom answers).of_nothing hnone with ⟨taken, hend, hafter⟩ | ⟨hgone, hafter⟩
    · rw [hafter.taken_eq hinflate]
      exact .inl (hafter.ended hend)
    · exact .inr ⟨hgone, hafter.taken_eq hinflate⟩
  · cases hreads hroom answers with
    | bytes given taken hpoll hsome hafter => exact .inl ⟨given, hsome, hpoll⟩
    | ended taken hpoll hend hafter =>
        rw [hafter.taken_eq hinflate] at hshort
        exact absurd (hafter.ended hend).1 hshort
    | nothing hpoll hended hafter => exact absurd (hafter.taken_eq hinflate) htaken
    | cut taken error hpoll hkind => exact .inr ⟨error, hpoll, .inl hkind⟩
    | refused error hpoll hkind => exact .inr ⟨error, hpoll, .inr hkind⟩
    | waits taken hpoll hthere =>
        rw [hgone] at hthere
        cases hthere
  · cases hreads hroom answers with
    | bytes given taken hpoll =>
        rw [herror] at hpoll
        cases hpoll
    | ended taken hpoll =>
        rw [herror] at hpoll
        cases hpoll
    | nothing hpoll =>
        rw [herror] at hpoll
        cases hpoll
    | cut taken other hpoll hother hended htaken hshort hall hunread hafter =>
        have hbytes := hafter.bytes
        rw [hunread, List.append_nil] at hbytes
        rw [hafter.taken_eq hinflate]
        exact ⟨hshort, hbytes, hall⟩
    | refused other hpoll hother =>
        rw [herror] at hpoll
        cases hpoll
        rw [hkind] at hother
        cases hother
    | waits taken hpoll hthere =>
        rw [hgone] at hthere
        cases hthere
  · have hend : (c.take compressor decompressor (.read room answers)).stream.streamEnd = true := by
      rcases (hreads hroom answers).of_nothing hnone with ⟨taken, hend, -⟩ | ⟨-, hafter⟩
      · exact hend
      · rw [hafter.taken_eq hinflate] at hwhole
        exact absurd hwhole hinflate.begins
    have hboth : Holding content whole Wrote Stands Failed sent later ∧
        later.stream.streamEnd = true := by
      refine hlater.invariant (?_ : ∀ c', c' = c.take compressor decompressor (.read room answers) →
          Holding content whole Wrote Stands Failed sent c' ∧ c'.stream.streamEnd = true)
        fun c' call after _ hheld hstep => ?_
      · intro c' hstart
        rw [hstart]
        exact ⟨h.take hinflate hdeflate _, hend⟩
      · rw [hstep]
        exact ⟨hheld.1.take hinflate hdeflate call, hheld.1.ended_take hdeflate hheld.2 call⟩
    rw [pollRead_ended hboth.2]

/-! ## The end of the stream that goes -/

/-- What writes, flushes and closes do of the end of the stream that goes. -/
structure EmitsEnd (compressor : Compressor κ) (decompressor : Decompressor δ)
    (whole : List UInt8 → Prop) (sent : List UInt8) (c : Connection κ δ) : Prop where
  /-- A flush with nothing written since the last brings no bytes out of the deflate context. -/
  idle : c.written = false → ∀ answers inner,
    (c.take compressor decompressor (.flush answers inner)).produced = c.produced
  /-- A flush with nothing written or closed since one that was done puts no bytes out. -/
  silent : c.flushed = true → ∀ answers inner,
    (c.stream.pollFlush compressor answers inner).taken = []
  /-- A close ends the stream, unless the deflate context refuses a call. -/
  closes : ∀ answers inner,
    whole (c.take compressor decompressor (.close answers inner)).produced ∨
      ∃ error, (c.stream.flushCompress compressor .finish).1 = .error error
  /-- Nothing but a close ends the stream. -/
  only : ∀ call, ¬ whole c.produced → whole (c.take compressor decompressor call).produced →
    ∃ answers inner, call = .close answers inner
  /-- A stream that has ended goes on with nothing, whatever is called. -/
  once : whole c.produced →
    ∀ later, ((system compressor decompressor sent).since c).Reachable later →
      later.produced = c.produced
  /-- A close that is done has put the stream out to its end. -/
  done : ∀ answers inner, (c.stream.pollClose compressor answers inner).poll = .ready (.ok ()) →
    whole (c.take compressor decompressor (.close answers inner)).carried

/-- A call keeps what a finished stream has written. -/
theorem Holding.once_take (hdeflate : compressor.Faithful whole Wrote) {sent : List UInt8}
    {c : Connection κ δ} (h : Holding content whole Wrote Stands Failed sent c)
    (hfinished : c.stream.finished = true) (call : Call) :
    (c.take compressor decompressor call).produced = c.produced ∧
      (c.take compressor decompressor call).stream.finished = true := by
  cases call with
  | write buf answers =>
      exact (pollWrite_deflates hdeflate h.deflating buf answers).closed hfinished
  | flush answers inner =>
      exact (pollFlush_deflates hdeflate h.deflating answers inner).closed hfinished
  | close answers inner =>
      exact (pollClose_deflates hdeflate h.deflating answers inner).closed hfinished
  | read room answers =>
      have hsame := pollRead_sameWriting decompressor c.stream c.wire room answers
      refine ⟨?_, hsame.finished.trans hfinished⟩
      exact congrArg (c.carried ++ ·.waiting) hsame.out

/-- Only a close finishes a stream. -/
theorem Holding.only_take (hdeflate : compressor.Faithful whole Wrote) {sent : List UInt8}
    {c : Connection κ δ} (h : Holding content whole Wrote Stands Failed sent c) {call : Call}
    (hopen : c.stream.finished = false)
    (hfinished : (c.take compressor decompressor call).stream.finished = true) :
    ∃ answers inner, call = .close answers inner := by
  cases call with
  | write buf answers =>
      have hsame := (pollWrite_dirty hdeflate h.deflating buf answers).1
      exact absurd (hopen.symm.trans (hsame.symm.trans hfinished)) Bool.false_ne_true
  | flush answers inner =>
      have hsame := (pollFlush_dirty hdeflate h.deflating h.clean answers inner).1
      exact absurd (hopen.symm.trans (hsame.symm.trans hfinished)) Bool.false_ne_true
  | close answers inner => exact ⟨answers, inner, rfl⟩
  | read room answers =>
      have hsame := (pollRead_sameWriting decompressor c.stream c.wire room answers).finished
      exact absurd (hopen.symm.trans (hsame.symm.trans hfinished)) Bool.false_ne_true

/-- Writes, flushes and closes bring the end of the stream out once. -/
theorem Holding.emitsEnd (hinflate : decompressor.Faithful content whole Stands Failed)
    (hdeflate : compressor.Faithful whole Wrote) {sent : List UInt8} {c : Connection κ δ}
    (h : Holding content whole Wrote Stands Failed sent c) :
    EmitsEnd compressor decompressor whole sent c where
  idle := fun hquiet answers inner => by
    have hclean : c.stream.dirty = false := by
      cases hdirty : c.stream.dirty with
      | false => rfl
      | true =>
          rw [h.dirty hdirty] at hquiet
          cases hquiet
    have hflush := pollFlush_clean compressor answers inner hclean
    simp only [Connection.take, Connection.produced, hflush]
    exact produced_drain c.stream c.carried answers
  silent := fun hflushed answers inner => by
    obtain ⟨hnone, hclean⟩ := h.flushed hflushed
    rw [pollFlush_clean compressor answers inner hclean]
    exact (drainThen_silent answers inner hnone).1
  closes := fun answers inner => by
    have hafter := (pollClose_deflates hdeflate h.deflating answers inner).deflating
    rcases pollClose_finishes hdeflate h.deflating answers inner with hfinished | hrefused
    · exact .inl (hafter.ends.mpr hfinished)
    · exact .inr hrefused
  only := fun call hshort hwhole => by
    have hopen : c.stream.finished = false :=
      Bool.eq_false_iff.mpr fun hfinished => hshort (h.deflating.ends.mpr hfinished)
    have hafter := (h.take hinflate hdeflate call).deflating.ends.mp hwhole
    exact h.only_take hdeflate hopen hafter
  once := fun hwhole later hlater => by
    have hall : Holding content whole Wrote Stands Failed sent later ∧
        later.stream.finished = true ∧ later.produced = c.produced := by
      refine hlater.invariant (?_ : ∀ c', c' = c →
          Holding content whole Wrote Stands Failed sent c' ∧
            c'.stream.finished = true ∧ c'.produced = c.produced)
        fun c' call after _ hheld hstep => ?_
      · intro c' hstart
        rw [hstart]
        exact ⟨h, h.deflating.ends.mp hwhole, rfl⟩
      · rw [hstep]
        obtain ⟨hheld, hfinished, hsame⟩ := hheld
        obtain ⟨hproduced, hafter⟩ := hheld.once_take hdeflate hfinished call
        exact ⟨hheld.take hinflate hdeflate call, hafter, hproduced.trans hsame⟩
    exact hall.2.2
  done := fun answers inner hready => by
    have hafter := (pollClose_deflates hdeflate h.deflating answers inner).deflating
    obtain ⟨hfinished, hnone⟩ :=
      (pollClose_dirty hdeflate h.deflating h.clean answers inner).2.2 (by rw [hready]; rfl)
    have hwhole := hafter.ends.mpr hfinished
    rwa [CompressStream.produced, hnone, List.append_nil] at hwhole

/-- The end of a stream is told truly: in every run of writes, flushes, closes and reads over a
transport that takes, gives and ends as it will, reads tell the end of the stream that is coming
as it is, and the end of the stream that goes is brought out by a close, once. -/
theorem tells_truly (hinflate : decompressor.Faithful content whole Stands Failed)
    (hdeflate : compressor.Faithful whole Wrote) {sent : List UInt8} {c : Connection κ δ}
    (hreach : (system compressor decompressor sent).Reachable c) :
    TellsEnd compressor decompressor content whole sent c ∧
      EmitsEnd compressor decompressor whole sent c := by
  have h := holding_of_reachable hinflate hdeflate hreach
  exact ⟨h.tellsEnd hinflate hdeflate, h.emitsEnd hinflate hdeflate⟩

end

/-! ## The stream of nothing -/

/-- The zlib stream of no bytes. -/
def emptyStream : List UInt8 :=
  [0x78, 0x9c, 0x03, 0x00, 0x00, 0x00, 0x00, 0x01]

/-- An inflate context for the stream of no bytes, by how much it has taken of it. -/
def emptyInflate : Decompressor (Option Nat) where
  new := some 0
  totalIn := fun context => context.getD 0
  totalOut := fun _ => 0
  decompress := fun context input room =>
    match context with
    | none =>
        { context := none
          buffer := List.replicate room 0
          status := .error "deflate decompression error" }
    | some n =>
        let took := input.take (emptyStream.length - n)
        if took = (emptyStream.drop n).take took.length then
          { context := some (n + took.length)
            buffer := List.replicate room 0
            status := .ok (if n + took.length = emptyStream.length then .streamEnd else .ok) }
        else
          { context := none
            buffer := List.replicate room 0
            status := .error "deflate decompression error" }
  took_le := fun context input room => by
    cases context with
    | none => exact Nat.zero_le _
    | some n =>
        simp only
        split
        · exact Nat.add_le_add_left (List.length_take_le' _ _) n
        · exact Nat.zero_le _

/-- A deflate context that is given nothing, by whether it has finished its stream. -/
def emptyDeflate : Compressor Bool where
  new := false
  totalIn := fun _ => 0
  totalOut := fun finished => if finished then emptyStream.length else 0
  compress := fun finished _ _ flush =>
    if finished then { context := true, buffer := [], status := .ok .streamEnd }
    else if flush = .finish then
      { context := true, buffer := emptyStream, status := .ok .streamEnd }
    else { context := false, buffer := [], status := .ok .bufError }
  held := fun _ => 0
  took_le := fun _ _ _ _ => Nat.zero_le _
  held_lt := fun finished input flush => by
    cases finished <;> cases flush <;> simp [chunk, emptyStream]

/-- What a deflate context that is given nothing has written: the stream of nothing, or nothing
of it. -/
def EmptyWrote (finished : Bool) (written : List UInt8) : Prop :=
  written = if finished then emptyStream else []

/-- A deflate context that has not written its stream is fresh. -/
theorem EmptyWrote.fresh {finished : Bool} {written : List UInt8}
    (hwrote : EmptyWrote finished written) (hshort : ¬ written = emptyStream) :
    finished = false ∧ written = [] := by
  cases finished with
  | false => exact ⟨rfl, hwrote⟩
  | true => exact absurd hwrote hshort

/-- The deflate context that is given nothing writes the stream of nothing. -/
theorem emptyDeflate_faithful : emptyDeflate.Faithful (· = emptyStream) EmptyWrote where
  fresh := rfl
  begins := by decide
  goesOn := fun finished written input flush status hwrote hshort => by
    obtain ⟨rfl, rfl⟩ := hwrote.fresh hshort
    intro called hok
    cases flush <;> exact rfl
  tellsEnd := fun finished written input flush status hwrote hshort => by
    obtain ⟨rfl, rfl⟩ := hwrote.fresh hshort
    intro called hok
    cases flush with
    | finish =>
        cases hok
        exact iff_of_true rfl rfl
    | _ =>
        cases hok
        exact iff_of_false nofun fun hwhole => nomatch (hwhole : [] = emptyStream)
  ends := fun finished written input flush hwrote hshort hend => by
    obtain ⟨rfl, rfl⟩ := hwrote.fresh hshort
    cases flush with
    | finish => rfl
    | _ => cases hend
  finishes := fun finished written status hwrote hshort => by
    obtain ⟨rfl, rfl⟩ := hwrote.fresh hshort
    intro called hok hstill
    cases hok
    exact absurd rfl hstill
  refuses := fun finished written input flush error hwrote hshort hrefused => by
    obtain ⟨rfl, rfl⟩ := hwrote.fresh hshort
    cases flush <;> cases hrefused

/-- Where an inflate context for the stream of nothing stands. -/
def EmptyStands (context : Option Nat) (taken given : List UInt8) : Prop :=
  context = some taken.length ∧ taken <+: emptyStream ∧ given = []

/-- A call that the inflate context for the stream of nothing takes goes on along it. -/
theorem emptyInflate_ok {taken given input : List UInt8} {context : Option Nat} {room : Nat}
    {status : Status} (hstands : EmptyStands context taken given)
    (hok : (emptyInflate.decompress context input room).status = .ok status) :
    let called := emptyInflate.decompress context input room
    emptyInflate.gave context called = [] ∧
      EmptyStands called.context (taken ++ input.take (emptyInflate.read context called)) [] ∧
      emptyInflate.read context called =
        (input.take (emptyStream.length - taken.length)).length ∧
      status =
        if (taken ++ input.take (emptyInflate.read context called)).length = emptyStream.length
        then .streamEnd else .ok := by
  obtain ⟨rfl, hbegins, -⟩ := hstands
  have hfits := hbegins.length_le
  generalize htook : input.take (emptyStream.length - taken.length) = took
  have hlength : took.length ≤ emptyStream.length - taken.length := by
    rw [← htook]
    exact List.length_take_le _ _
  have hinput : input.take took.length = took := by
    rw [← htook, List.length_take, List.take_eq_take_iff]
    omega
  intro called
  by_cases hgoes : took = (emptyStream.drop taken.length).take took.length
  · have hcalled : called = {
        context := some (taken.length + took.length)
        buffer := List.replicate room 0
        status := .ok (if taken.length + took.length = emptyStream.length then .streamEnd
          else .ok) } := by
      simp only [called, emptyInflate, htook, if_pos hgoes]
    have hread : emptyInflate.read (some taken.length) called = took.length := by
      rw [hcalled]
      exact Nat.add_sub_cancel_left _ _
    have hwhole : taken ++ took <+: emptyStream := by
      rw [List.prefix_iff_eq_take, List.length_append, List.take_add,
        ← List.prefix_iff_eq_take.mp hbegins, ← hgoes]
    rw [hread, hinput]
    refine ⟨?_, ⟨?_, hwhole, rfl⟩, rfl, ?_⟩
    · rw [hcalled]
      exact List.take_zero
    · rw [hcalled, List.length_append]
    · have hstatus : called.status = .ok status := hok
      rw [hcalled] at hstatus
      cases hstatus
      rw [List.length_append]
  · have hstatus : called.status = .ok status := hok
    simp only [called, emptyInflate, htook, if_neg hgoes] at hstatus
    cases hstatus

/-- The inflate context for the stream of nothing reads it. -/
theorem emptyInflate_faithful :
    emptyInflate.Faithful (fun _ => []) (· = emptyStream) EmptyStands (· = none) where
  fresh := ⟨rfl, List.nil_prefix, rfl⟩
  totals := fun context taken given hstands => by
    obtain ⟨rfl, -, rfl⟩ := hstands
    exact ⟨rfl, rfl⟩
  goesOn := by
    intro context taken given input room status hstands called hok
    obtain ⟨hgave, hafter, -, -⟩ := emptyInflate_ok hstands hok
    rw [hstands.2.2, hgave]
    exact hafter
  tellsEnd := by
    intro context taken given input room status hstands called hok
    obtain ⟨hgave, ⟨-, hbegins, -⟩, -, hstatus⟩ := emptyInflate_ok hstands hok
    rw [hstands.2.2, hgave, hstatus]
    constructor
    · intro hend
      split at hend
      · rename_i hlength
        exact ⟨hbegins.eq_of_length hlength, rfl⟩
      · cases hend
    · intro hwhole
      rw [if_pos (congrArg List.length hwhole.1)]
  idle := by
    intro context taken given input room status hstands hroom called hok hshort hread hgave
    obtain ⟨-, hafter, hcount, hstatus⟩ := emptyInflate_ok hstands hok
    refine ⟨?_, hstands.2.2⟩
    rw [hread, List.take_zero, List.append_nil] at hstatus
    have hpart : ¬ taken.length = emptyStream.length := by
      intro hall
      rw [if_pos hall] at hstatus
      exact hshort hstatus
    have hfits := hstands.2.1.length_le
    have hnone := hcount.symm.trans hread
    rw [List.length_take] at hnone
    exact List.eq_nil_of_length_eq_zero (by omega)
  gives := fun context taken given hstands => by
    rw [hstands.2.2]
  inflates := fun taken rest => List.prefix_refl _
  begins := by decide
  fails := by
    intro context taken given input room error hstands herror
    obtain ⟨rfl, -, -⟩ := hstands
    simp only [emptyInflate] at herror ⊢
    split at herror
    · cases herror
    · rename_i hother
      rw [if_neg hother]
  failed := fun context input room hfailed => by
    rw [hfailed]
    exact ⟨⟨_, rfl⟩, rfl⟩

/-- The end of the stream of nothing is told truly once a close has put it out and some of it has
come. -/
theorem tells_truly_empty :
    let fresh : Connection Bool (Option Nat) := .start emptyDeflate emptyInflate emptyStream
    let closed := fresh.take emptyDeflate emptyInflate (.close [.upTo 100] (.ready (.ok ())))
    let begun := closed.take emptyDeflate emptyInflate (.read 16 [.upTo 3])
    TellsEnd emptyDeflate emptyInflate (fun _ => []) (· = emptyStream) emptyStream begun ∧
      EmitsEnd emptyDeflate emptyInflate (· = emptyStream) emptyStream begun :=
  tells_truly emptyInflate_faithful emptyDeflate_faithful (.next (.next (.start rfl) rfl) rfl)

end Bliti.Channel.Compress
