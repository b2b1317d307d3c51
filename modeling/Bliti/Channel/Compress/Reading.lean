import Bliti.Channel.Compress
import Bliti.Channel.Stream.Crossing

/-!
# The compression layer - reading

What a read comes to, however the inner transport chunks what is coming and wherever it ends.
What is relied on of an inflate context is named: it counts what it takes and gives, tells the
end of a zlib stream where the stream ends, and gives of the beginning of a stream the beginning
of its content.
-/

namespace Bliti.Channel.Compress

open Framing Bliti.Channel.Stream

variable {κ δ : Type}

/-! ## What is relied on -/

/-- What a call took, as an inflate context counts it. -/
def Decompressor.read (decompressor : Decompressor δ) (context : δ) (called : Called δ) : Nat :=
  decompressor.totalIn called.context - decompressor.totalIn context

/-- What a call gave, as an inflate context counts it. -/
def Decompressor.gave (decompressor : Decompressor δ) (context : δ) (called : Called δ) :
    List UInt8 :=
  called.buffer.take (decompressor.totalOut called.context - decompressor.totalOut context)

/-- What is relied on of an inflate context.  Where it stands after some bytes taken and some
given is a relation of its own, as is where it has failed. -/
structure Decompressor.Faithful (decompressor : Decompressor δ)
    (content : List UInt8 → List UInt8) (whole : List UInt8 → Prop)
    (Stands : δ → List UInt8 → List UInt8 → Prop) (Failed : δ → Prop) : Prop where
  /-- A fresh context has taken and given nothing. -/
  fresh : Stands decompressor.new [] []
  /-- The totals are what was taken and what was given. -/
  totals : ∀ context taken given, Stands context taken given →
    decompressor.totalIn context = taken.length ∧ decompressor.totalOut context = given.length
  /-- A call goes on from where the context stands. -/
  goesOn : ∀ context taken given input room status, Stands context taken given →
    let called := decompressor.decompress context input room
    called.status = .ok status →
      Stands called.context (taken ++ input.take (decompressor.read context called))
        (given ++ decompressor.gave context called)
  /-- The end is told exactly where the stream is whole and all of its content has been given. -/
  tellsEnd : ∀ context taken given input room status, Stands context taken given →
    let called := decompressor.decompress context input room
    called.status = .ok status →
      (status = .streamEnd ↔
        whole (taken ++ input.take (decompressor.read context called)) ∧
          given ++ decompressor.gave context called =
            content (taken ++ input.take (decompressor.read context called)))
  /-- A call with room that neither takes nor gives had nothing to take and holds nothing. -/
  idle : ∀ context taken given input room status, Stands context taken given → 0 < room →
    let called := decompressor.decompress context input room
    called.status = .ok status → status ≠ .streamEnd →
      decompressor.read context called = 0 → decompressor.gave context called = [] →
      input = [] ∧ given = content taken
  /-- What is given is the beginning of the content of what was taken. -/
  gives : ∀ context taken given, Stands context taken given → given <+: content taken
  /-- The beginning of a stream has the beginning of its content. -/
  inflates : ∀ taken rest, content taken <+: content (taken ++ rest)
  /-- No stream is whole before its first byte. -/
  begins : ¬ whole []
  /-- A call that is refused leaves the context failed, and so does every later one. -/
  fails : ∀ context taken given input room error, Stands context taken given →
    (decompressor.decompress context input room).status = .error error →
      Failed (decompressor.decompress context input room).context
  failed : ∀ context input room, Failed context →
    (∃ error, (decompressor.decompress context input room).status = .error error) ∧
      Failed (decompressor.decompress context input room).context

/-! ## Where the reading stands -/

section

variable {decompressor : Decompressor δ} {content : List UInt8 → List UInt8}
  {whole : List UInt8 → Prop} {Stands : δ → List UInt8 → List UInt8 → Prop} {Failed : δ → Prop}

/-- Where the bytes of the other end are: taken by the inflate context, pulled off the inner
transport, or still coming.  What was read is what the context gave. -/
structure Inflating (content : List UInt8 → List UInt8) (whole : List UInt8 → Prop)
    (Stands : δ → List UInt8 → List UInt8 → Prop) (sent : List UInt8) (s : CompressStream κ δ)
    (wire : Wire) (taken read : List UInt8) : Prop where
  stands : Stands s.decompress taken read
  bytes : sent = taken ++ s.unread ++ wire.coming
  fits : s.inStart ≤ s.inBuf.length
  ended : s.streamEnd = true → whole taken ∧ read = content taken
  eof : s.readEof = wire.ended

/-- The bytes a call gave are as many as it says. -/
theorem Decompressor.Faithful.length_gave
    (hlaws : decompressor.Faithful content whole Stands Failed) {context : δ}
    {taken given input : List UInt8} {room : Nat} {status : Status}
    (hstands : Stands context taken given)
    (hok : (decompressor.decompress context input room).status = .ok status) :
    let called := decompressor.decompress context input room
    (decompressor.gave context called).length =
      decompressor.totalOut called.context - decompressor.totalOut context := by
  have hbefore := (hlaws.totals _ _ _ hstands).2
  have hafter := (hlaws.totals _ _ _ (hlaws.goesOn _ _ _ input room status hstands hok)).2
  rw [List.length_append] at hafter
  simp only
  omega

namespace Inflating

variable {sent taken read : List UInt8} {s : CompressStream κ δ} {wire : Wire}

/-- A call into the inflate context takes from what was pulled, and what it gives is read. -/
theorem inflate (hlaws : decompressor.Faithful content whole Stands Failed)
    (h : Inflating content whole Stands sent s wire taken read) (hopen : ¬ s.streamEnd = true)
    {room : Nat} {status : Status}
    (hok : (decompressor.decompress s.decompress s.unread room).status = .ok status) :
    let called := decompressor.decompress s.decompress s.unread room
    let took := decompressor.read s.decompress called
    Inflating content whole Stands sent (s.inflated called.context took status) wire
      (taken ++ s.unread.take took) (read ++ decompressor.gave s.decompress called) := by
  intro called took
  have htook : took ≤ s.unread.length :=
    Nat.sub_le_iff_le_add'.mpr (decompressor.took_le s.decompress s.unread room)
  refine ⟨?_, ?_, ?_, ?_, ?_⟩
  · rw [CompressStream.inflated_decompress]
    exact hlaws.goesOn _ _ _ _ _ _ h.stands hok
  · rw [CompressStream.unread_inflated, List.append_assoc taken, List.take_append_drop]
    exact h.bytes
  · simp only [CompressStream.inflated]
    split
    · exact Nat.le_refl 0
    · have hlength : s.unread.length = s.inBuf.length - s.inStart := List.length_drop
      have hfits := h.fits
      simp only
      omega
  · intro hended
    rw [CompressStream.inflated_streamEnd, Bool.eq_false_iff.mpr hopen, Bool.false_or,
      beq_iff_eq] at hended
    exact (hlaws.tellsEnd _ _ _ _ _ _ h.stands hok).mp hended
  · rw [CompressStream.inflated_readEof]
    exact h.eof

/-- A call that gives nothing leaves what was read. -/
theorem inflate_silent (hlaws : decompressor.Faithful content whole Stands Failed)
    (h : Inflating content whole Stands sent s wire taken read) (hopen : ¬ s.streamEnd = true)
    {room : Nat} {status : Status}
    (hok : (decompressor.decompress s.decompress s.unread room).status = .ok status) :
    let called := decompressor.decompress s.decompress s.unread room
    let took := decompressor.totalIn called.context - decompressor.totalIn s.decompress
    ¬ 0 < decompressor.totalOut called.context - decompressor.totalOut s.decompress →
      Inflating content whole Stands sent (s.inflated called.context took status) wire
        (taken ++ s.unread.take took) read := by
  intro called took hnone
  have hafter := h.inflate hlaws hopen hok
  have hgave : decompressor.gave s.decompress called = [] := by
    rw [Decompressor.gave, Nat.eq_zero_of_not_pos hnone, List.take_zero]
  simp only at hafter
  rwa [hgave, List.append_nil] at hafter

/-- A call with room that neither takes nor gives, short of the end of the stream, has had all
that was pulled and given all of its content. -/
theorem inflate_idle (hlaws : decompressor.Faithful content whole Stands Failed)
    (h : Inflating content whole Stands sent s wire taken read) (hopen : ¬ s.streamEnd = true)
    {room : Nat} (hroom : 0 < room) {status : Status}
    (hok : (decompressor.decompress s.decompress s.unread room).status = .ok status) :
    let called := decompressor.decompress s.decompress s.unread room
    let took := decompressor.totalIn called.context - decompressor.totalIn s.decompress
    let after := s.inflated called.context took status
    ¬ 0 < decompressor.totalOut called.context - decompressor.totalOut s.decompress →
      ¬ after.streamEnd = true → ¬ 0 < took →
        Inflating content whole Stands sent after wire taken read ∧
          after.unread = [] ∧ read = content taken ∧ ¬ whole taken := by
  intro called took after hnone hshort htook
  have hafter := h.inflate_silent hlaws hopen hok hnone
  have hzero : took = 0 := Nat.eq_zero_of_not_pos htook
  have hread : decompressor.read s.decompress called = 0 := hzero
  have hgave : decompressor.gave s.decompress called = [] := by
    rw [Decompressor.gave, Nat.eq_zero_of_not_pos hnone, List.take_zero]
  have hstatus : status ≠ .streamEnd := by
    intro hend
    rw [CompressStream.inflated_streamEnd, hend] at hshort
    exact hshort (Bool.or_true _)
  obtain ⟨hunread, hall⟩ :=
    hlaws.idle _ _ _ _ _ _ h.stands hroom hok hstatus hread hgave
  have hend := hlaws.tellsEnd _ _ _ _ _ _ h.stands hok
  rw [hread, hgave, List.take_zero, List.append_nil, List.append_nil] at hend
  refine ⟨?_, ?_, hall, fun hwhole => hstatus (hend.mpr ⟨hwhole, hall⟩)⟩
  · have htaken : taken ++ s.unread.take took = taken := by
      rw [hzero, List.take_zero, List.append_nil]
    rwa [← htaken]
  · rw [CompressStream.unread_inflated, hunread, List.drop_nil]

/-- Bytes pulled off the inner transport are there to inflate. -/
theorem pull (h : Inflating content whole Stands sent s wire taken read) {n : Nat}
    (hsome : (wire.give n).1 ≠ []) :
    Inflating content whole Stands sent { s with inBuf := s.inBuf ++ (wire.give n).1 }
      (wire.give n).2 taken read where
  stands := h.stands
  bytes := by
    have hunread : CompressStream.unread { s with inBuf := s.inBuf ++ (wire.give n).1 } =
        s.unread ++ (wire.give n).1 :=
      List.drop_append_of_le_length h.fits
    have hgiven : (wire.give n).1 ++ (wire.give n).2.coming = wire.coming :=
      (List.prefix_iff_eq_append.mp (List.take_prefix _ _ : (wire.give n).1 <+: wire.coming))
    rw [hunread, h.bytes, ← hgiven]
    simp only [List.append_assoc]
  fits := Nat.le_trans h.fits (by simp)
  ended := h.ended
  eof := by
    have hended : (wire.give n).2.ended = (wire.ended || (wire.give n).1.isEmpty) := rfl
    rw [hended, List.isEmpty_eq_false_iff.mpr hsome, Bool.or_false]
    exact h.eof

/-- A transport that gives nothing has ended. -/
theorem endOf (h : Inflating content whole Stands sent s wire taken read) {n : Nat}
    (hnone : (wire.give n).1 = []) :
    Inflating content whole Stands sent { s with readEof := true } (wire.give n).2 taken read where
  stands := h.stands
  bytes := by
    have hcoming : (wire.give n).2.coming = wire.coming := by
      have hdrop : (wire.give n).2.coming = wire.coming.drop (wire.give n).1.length := rfl
      rw [hdrop, hnone]
      rfl
    rw [hcoming]
    exact h.bytes
  fits := h.fits
  ended := h.ended
  eof := by
    have hended : (wire.give n).2.ended = (wire.ended || (wire.give n).1.isEmpty) := rfl
    rw [hended, hnone]
    exact (Bool.or_true _).symm

end Inflating

/-- What a read comes to: bytes, the end of the zlib stream, an end of the transport before
anything of the stream, an end of the transport elsewhere, a refusal by the inflate context, or
nothing yet. -/
inductive Reads (decompressor : Decompressor δ) (content : List UInt8 → List UInt8)
    (whole : List UInt8 → Prop) (Stands : δ → List UInt8 → List UInt8 → Prop)
    (Failed : δ → Prop) (sent read : List UInt8) (received : Received κ δ) : Prop
  | bytes (given taken : List UInt8) (hpoll : received.poll = .ready (.ok given))
      (hsome : given ≠ [])
      (hafter : Inflating content whole Stands sent received.stream received.wire taken
        (read ++ given))
  | ended (taken : List UInt8) (hpoll : received.poll = .ready (.ok []))
      (hend : received.stream.streamEnd = true)
      (hafter : Inflating content whole Stands sent received.stream received.wire taken read)
  | nothing (hpoll : received.poll = .ready (.ok [])) (hgone : received.wire.ended = true)
      (hafter : Inflating content whole Stands sent received.stream received.wire [] read)
  | cut (taken : List UInt8) (error : IoError) (hpoll : received.poll = .ready (.error error))
      (hkind : error.kind = .unexpectedEof) (hgone : received.wire.ended = true)
      (htaken : taken ≠ []) (hshort : ¬ whole taken) (hall : read = content taken)
      (hnone : received.stream.unread = [])
      (hafter : Inflating content whole Stands sent received.stream received.wire taken read)
  | refused (error : IoError) (hpoll : received.poll = .ready (.error error))
      (hkind : error.kind = .invalidData) (hopen : received.stream.streamEnd = false) (hfailed : Failed received.stream.decompress)
  | waits (taken : List UInt8)
      (hpoll : received.poll = .pending ∨ ∃ error, received.poll = .ready (.error error))
      (hthere : received.wire.ended = false)
      (hafter : Inflating content whole Stands sent received.stream received.wire taken read)

/-- What a read into a buffer with room comes to. -/
theorem readLoop_reads (hlaws : decompressor.Faithful content whole Stands Failed)
    {sent taken read : List UInt8} {s : CompressStream κ δ} {wire : Wire}
    (h : Inflating content whole Stands sent s wire taken read) {room : Nat} (hroom : 0 < room)
    (answers : List Gives) :
    Reads decompressor content whole Stands Failed sent read
      (s.readLoop decompressor wire room answers) := by
  fun_induction CompressStream.readLoop decompressor s wire room answers generalizing taken with
  | case1 s wire answers hend => exact .ended taken rfl hend h
  | case2 s wire answers hopen called error =>
      rename_i herror
      exact .refused _ rfl rfl (Bool.eq_false_iff.mpr hopen) (hlaws.fails _ _ _ _ _ _ h.stands herror)
  | case3 s wire answers hopen called status hok took wrote after =>
      rename_i hwrote
      have hlength := hlaws.length_gave h.stands hok
      refine .bytes _ _ rfl ?_ (h.inflate hlaws hopen hok)
      intro hnone
      have hgave : decompressor.gave s.decompress called = [] := hnone
      simp only at hlength
      rw [hgave] at hlength
      exact Nat.ne_of_lt hwrote hlength
  | case4 s wire answers hopen called status hok took wrote after hnone =>
      rename_i hend
      exact .ended _ rfl hend (h.inflate_silent hlaws hopen hok hnone)
  | case5 s wire answers hopen called status hok took wrote after hnone hshort hsome =>
      rename_i ih
      exact ih (h.inflate_silent hlaws hopen hok hnone)
  | case6 s wire answers hopen called status hok took wrote after hnone hshort hidle heof =>
      rename_i hclean
      obtain ⟨hafter, -, -, -⟩ := h.inflate_idle hlaws hopen hroom hok hnone hshort hidle
      have htotal : decompressor.totalIn after.decompress = 0 := by
        rw [Bool.eq_false_iff.mpr hshort, Bool.false_or, beq_iff_eq] at hclean
        exact hclean
      have htaken : taken = [] := by
        rw [(hlaws.totals _ _ _ hafter.stands).1] at htotal
        exact List.eq_nil_of_length_eq_zero htotal
      rw [htaken] at hafter
      exact .nothing rfl (hafter.eof.symm.trans heof) hafter
  | case7 s wire answers hopen called status hok took wrote after hnone hshort hidle heof =>
      rename_i hcut
      obtain ⟨hafter, hunread, hall, hpart⟩ :=
        h.inflate_idle hlaws hopen hroom hok hnone hshort hidle
      have htaken : taken ≠ [] := by
        intro htaken
        refine hcut ?_
        rw [(hlaws.totals _ _ _ hafter.stands).1, htaken]
        exact Bool.or_true _
      exact .cut taken _ rfl rfl (hafter.eof.symm.trans heof) htaken hpart hall hunread hafter
  | case8 s wire hopen called status hok took wrote after hnone hshort hidle =>
      rename_i heof
      obtain ⟨hafter, -, -, -⟩ := h.inflate_idle hlaws hopen hroom hok hnone hshort hidle
      exact .waits taken (.inl rfl) (hafter.eof.symm.trans (Bool.eq_false_iff.mpr heof)) hafter
  | case9 s wire hopen called status hok took wrote after hnone hshort hidle heof =>
      rename_i answers
      obtain ⟨hafter, -, -, -⟩ := h.inflate_idle hlaws hopen hroom hok hnone hshort hidle
      exact .waits taken (.inl rfl) (hafter.eof.symm.trans (Bool.eq_false_iff.mpr heof)) hafter
  | case10 s wire hopen called status hok took wrote after hnone hshort hidle heof error =>
      rename_i answers
      obtain ⟨hafter, -, -, -⟩ := h.inflate_idle hlaws hopen hroom hok hnone hshort hidle
      exact .waits taken (.inr ⟨error, rfl⟩)
        (hafter.eof.symm.trans (Bool.eq_false_iff.mpr heof)) hafter
  | case11 s wire hopen called status hok took wrote after hnone hshort hidle heof n answers later
      hgive =>
      rename_i ih
      obtain ⟨hafter, -, -, -⟩ := h.inflate_idle hlaws hopen hroom hok hnone hshort hidle
      have hlater : (wire.give n).2 = later := congrArg Prod.snd hgive
      refine @ih taken ?_
      rw [← hlater]
      exact hafter.endOf (congrArg Prod.fst hgive)
  | case12 s wire hopen called status hok took wrote after hnone hshort hidle heof n answers given
      later hgive hgiven =>
      rename_i ih
      obtain ⟨hafter, -, -, -⟩ := h.inflate_idle hlaws hopen hroom hok hnone hshort hidle
      have hfirst : (wire.give n).1 = given := congrArg Prod.fst hgive
      have hlater : (wire.give n).2 = later := congrArg Prod.snd hgive
      refine @ih taken ?_
      rw [← hlater, ← hfirst]
      exact hafter.pull (by rwa [hfirst])

/-- Where the reading stands: it goes on, or the inflate context has failed. -/
inductive Standing (content : List UInt8 → List UInt8) (whole : List UInt8 → Prop)
    (Stands : δ → List UInt8 → List UInt8 → Prop) (Failed : δ → Prop) (sent : List UInt8)
    (s : CompressStream κ δ) (wire : Wire) (read : List UInt8) : Prop
  | inflating (taken : List UInt8) (h : Inflating content whole Stands sent s wire taken read)
  | failed (hopen : s.streamEnd = false) (hfailed : Failed s.decompress)
      (hread : read <+: content sent)

/-- What was read is the beginning of the content of what the other end sends. -/
theorem Standing.read_prefix (hlaws : decompressor.Faithful content whole Stands Failed)
    {sent read : List UInt8} {s : CompressStream κ δ} {wire : Wire}
    (h : Standing content whole Stands Failed sent s wire read) : read <+: content sent := by
  cases h with
  | inflating taken h =>
      rw [h.bytes, List.append_assoc]
      exact (hlaws.gives _ _ _ h.stands).trans (hlaws.inflates taken _)
  | failed hopen hfailed hread => exact hread

/-- What a read into a buffer with room comes to, wherever the reading stands. -/
theorem pollRead_reads (hlaws : decompressor.Faithful content whole Stands Failed)
    {sent read : List UInt8} {s : CompressStream κ δ} {wire : Wire}
    (h : Standing content whole Stands Failed sent s wire read) {room : Nat} (hroom : room ≠ 0)
    (answers : List Gives) :
    Reads decompressor content whole Stands Failed sent read
      (s.pollRead decompressor wire room answers) := by
  rw [CompressStream.pollRead, if_neg hroom]
  cases h with
  | inflating taken h => exact readLoop_reads hlaws h (Nat.pos_of_ne_zero hroom) answers
  | failed hopen hfailed hread =>
      obtain ⟨⟨error, herror⟩, hafter⟩ := hlaws.failed s.decompress s.unread room hfailed
      unfold CompressStream.readLoop
      rw [if_neg (Bool.eq_false_iff.mp hopen)]
      simp only [herror]
      exact .refused _ rfl rfl hopen hafter

/-- Where the reading stands after a read. -/
theorem Reads.standing {sent read : List UInt8} {received : Received κ δ}
    (h : Reads decompressor content whole Stands Failed sent read received)
    (hread : read <+: content sent) :
    Standing content whole Stands Failed sent received.stream received.wire
      (read ++ received.poll.bytes) := by
  have hnone (hbytes : received.poll.bytes = []) : read ++ received.poll.bytes = read := by
    rw [hbytes, List.append_nil]
  cases h with
  | bytes given taken hpoll hsome hafter =>
      rw [hpoll]
      exact .inflating taken hafter
  | ended taken hpoll hend hafter =>
      rw [hnone (by rw [hpoll]; rfl)]
      exact .inflating taken hafter
  | nothing hpoll hgone hafter =>
      rw [hnone (by rw [hpoll]; rfl)]
      exact .inflating [] hafter
  | cut taken error hpoll hkind hgone htaken hshort hall hunread hafter =>
      rw [hnone (by rw [hpoll]; rfl)]
      exact .inflating taken hafter
  | refused error hpoll hkind hopen hfailed =>
      rw [hnone (by rw [hpoll]; rfl)]
      exact .failed hopen hfailed hread
  | waits taken hpoll hthere hafter =>
      have hbytes : received.poll.bytes = [] := by
        rcases hpoll with hpoll | ⟨error, hpoll⟩ <;> rw [hpoll] <;> rfl
      rw [hnone hbytes]
      exact .inflating taken hafter

end

end Bliti.Channel.Compress
