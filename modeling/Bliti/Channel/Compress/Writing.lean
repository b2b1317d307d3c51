import Mathlib.Data.List.Infix
import Bliti.Channel.Compress
import Bliti.Channel.Stream.Crossing

/-!
# The compression layer - writing

What the calls that write come to, however the inner transport takes what it is given.  What is
relied on of a deflate context is named: it counts what it takes and gives, ends its stream only
where it is asked to, and tells the end where the stream is whole.
-/

namespace Bliti.Channel.Stream.WriteBacklog

/-- No more of a backlog is sent than there is, however it is drained. -/
theorem pollDrain_fits (answers : List Accepts) {w : WriteBacklog}
    (hfits : w.sent ≤ w.buf.length) :
    (w.pollDrain answers).backlog.sent ≤ (w.pollDrain answers).backlog.buf.length := by
  induction answers generalizing w with
  | nil =>
      unfold pollDrain
      split
      · exact hfits
      · exact Nat.le_refl 0
  | cons answer answers ih =>
      unfold pollDrain
      split
      · cases answer with
        | pending => exact hfits
        | fails error => exact hfits
        | upTo n =>
            simp only
            split
            · exact hfits
            · refine ih ?_
              have hwaiting : w.waiting.length = w.buf.length - w.sent := List.length_drop
              have htaken : (w.waiting.take n).length ≤ w.waiting.length := List.length_take_le' _ _
              simp only
              omega
      · exact Nat.le_refl 0

/-- What is put on a backlog waits after what waited. -/
theorem waiting_extend {w : WriteBacklog} (hfits : w.sent ≤ w.buf.length) (bytes : List UInt8) :
    (w.extend bytes).waiting = w.waiting ++ bytes :=
  List.drop_append_of_le_length hfits

end Bliti.Channel.Stream.WriteBacklog

namespace Bliti.Channel.Compress

open Framing Bliti.Channel.Stream

variable {κ δ : Type}

/-! ## What is relied on -/

/-- The bytes a call gave, as a deflate context counts them. -/
def Compressor.gave (compressor : Compressor κ) (context : κ) (called : Called κ) : List UInt8 :=
  called.buffer.take (compressor.totalOut called.context - compressor.totalOut context)

/-- What is relied on of a deflate context, up to the end of its stream.  What one has written is
a relation of its own. -/
structure Compressor.Faithful (compressor : Compressor κ) (whole : List UInt8 → Prop)
    (Wrote : κ → List UInt8 → Prop) : Prop where
  /-- A fresh context has written nothing. -/
  fresh : Wrote compressor.new []
  /-- No stream is whole before its first byte. -/
  begins : ¬ whole []
  /-- A call goes on from what the context has written. -/
  goesOn : ∀ context written input flush status, Wrote context written → ¬ whole written →
    let called := compressor.compress context input chunk flush
    called.status = .ok status →
      Wrote called.context (written ++ compressor.gave context called)
  /-- The end is told exactly where the stream is whole. -/
  tellsEnd : ∀ context written input flush status, Wrote context written → ¬ whole written →
    let called := compressor.compress context input chunk flush
    called.status = .ok status →
      (status = .streamEnd ↔ whole (written ++ compressor.gave context called))
  /-- Only a finish ends the stream. -/
  ends : ∀ context written input flush, Wrote context written → ¬ whole written →
    (compressor.compress context input chunk flush).status = .ok .streamEnd → flush = .finish
  /-- A finish that does not end the stream has filled its chunk. -/
  finishes : ∀ context written status, Wrote context written → ¬ whole written →
    let called := compressor.compress context [] chunk .finish
    called.status = .ok status → status ≠ .streamEnd →
      chunk ≤ compressor.totalOut called.context - compressor.totalOut context
  /-- A call that is refused writes nothing. -/
  refuses : ∀ context written input flush error, Wrote context written → ¬ whole written →
    (compressor.compress context input chunk flush).status = .error error →
      Wrote (compressor.compress context input chunk flush).context written

/-! ## Where the writing stands -/

/-- The bytes written so far: those the inner transport took, and those that wait. -/
def CompressStream.produced (s : CompressStream κ δ) (carried : List UInt8) : List UInt8 :=
  carried ++ s.out.waiting

section

variable {compressor : Compressor κ} {whole : List UInt8 → Prop}
  {Wrote : κ → List UInt8 → Prop}

/-- What was carried and what waits is what the deflate context wrote, which is whole exactly
where the stream is finished. -/
structure Deflating (whole : List UInt8 → Prop) (Wrote : κ → List UInt8 → Prop)
    (s : CompressStream κ δ) (carried : List UInt8) : Prop where
  fits : s.out.sent ≤ s.out.buf.length
  wrote : Wrote s.compress (s.produced carried)
  ends : whole (s.produced carried) ↔ s.finished = true

variable {s : CompressStream κ δ} {carried : List UInt8}

/-- What a stream that is not finished has written is not whole. -/
theorem Deflating.short (h : Deflating whole Wrote s carried) (hopen : s.finished = false) :
    ¬ whole (s.produced carried) := by
  rw [h.ends, hopen]
  exact Bool.false_ne_true

/-- What calls into the deflate context of a stream that is not finished come to: they go on from
what was written, and change nothing else. -/
structure Goes (whole : List UInt8 → Prop) (Wrote : κ → List UInt8 → Prop)
    (s : CompressStream κ δ) (carried : List UInt8) (after : CompressStream κ δ)
    (ended : Prop) : Prop where
  same : after = { s with compress := after.compress, out := after.out }
  fits : after.out.sent ≤ after.out.buf.length
  wrote : Wrote after.compress (after.produced carried)
  ends : whole (after.produced carried) ↔ ended
  onward : s.produced carried <+: after.produced carried

/-- Calls into the deflate context finish nothing by themselves. -/
theorem Goes.finished {after : CompressStream κ δ} {ended : Prop}
    (h : Goes whole Wrote s carried after ended) : after.finished = s.finished := by
  rw [h.same]

/-- A stream that is not finished goes on where it stands. -/
theorem Goes.deflating {after : CompressStream κ δ} {ended : Prop}
    (h : Goes whole Wrote s carried after ended) (hopen : s.finished = false)
    (hshort : ¬ ended) : Deflating whole Wrote after carried where
  fits := h.fits
  wrote := h.wrote
  ends := by
    rw [h.ends, h.finished, hopen]
    exact iff_of_false hshort Bool.false_ne_true

theorem Goes.congr {after : CompressStream κ δ} {ended other : Prop}
    (h : Goes whole Wrote s carried after ended) (hsame : ended ↔ other) :
    Goes whole Wrote s carried after other where
  same := h.same
  fits := h.fits
  wrote := h.wrote
  ends := h.ends.trans hsame
  onward := h.onward

theorem Goes.trans {between after : CompressStream κ δ} {first ended : Prop}
    (h : Goes whole Wrote s carried between first)
    (hrest : Goes whole Wrote between carried after ended) :
    Goes whole Wrote s carried after ended where
  same := by
    rw [hrest.same, h.same]
  fits := hrest.fits
  wrote := hrest.wrote
  ends := hrest.ends
  onward := h.onward.trans hrest.onward

/-- What one call into the deflate context comes to. -/
theorem deflate_goes (hlaws : compressor.Faithful whole Wrote)
    (h : Deflating whole Wrote s carried) (hopen : s.finished = false) (input : List UInt8)
    (flush : FlushCompress) :
    Goes whole Wrote s carried (s.deflate compressor input flush).2
      (∃ read wrote, (s.deflate compressor input flush).1 = .ok (read, wrote, .streamEnd)) := by
  have hshort := h.short hopen
  unfold CompressStream.deflate
  cases hstatus : (compressor.compress s.compress input chunk flush).status with
  | error error =>
      simp only [hstatus]
      refine ⟨rfl, h.fits, hlaws.refuses _ _ _ _ _ h.wrote hshort hstatus, ?_,
        List.prefix_refl _⟩
      exact iff_of_false hshort fun hended => by
        obtain ⟨read, wrote, hok⟩ := hended
        cases hok
  | ok status =>
      have hgoes := hlaws.goesOn _ _ _ _ _ h.wrote hshort hstatus
      have hends := hlaws.tellsEnd _ _ _ _ _ h.wrote hshort hstatus
      have hwaits : carried ++ (s.out.extend (compressor.gave s.compress
            (compressor.compress s.compress input chunk flush))).waiting =
          s.produced carried ++ compressor.gave s.compress
            (compressor.compress s.compress input chunk flush) := by
        rw [WriteBacklog.waiting_extend h.fits, ← List.append_assoc]
        rfl
      rw [← hwaits] at hgoes hends
      simp only [hstatus]
      refine ⟨rfl, ?_, hgoes, ?_, ?_⟩
      · exact Nat.le_trans h.fits (by simp [WriteBacklog.extend])
      · refine hends.symm.trans ⟨fun hend => ⟨_, _, by rw [hend]⟩, fun hended => ?_⟩
        obtain ⟨read, wrote, hok⟩ := hended
        cases hok
        rfl
      · exact ⟨_, hwaits.symm⟩

/-- Only a finish ends the stream. -/
theorem deflate_ends (hlaws : compressor.Faithful whole Wrote)
    (h : Deflating whole Wrote s carried) (hopen : s.finished = false) {input : List UInt8}
    {flush : FlushCompress}
    (hended : ∃ read wrote, (s.deflate compressor input flush).1 = .ok (read, wrote, .streamEnd)) :
    flush = .finish := by
  obtain ⟨read, wrote, hok⟩ := hended
  obtain ⟨hstatus, -, -, -⟩ := CompressStream.deflate_ok (Prod.ext hok rfl)
  exact hlaws.ends _ _ _ _ h.wrote (h.short hopen) hstatus

/-- Running input through the deflate context ends nothing. -/
theorem compressInput_goes (hlaws : compressor.Faithful whole Wrote)
    (h : Deflating whole Wrote s carried) (hopen : s.finished = false) (input : List UInt8)
    (offset : Nat) :
    Goes whole Wrote s carried (s.compressInput compressor input offset).2 False := by
  have hstep {s : CompressStream κ δ} (h : Deflating whole Wrote s carried)
      (hopen : s.finished = false) (offset : Nat) :
      Goes whole Wrote s carried (s.deflate compressor (input.drop offset) .none).2 False := by
    refine (deflate_goes hlaws h hopen (input.drop offset) .none).congr ?_
    exact iff_of_false (fun hended => nomatch deflate_ends hlaws h hopen hended) id
  fun_induction CompressStream.compressInput compressor s input offset with
  | case1 s offset error after hcall =>
      have hgoes := hstep h hopen offset
      rwa [hcall] at hgoes
  | case2 s offset read wrote status after hcall hdone =>
      have hgoes := hstep h hopen offset
      rwa [hcall] at hgoes
  | case3 s offset read wrote status after hcall hmore ih =>
      have hgoes := hstep h hopen offset
      rw [hcall] at hgoes
      have hstill : after.finished = false := hgoes.finished.trans hopen
      exact hgoes.trans (ih (hgoes.deflating hopen id) hstill)

/-- Flushing the deflate context ends the stream exactly where it says so, which it does for a
finish that succeeds and for nothing else. -/
theorem flushCompress_goes (hlaws : compressor.Faithful whole Wrote)
    (h : Deflating whole Wrote s carried) (hopen : s.finished = false) (flush : FlushCompress) :
    Goes whole Wrote s carried (s.flushCompress compressor flush).2
        ((s.flushCompress compressor flush).1 = .ok true) ∧
      ((s.flushCompress compressor flush).1 = .ok true → flush = .finish) ∧
      ((s.flushCompress compressor flush).1 = .ok false → flush ≠ .finish) := by
  fun_induction CompressStream.flushCompress compressor s flush with
  | case1 s error after hcall =>
      have hgoes := deflate_goes hlaws h hopen [] flush
      rw [hcall] at hgoes
      refine ⟨hgoes.congr (iff_of_false ?_ nofun), nofun, nofun⟩
      intro hended
      obtain ⟨read, wrote, hok⟩ := hended
      cases hok
  | case2 s read wrote after hcall =>
      have hgoes := deflate_goes hlaws h hopen [] flush
      have hended : ∃ read wrote,
          (s.deflate compressor [] flush).1 = .ok (read, wrote, .streamEnd) :=
        ⟨read, wrote, congrArg Prod.fst hcall⟩
      rw [hcall] at hgoes
      exact ⟨hgoes.congr (iff_of_true ⟨read, wrote, rfl⟩ rfl),
        fun _ => deflate_ends hlaws h hopen hended, nofun⟩
  | case3 s read wrote status after hcall hshort hspare =>
      have hgoes := deflate_goes hlaws h hopen [] flush
      rw [hcall] at hgoes
      refine ⟨hgoes.congr (iff_of_false ?_ nofun), nofun, fun _ hfinish => ?_⟩
      · intro hended
        obtain ⟨read, wrote, hok⟩ := hended
        cases hok
        exact hshort rfl
      · obtain ⟨hstatus, -, hwrote, -⟩ := CompressStream.deflate_ok hcall
        rw [hfinish] at hstatus hwrote
        have hfull := hlaws.finishes _ _ _ h.wrote (h.short hopen) hstatus hshort
        omega
  | case4 s read wrote status after hcall hshort hfull ih =>
      have hgoes := deflate_goes hlaws h hopen [] flush
      rw [hcall] at hgoes
      have hnone : ¬ ∃ read' wrote', (Except.ok (read, wrote, status) : Except IoError _) =
          .ok (read', wrote', .streamEnd) := by
        intro hended
        obtain ⟨read, wrote, hok⟩ := hended
        cases hok
        exact hshort rfl
      have hstill : after.finished = false := hgoes.finished.trans hopen
      obtain ⟨hrest, hfinish, hsync⟩ := ih (hgoes.deflating hopen hnone) hstill
      exact ⟨hgoes.trans hrest, hfinish, hsync⟩

/-! ## The calls that write -/

/-- Draining a backlog moves bytes to the inner transport, and no others. -/
theorem produced_drain (s : CompressStream κ δ) (carried : List UInt8) (answers : List Accepts) :
    CompressStream.produced { s with out := (s.out.pollDrain answers).backlog }
      (carried ++ (s.out.pollDrain answers).taken) = s.produced carried := by
  have hdrains := WriteBacklog.pollDrain_drains answers s.out
  rw [CompressStream.produced, CompressStream.produced, List.append_assoc, hdrains.bytes]

/-- Draining a backlog keeps what was written. -/
theorem Deflating.drain (h : Deflating whole Wrote s carried) (answers : List Accepts) :
    Deflating whole Wrote { s with out := (s.out.pollDrain answers).backlog }
      (carried ++ (s.out.pollDrain answers).taken) where
  fits := WriteBacklog.pollDrain_fits answers h.fits
  wrote := by
    rw [produced_drain]
    exact h.wrote
  ends := by
    rw [produced_drain]
    exact h.ends

/-- What a call that writes keeps: what was written stays, the reading is left alone, and a
stream that is finished stays so and writes nothing more. -/
structure Deflates (whole : List UInt8 → Prop) (Wrote : κ → List UInt8 → Prop)
    (s : CompressStream κ δ) (carried : List UInt8) (after : CompressStream κ δ)
    (taken : List UInt8) : Prop where
  deflating : Deflating whole Wrote after (carried ++ taken)
  onward : s.produced carried <+: after.produced (carried ++ taken)
  closed : s.finished = true →
    after.produced (carried ++ taken) = s.produced carried ∧ after.finished = true
  reading : after = { s with
    compress := after.compress
    out := after.out
    dirty := after.dirty
    finished := after.finished }

/-- A call that does nothing keeps everything. -/
theorem Deflating.nothing (h : Deflating whole Wrote s carried) :
    Deflates whole Wrote s carried s [] where
  deflating := by
    rw [List.append_nil]
    exact h
  onward := by
    rw [List.append_nil]
  closed := fun hfinished => ⟨by rw [List.append_nil], hfinished⟩
  reading := rfl

/-- Draining what waits keeps what was written. -/
theorem Deflating.drains (h : Deflating whole Wrote s carried) (answers : List Accepts) :
    Deflates whole Wrote s carried { s with out := (s.out.pollDrain answers).backlog }
      (s.out.pollDrain answers).taken where
  deflating := h.drain answers
  onward := ⟨[], by rw [List.append_nil, produced_drain]⟩
  closed := fun hfinished => ⟨produced_drain s carried answers, hfinished⟩
  reading := rfl

theorem Deflates.trans {between after : CompressStream κ δ} {first taken : List UInt8}
    (h : Deflates whole Wrote s carried between first)
    (hrest : Deflates whole Wrote between (carried ++ first) after taken) :
    Deflates whole Wrote s carried after (first ++ taken) where
  deflating := by
    rw [← List.append_assoc]
    exact hrest.deflating
  onward := by
    rw [← List.append_assoc]
    exact h.onward.trans hrest.onward
  closed := fun hfinished => by
    obtain ⟨hsame, hbetween⟩ := h.closed hfinished
    obtain ⟨hrest, hafter⟩ := hrest.closed hbetween
    rw [← List.append_assoc, hrest]
    exact ⟨hsame, hafter⟩
  reading := by
    rw [hrest.reading, h.reading]

/-- Calls into the deflate context of a stream that is not finished are part of a call that
writes. -/
theorem Goes.deflates {after last : CompressStream κ δ} {ended : Prop} {taken : List UInt8}
    {dirty finished : Bool} (h : Goes whole Wrote s carried after ended)
    (hopen : s.finished = false)
    (hrest : Deflates whole Wrote { after with dirty := dirty, finished := finished } carried last
      taken) : Deflates whole Wrote s carried last taken where
  deflating := hrest.deflating
  onward := h.onward.trans hrest.onward
  closed := fun hfinished => by
    rw [hopen] at hfinished
    cases hfinished
  reading := by
    rw [hrest.reading, h.same]

/-- What a write comes to. -/
theorem pollWrite_deflates (hlaws : compressor.Faithful whole Wrote)
    (h : Deflating whole Wrote s carried) (buf : List UInt8) (answers : List Accepts) :
    let sent := s.pollWrite compressor buf answers
    Deflates whole Wrote s carried sent.stream sent.taken := by
  unfold CompressStream.pollWrite
  split
  · exact h.nothing
  split
  · exact h.nothing
  rename_i hopen
  have hopen : s.finished = false := Bool.eq_false_iff.mpr hopen
  have hdrains := h.drains answers
  have hclear := h.drain answers
  simp only
  split
  · exact hdrains
  · exact hdrains
  · have hgoes := compressInput_goes hlaws hclear hopen buf 0
    have hafter := hgoes.deflating hopen id
    split
    · rename_i error after hcall
      rw [hcall] at hgoes hafter
      have hrest := hdrains.trans (hgoes.deflates hopen hafter.nothing)
      rwa [List.append_nil] at hrest
    · rename_i consumed after hcall
      rw [hcall] at hgoes hafter
      split
      · have hrest := hdrains.trans (hgoes.deflates hopen hafter.nothing)
        rwa [List.append_nil] at hrest
      · have hdirty : Deflating whole Wrote { after with dirty := true }
            (carried ++ (s.out.pollDrain answers).taken) :=
          ⟨hafter.fits, hafter.wrote, hafter.ends⟩
        exact hdrains.trans (hgoes.deflates hopen (hdirty.drains _))

/-- What a flush comes to. -/
theorem pollFlush_deflates (hlaws : compressor.Faithful whole Wrote)
    (h : Deflating whole Wrote s carried) (answers : List Accepts) (inner : Poll Unit) :
    let sent := s.pollFlush compressor answers inner
    Deflates whole Wrote s carried sent.stream sent.taken := by
  unfold CompressStream.pollFlush
  split
  · rename_i hdirty
    have hopen : s.finished = false := by
      rw [Bool.and_eq_true, Bool.not_eq_true'] at hdirty
      exact hdirty.2
    obtain ⟨hgoes, hfinish, -⟩ := flushCompress_goes hlaws h hopen .sync
    have hshort : ¬ (s.flushCompress compressor .sync).1 = .ok true :=
      fun hended => nomatch hfinish hended
    have hafter := hgoes.deflating hopen hshort
    split
    · rename_i error after hcall
      rw [hcall] at hgoes hafter
      exact hgoes.deflates hopen hafter.nothing
    · rename_i ended after hcall
      rw [hcall] at hgoes hafter
      have hclean : Deflating whole Wrote { after with dirty := false } carried :=
        ⟨hafter.fits, hafter.wrote, hafter.ends⟩
      exact hgoes.deflates hopen (hclean.drains answers)
  · exact h.drains answers

/-- What a close comes to. -/
theorem pollClose_deflates (hlaws : compressor.Faithful whole Wrote)
    (h : Deflating whole Wrote s carried) (answers : List Accepts) (inner : Poll Unit) :
    let sent := s.pollClose compressor answers inner
    Deflates whole Wrote s carried sent.stream sent.taken := by
  unfold CompressStream.pollClose
  split
  · exact h.drains answers
  · rename_i hopen
    have hopen : s.finished = false := Bool.eq_false_iff.mpr hopen
    obtain ⟨hgoes, -, -⟩ := flushCompress_goes hlaws h hopen .finish
    split
    · rename_i error after hcall
      rw [hcall] at hgoes
      exact hgoes.deflates hopen (hgoes.deflating hopen nofun).nothing
    · rename_i after hcall
      rw [hcall] at hgoes
      exact hgoes.deflates hopen (hgoes.deflating hopen nofun).nothing
    · rename_i after hcall
      rw [hcall] at hgoes
      have hfinished : Deflating whole Wrote { after with finished := true, dirty := false }
          carried :=
        ⟨hgoes.fits, hgoes.wrote, hgoes.ends.trans (iff_of_true rfl rfl)⟩
      exact hgoes.deflates hopen (hfinished.drains answers)

/-- A close ends the stream, unless the deflate context refuses a call. -/
theorem pollClose_finishes (hlaws : compressor.Faithful whole Wrote)
    (h : Deflating whole Wrote s carried) (answers : List Accepts) (inner : Poll Unit) :
    (s.pollClose compressor answers inner).stream.finished = true ∨
      ∃ error, (s.flushCompress compressor .finish).1 = .error error := by
  unfold CompressStream.pollClose
  split
  · rename_i hfinished
    exact .inl hfinished
  · rename_i hopen
    obtain ⟨-, -, hsync⟩ :=
      flushCompress_goes hlaws h (Bool.eq_false_iff.mpr hopen) .finish
    split
    · rename_i error after hcall
      exact .inr ⟨error, by rw [hcall]⟩
    · rename_i after hcall
      rw [hcall] at hsync
      exact absurd rfl (hsync rfl)
    · exact .inl rfl

/-! ## Nothing written, nothing waiting -/

/-- Whether a write may have taken anything: all do but those that stay pending, and those of
nothing. -/
def wroteSome : Poll Nat → Bool
  | .pending => false
  | .ready (.ok n) => n != 0
  | .ready (.error _) => true

/-- A write finishes nothing, and leaves nothing to flush where it took nothing. -/
theorem pollWrite_dirty (hlaws : compressor.Faithful whole Wrote)
    (h : Deflating whole Wrote s carried) (buf : List UInt8) (answers : List Accepts) :
    let sent := s.pollWrite compressor buf answers
    sent.stream.finished = s.finished ∧
      (sent.stream.dirty = true → s.dirty = true ∨ wroteSome sent.poll = true) ∧
      (s.finished = true → sent.stream.dirty = s.dirty) := by
  unfold CompressStream.pollWrite
  split
  · exact ⟨rfl, .inl, fun _ => rfl⟩
  split
  · exact ⟨rfl, .inl, fun _ => rfl⟩
  rename_i hopen
  have hopen : s.finished = false := Bool.eq_false_iff.mpr hopen
  simp only
  split
  · exact ⟨rfl, .inl, fun _ => rfl⟩
  · exact ⟨rfl, .inl, fun _ => rfl⟩
  · have hgoes := compressInput_goes hlaws (h.drain answers) hopen buf 0
    have hclosed {p : Prop} (hfinished : s.finished = true) : p := by
      rw [hopen] at hfinished
      cases hfinished
    split
    · rename_i error after hcall
      rw [hcall] at hgoes
      exact ⟨hgoes.finished, fun _ => .inr rfl, hclosed⟩
    · rename_i consumed after hcall
      rw [hcall] at hgoes
      split
      · exact ⟨hgoes.finished, fun _ => .inr rfl, hclosed⟩
      · rename_i hsome
        refine ⟨hgoes.finished, fun _ => .inr ?_, hclosed⟩
        split
        · rfl
        · simpa [wroteSome] using hsome

/-- Nothing is taken where nothing waits. -/
theorem drainThen_silent (answers : List Accepts) (inner : Poll Unit)
    (hnone : s.out.waiting = []) :
    (s.drainThen answers inner).taken = [] ∧
      (s.drainThen answers inner).stream.out.waiting = [] := by
  have hbytes := (WriteBacklog.pollDrain_drains answers s.out).bytes
  rw [hnone] at hbytes
  exact List.append_eq_nil_iff.mp hbytes.symm

/-- A write that takes nothing leaves nothing waiting where nothing waited, and no more to flush
than there was. -/
theorem pollWrite_nothing {buf : List UInt8} {answers : List Accepts}
    (hnone : wroteSome (s.pollWrite compressor buf answers).poll = false) :
    let sent := s.pollWrite compressor buf answers
    sent.stream.dirty = s.dirty ∧ (s.out.waiting = [] → sent.stream.out.waiting = []) := by
  unfold CompressStream.pollWrite at hnone ⊢
  split at hnone
  · rw [if_pos ‹_›]
    exact ⟨rfl, id⟩
  rw [if_neg ‹_›]
  split at hnone
  · cases hnone
  rw [if_neg ‹_›]
  simp only at hnone ⊢
  split at hnone
  · refine ⟨rfl, fun hempty => ?_⟩
    exact (drainThen_silent answers .pending hempty).2
  · cases hnone
  · split at hnone
    · cases hnone
    · split at hnone
      · cases hnone
      · rename_i hsome
        split at hnone
        · cases hnone
        · exact absurd (by simpa [wroteSome] using hnone) hsome

/-- Nothing waits where what waited was drained. -/
theorem drainThen_waiting {answers : List Accepts} {inner : Poll Unit}
    (hdone : (s.drainThen answers inner).poll.done = true) :
    (s.drainThen answers inner).stream.out.waiting = [] := by
  have hdrains := WriteBacklog.pollDrain_drains answers s.out
  have hready : (s.out.pollDrain answers).poll = .ready (.ok ()) := by
    unfold CompressStream.drainThen at hdone
    cases hpoll : (s.out.pollDrain answers).poll with
    | pending => simp [hpoll, Poll.done] at hdone
    | ready outcome =>
        cases outcome with
        | error error => simp [hpoll, Poll.done] at hdone
        | ok done => rfl
  have hempty := hdrains.whole hready
  simp [CompressStream.drainThen, hempty, WriteBacklog.waiting, WriteBacklog.empty]

/-- A flush where nothing was written since the last only drains what waits. -/
theorem pollFlush_clean (compressor : Compressor κ) (answers : List Accepts)
    (inner : Poll Unit) (hclean : s.dirty = false) :
    s.pollFlush compressor answers inner = s.drainThen answers inner := by
  rw [CompressStream.pollFlush, hclean]
  rfl

/-- A flush finishes nothing, leaves nothing to flush unless it fails, and nothing waiting where
it is done. -/
theorem pollFlush_dirty (hlaws : compressor.Faithful whole Wrote)
    (h : Deflating whole Wrote s carried) (hclean : s.finished = true → s.dirty = false)
    (answers : List Accepts) (inner : Poll Unit) :
    let sent := s.pollFlush compressor answers inner
    sent.stream.finished = s.finished ∧
      (sent.stream.dirty = true → s.dirty = true ∧ sent.poll.failed = true) ∧
      (sent.poll.done = true → sent.stream.out.waiting = []) := by
  by_cases hdirty : s.dirty = true
  · have hopen : s.finished = false := by
      cases hfinished : s.finished with
      | false => rfl
      | true =>
          rw [hclean hfinished] at hdirty
          cases hdirty
    obtain ⟨hgoes, -, -⟩ := flushCompress_goes hlaws h hopen .sync
    rw [CompressStream.pollFlush, hdirty, hopen, Bool.not_false, Bool.and_self, if_pos rfl]
    split
    · rename_i error after hcall
      rw [hcall] at hgoes
      exact ⟨hgoes.finished.trans hopen, fun _ => ⟨rfl, rfl⟩, nofun⟩
    · rename_i ended after hcall
      rw [hcall] at hgoes
      exact ⟨hgoes.finished.trans hopen, nofun, drainThen_waiting⟩
  · rw [pollFlush_clean compressor answers inner (Bool.eq_false_iff.mpr hdirty)]
    exact ⟨rfl, fun hstill => absurd hstill hdirty, drainThen_waiting⟩

/-- A close leaves no more to flush than there was, and nothing where it finishes the stream. -/
theorem pollClose_dirty (hlaws : compressor.Faithful whole Wrote)
    (h : Deflating whole Wrote s carried) (hclean : s.finished = true → s.dirty = false)
    (answers : List Accepts) (inner : Poll Unit) :
    let sent := s.pollClose compressor answers inner
    (sent.stream.finished = true → sent.stream.dirty = false) ∧
      (sent.stream.dirty = true → s.dirty = true) ∧
      (sent.poll.done = true → sent.stream.finished = true ∧ sent.stream.out.waiting = []) := by
  unfold CompressStream.pollClose
  split
  · rename_i hfinished
    exact ⟨hclean, id, fun hdone => ⟨hfinished, drainThen_waiting hdone⟩⟩
  · rename_i hopen
    have hopen : s.finished = false := Bool.eq_false_iff.mpr hopen
    obtain ⟨hgoes, -, -⟩ := flushCompress_goes hlaws h hopen .finish
    have hdirty : (s.flushCompress compressor .finish).2.dirty = s.dirty := by rw [hgoes.same]
    have hfinished := hgoes.finished.trans hopen
    split
    · rename_i error after hcall
      rw [hcall] at hdirty hfinished
      exact ⟨fun hended => absurd (hended.symm.trans hfinished) nofun, hdirty.symm.trans, nofun⟩
    · rename_i after hcall
      rw [hcall] at hdirty hfinished
      exact ⟨fun hended => absurd (hended.symm.trans hfinished) nofun, hdirty.symm.trans, nofun⟩
    · exact ⟨fun _ => rfl, nofun, fun hdone => ⟨rfl, drainThen_waiting hdone⟩⟩

/-! ## Reads -/

/-- The writing is left alone. -/
structure SameWriting (s after : CompressStream κ δ) : Prop where
  compress : after.compress = s.compress
  out : after.out = s.out
  dirty : after.dirty = s.dirty
  finished : after.finished = s.finished

/-- A call into the inflate context leaves the writing alone. -/
theorem sameWriting_inflated (s : CompressStream κ δ) (context : δ) (read : Nat)
    (status : Status) : SameWriting s (s.inflated context read status) := by
  simp only [CompressStream.inflated]
  split
  · exact ⟨rfl, rfl, rfl, rfl⟩
  · exact ⟨rfl, rfl, rfl, rfl⟩

theorem SameWriting.trans {between after : CompressStream κ δ} (h : SameWriting s between)
    (hrest : SameWriting between after) : SameWriting s after where
  compress := hrest.compress.trans h.compress
  out := hrest.out.trans h.out
  dirty := hrest.dirty.trans h.dirty
  finished := hrest.finished.trans h.finished

/-- A read leaves the writing alone. -/
theorem pollRead_sameWriting (decompressor : Decompressor δ) (s : CompressStream κ δ)
    (wire : Wire) (room : Nat) (answers : List Gives) :
    SameWriting s (s.pollRead decompressor wire room answers).stream := by
  rw [CompressStream.pollRead]
  split
  · exact ⟨rfl, rfl, rfl, rfl⟩
  fun_induction CompressStream.readLoop decompressor s wire room answers with
  | case1 => exact ⟨rfl, rfl, rfl, rfl⟩
  | case2 => exact ⟨rfl, rfl, rfl, rfl⟩
  | case5 =>
      rename_i ih
      exact (sameWriting_inflated _ _ _ _).trans ih
  | case11 =>
      rename_i ih
      exact (sameWriting_inflated _ _ _ _).trans ⟨ih.compress, ih.out, ih.dirty, ih.finished⟩
  | case12 =>
      rename_i ih
      exact (sameWriting_inflated _ _ _ _).trans ⟨ih.compress, ih.out, ih.dirty, ih.finished⟩
  | _ => exact sameWriting_inflated _ _ _ _

/-- What was written stands where the writing is left alone. -/
theorem Deflating.read {after : CompressStream κ δ} (h : Deflating whole Wrote s carried)
    (hsame : SameWriting s after) : Deflating whole Wrote after carried := by
  have hproduced : after.produced carried = s.produced carried := by
    rw [CompressStream.produced, CompressStream.produced, hsame.out]
  refine ⟨?_, ?_, ?_⟩
  · rw [hsame.out]
    exact h.fits
  · rw [hproduced, hsame.compress]
    exact h.wrote
  · rw [hproduced, hsame.finished]
    exact h.ends

end

end Bliti.Channel.Compress
