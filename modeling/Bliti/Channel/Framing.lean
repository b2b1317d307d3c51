import Bliti.Library.BigEndian
import Bliti.Library.Loops

/-!
# Framing - length prefixes over a byte transport

Messages delimited by a big-endian length of a fixed width, and the reassembler that takes
whole messages out of the chunks a link delivers.

Main results:

- Theorem `reassembled`: however a stream of frames is cut into chunks, the messages that
  have arrived are those whose last byte has.
-/

namespace Bliti.Channel.Framing

/-! ## Prefixes -/

/-- What an I/O error is a case of. -/
inductive ErrorKind where
  | invalidInput
  | invalidData
  | writeZero
  | unexpectedEof
  | brokenPipe
  | other
deriving DecidableEq, Repr

/-- An I/O error. -/
structure IoError where
  kind : ErrorKind
  text : String
deriving DecidableEq, Repr

/-- A width a length prefix can be: at least one byte, and at most four. -/
structure Width where
  bytes : Nat
  usable : 1 ≤ bytes ∧ bytes ≤ 4

/-- The transport framing prefix: two bytes. -/
def transportPrefix : Width := ⟨2, by decide⟩

/-- The application message framing prefix: three bytes. -/
def messagePrefix : Width := ⟨3, by decide⟩

/-- Decode a big-endian length from a prefix: its bytes, in the last places of eight. -/
def decodePrefix (width : Width) (bytes : List UInt8) : Nat :=
  BigEndian.value (List.replicate (8 - width.bytes) 0 ++ bytes)

/-- Encode a length as a big-endian prefix.  Fails where the width cannot express it. -/
def encodePrefix (width : Width) (len : Nat) : Except IoError (List UInt8) :=
  let be := BigEndian.bytes 8 len
  if (be.take (8 - width.bytes)).any (· != 0) then
    .error {
      kind := .invalidInput
      text := "a " ++ toString len ++ "-byte message does not fit a " ++
        toString width.bytes ++ "-byte length prefix" }
  else .ok (be.drop (8 - width.bytes))

/-- The zeros before a prefix are worth nothing. -/
theorem decodePrefix_eq (width : Width) (bytes : List UInt8) :
    decodePrefix width bytes = BigEndian.value bytes :=
  BigEndian.value_replicate_append _ _

/-- A length of eight bytes is written exactly where the width expresses it. -/
theorem encodePrefix_eq (width : Width) {len : Nat} (hlen : len < 2 ^ 64) :
    encodePrefix width len =
      if len < 256 ^ width.bytes then .ok (BigEndian.bytes width.bytes len)
      else .error {
        kind := .invalidInput
        text := "a " ++ toString len ++ "-byte message does not fit a " ++
          toString width.bytes ++ "-byte length prefix" } := by
  have hwidth : 8 = (8 - width.bytes) + width.bytes := by
    have := width.usable
    omega
  have hfits : len < 256 ^ ((8 - width.bytes) + width.bytes) := by
    rw [← hwidth]
    exact hlen
  have hzero := BigEndian.bytes_add_zero_iff hfits
  rw [← hwidth] at hzero
  have hdrop : (BigEndian.bytes 8 len).drop (8 - width.bytes) =
      BigEndian.bytes width.bytes len := by
    rw [hwidth, BigEndian.bytes_add, ← hwidth, List.drop_left' (BigEndian.length_bytes _ _)]
  unfold encodePrefix
  simp only [hdrop]
  by_cases hlt : len < 256 ^ width.bytes
  · have hnone : ((BigEndian.bytes 8 len).take (8 - width.bytes)).any (· != 0) = false := by
      rw [List.any_eq_false]
      intro digit hdigit
      simp [hzero.mpr hlt digit hdigit]
    rw [hnone, if_pos hlt]
    rfl
  · have hsome : ((BigEndian.bytes 8 len).take (8 - width.bytes)).any (· != 0) = true := by
      rw [List.any_eq_true]
      by_contra hnone
      apply hlt
      apply hzero.mp
      intro digit hdigit
      by_contra hne
      exact hnone ⟨digit, hdigit, by simpa using hne⟩
    rw [if_pos hsome, if_neg hlt]

/-- A prefix that was encoded is read back. -/
theorem decodePrefix_encodePrefix (width : Width) {len : Nat} (hlen : len < 2 ^ 64)
    {bytes : List UInt8} (hencoded : encodePrefix width len = .ok bytes) :
    decodePrefix width bytes = len := by
  rw [encodePrefix_eq width hlen] at hencoded
  split at hencoded
  · rename_i hlt
    obtain rfl := Except.ok.inj hencoded
    rw [decodePrefix_eq, BigEndian.value_bytes hlt]
  · cases hencoded

/-! ## Frames -/

/-- A message as it is put on the link: its length in two bytes, then its bytes. -/
def framed (message : List UInt8) : Except IoError (List UInt8) := do
  let length ← encodePrefix transportPrefix message.length
  pure (length ++ message)

/-- A frame: the length of a message in two bytes, and the message. -/
def frame (message : List UInt8) : List UInt8 :=
  BigEndian.bytes 2 message.length ++ message

/-- Frames, one after another. -/
def frames (messages : List (List UInt8)) : List UInt8 :=
  (messages.map frame).flatten

/-- A length that two bytes express is encoded in them. -/
theorem encodePrefix_transport {len : Nat} (hsize : len ≤ 65535) :
    encodePrefix transportPrefix len = .ok (BigEndian.bytes 2 len) := by
  have hlt : len < 256 ^ transportPrefix.bytes := Nat.lt_succ_of_le hsize
  rw [encodePrefix_eq _ (by omega), if_pos hlt]
  rfl

/-- A message that is no longer than two bytes express is put on the link as its frame. -/
theorem framed_eq {message : List UInt8} (hsize : message.length ≤ 65535) :
    framed message = .ok (frame message) := by
  rw [framed, encodePrefix_transport hsize]
  rfl

@[simp] theorem length_frame (message : List UInt8) :
    (frame message).length = message.length + 2 := by
  simp [frame]
  omega

@[simp] theorem frames_nil : frames [] = [] := rfl

@[simp] theorem frames_cons (message : List UInt8) (messages : List (List UInt8)) :
    frames (message :: messages) = frame message ++ frames messages := rfl

@[simp] theorem frames_append (one other : List (List UInt8)) :
    frames (one ++ other) = frames one ++ frames other := by
  simp [frames]

/-! ## The reassembler -/

/-- Reassembles Noise messages from the chunks the link delivers. -/
structure Reassembler where
  buf : List UInt8
deriving DecidableEq, Repr

namespace Reassembler

/-- A reassembler that has been given nothing. -/
def new : Reassembler := ⟨[]⟩

/-- Add a chunk as delivered by the link. -/
def push (r : Reassembler) (chunk : List UInt8) : Reassembler :=
  { r with buf := r.buf ++ chunk }

/-- Take the next complete message, if one is available. -/
def take (r : Reassembler) : Option (List UInt8 × Reassembler) :=
  if r.buf.length < transportPrefix.bytes then none
  else
    let stop := transportPrefix.bytes + decodePrefix transportPrefix (r.buf.take transportPrefix.bytes)
    if r.buf.length < stop then none
    else some ((r.buf.take stop).drop transportPrefix.bytes, { r with buf := r.buf.drop stop })

/-- What is taken is the message of the frame the buffer starts with, and what is left is what
comes after it. -/
theorem take_eq_some_iff {r rest : Reassembler} {message : List UInt8} :
    r.take = some (message, rest) ↔
      message.length ≤ 65535 ∧ r.buf = frame message ++ rest.buf := by
  obtain ⟨buf⟩ := r
  obtain ⟨left⟩ := rest
  simp only [take, transportPrefix, decodePrefix_eq]
  constructor
  · intro htake
    split at htake
    · cases htake
    · rename_i hprefix
      have hlength : (buf.take 2).length = 2 := by
        rw [List.length_take]
        omega
      have hvalue := BigEndian.value_lt (buf.take 2)
      have hbytes := BigEndian.bytes_value (buf.take 2)
      rw [hlength] at hvalue hbytes
      generalize BigEndian.value (buf.take 2) = n at hvalue hbytes htake
      split at htake
      · cases htake
      · rename_i hwhole
        simp only [Option.some.injEq, Prod.mk.injEq, mk.injEq] at htake
        obtain ⟨rfl, rfl⟩ := htake
        have hsize : ((buf.take (2 + n)).drop 2).length = n := by
          rw [List.length_drop, List.length_take]
          omega
        have hframe : frame ((buf.take (2 + n)).drop 2) = buf.take (2 + n) :=
          calc frame ((buf.take (2 + n)).drop 2)
              = buf.take 2 ++ (buf.take (2 + n)).drop 2 := by rw [frame, hsize, hbytes]
            _ = (buf.take (2 + n)).take 2 ++ (buf.take (2 + n)).drop 2 := by
                rw [List.take_take, Nat.min_eq_left (Nat.le_add_right 2 n)]
            _ = buf.take (2 + n) := List.take_append_drop 2 _
        refine ⟨by omega, ?_⟩
        rw [hframe, List.take_append_drop]
  · rintro ⟨hsize, rfl⟩
    have htwo : (frame message ++ left).take 2 = BigEndian.bytes 2 message.length := by
      rw [frame, List.append_assoc, List.take_left' (BigEndian.length_bytes _ _)]
    have hstop : (frame message).length = 2 + message.length := by
      rw [length_frame, Nat.add_comm]
    have hread : BigEndian.value (BigEndian.bytes 2 message.length) = message.length :=
      BigEndian.value_bytes (Nat.lt_succ_of_le hsize)
    have hlength : (frame message ++ left).length = 2 + message.length + left.length := by
      rw [List.length_append, hstop]
    rw [htwo, hread, if_neg (by omega), if_neg (by omega), List.take_left' hstop,
      List.drop_left' hstop, frame, List.drop_left' (BigEndian.length_bytes _ _)]

/-- Nothing is taken exactly where the buffer starts with no whole frame. -/
theorem take_eq_none_iff {r : Reassembler} :
    r.take = none ↔ ∀ message, message.length ≤ 65535 → ¬ frame message <+: r.buf := by
  constructor
  · rintro hnone message hsize ⟨left, hbuf⟩
    have hsome := take_eq_some_iff.mpr ⟨hsize, hbuf.symm⟩
    rw [hnone] at hsome
    cases hsome
  · intro hnot
    cases htake : r.take with
    | none => rfl
    | some taken =>
        obtain ⟨message, rest⟩ := taken
        obtain ⟨hsize, hbuf⟩ := take_eq_some_iff.mp htake
        exact absurd ⟨rest.buf, hbuf.symm⟩ (hnot message hsize)

/-- Taking a message leaves fewer bytes. -/
theorem length_of_take {r rest : Reassembler} {message : List UInt8}
    (htake : r.take = some (message, rest)) : rest.buf.length < r.buf.length := by
  obtain ⟨-, hbuf⟩ := take_eq_some_iff.mp htake
  rw [hbuf, List.length_append, length_frame]
  omega

/-- Take every message that is complete. -/
def drain (r : Reassembler) : List (List UInt8) × Reassembler :=
  match _htake : r.take with
  | none => ([], r)
  | some (message, rest) =>
      let (messages, left) := rest.drain
      (message :: messages, left)
termination_by r.buf.length
decreasing_by exact length_of_take _htake

/-- Push a chunk and take every message it completes. -/
def pushAndDrain (r : Reassembler) (chunk : List UInt8) : List (List UInt8) × Reassembler :=
  (r.push chunk).drain

/-- What a reassembler holds is the frames of the messages it gives, then what it keeps, which
starts with no whole frame. -/
theorem drain_spec (r : Reassembler) :
    r.buf = frames r.drain.1 ++ r.drain.2.buf ∧
      (∀ message ∈ r.drain.1, message.length ≤ 65535) ∧ r.drain.2.take = none := by
  fun_induction drain r with
  | case1 r htake => exact ⟨rfl, fun message hmem => absurd hmem List.not_mem_nil, htake⟩
  | case2 r message rest htake messages left hdrain ih =>
      obtain ⟨hsize, hbuf⟩ := take_eq_some_iff.mp htake
      obtain ⟨hframes, hsizes, hnone⟩ := ih
      rw [hdrain] at hframes hsizes hnone
      refine ⟨?_, ?_, hnone⟩
      · rw [hbuf, hframes, frames_cons, List.append_assoc]
      · intro other hmem
        rcases List.mem_cons.mp hmem with rfl | hmem
        · exact hsize
        · exact hsizes other hmem

/-! ## Chunks -/

/-- Feed a reassembler chunks, one after another: what each gives, and what it keeps. -/
def feed (r : Reassembler) : List (List UInt8) → List (List (List UInt8)) × Reassembler
  | [] => ([], r)
  | chunk :: rest =>
      let (messages, kept) := r.pushAndDrain chunk
      let (given, last) := kept.feed rest
      (messages :: given, last)

/-- What the first chunks give does not depend on those after them. -/
theorem feed_take (r : Reassembler) (chunks : List (List UInt8)) (n : Nat) :
    (r.feed (chunks.take n)).1 = (r.feed chunks).1.take n := by
  induction chunks generalizing r n with
  | nil => simp [feed]
  | cons chunk rest ih =>
      cases n with
      | zero => simp [feed]
      | succ n => simp [feed, ih]

/-- What was fed is the frames of the messages given, then what is kept, which starts with no
whole frame. -/
theorem feed_spec {r : Reassembler} (hnone : r.take = none) (chunks : List (List UInt8)) :
    r.buf ++ chunks.flatten = frames (r.feed chunks).1.flatten ++ (r.feed chunks).2.buf ∧
      (∀ message ∈ (r.feed chunks).1.flatten, message.length ≤ 65535) ∧
      (r.feed chunks).2.take = none := by
  induction chunks generalizing r with
  | nil => exact ⟨by simp [feed], by simp [feed], hnone⟩
  | cons chunk rest ih =>
      obtain ⟨hbuf, hsizes, hkept⟩ := drain_spec (r.push chunk)
      obtain ⟨hrest, hothers, hlast⟩ := ih hkept
      refine ⟨?_, ?_, hlast⟩
      · calc r.buf ++ (chunk :: rest).flatten
            = (r.push chunk).buf ++ rest.flatten := by simp [push]
          _ = frames (r.push chunk).drain.1 ++
                ((r.push chunk).drain.2.buf ++ rest.flatten) := by
              rw [hbuf, List.append_assoc]
          _ = frames (r.feed (chunk :: rest)).1.flatten ++ (r.feed (chunk :: rest)).2.buf := by
              rw [hrest]
              simp [feed, pushAndDrain]
      · intro message hmem
        simp only [feed, pushAndDrain, List.flatten_cons, List.mem_append] at hmem
        rcases hmem with hmem | hmem
        · exact hsizes message hmem
        · exact hothers message hmem

end Reassembler

/-- One frame at the head of a stream is the only one. -/
theorem frame_append_inj {message other left rest : List UInt8} (hsize : message.length ≤ 65535)
    (hother : other.length ≤ 65535) (hsame : frame message ++ left = frame other ++ rest) :
    message = other ∧ left = rest := by
  have hone : Reassembler.take ⟨frame message ++ left⟩ = some (message, ⟨left⟩) :=
    Reassembler.take_eq_some_iff.mpr ⟨hsize, rfl⟩
  have htwo : Reassembler.take ⟨frame message ++ left⟩ = some (other, ⟨rest⟩) :=
    Reassembler.take_eq_some_iff.mpr ⟨hother, hsame⟩
  rw [hone] at htwo
  simpa using htwo

/-- The messages that have arrived of a stream of frames are those whose last byte has. -/
theorem arrived_of_prefix {given messages : List (List UInt8)} {rest : List UInt8}
    (hgiven : ∀ message ∈ given, message.length ≤ 65535)
    (hsizes : ∀ message ∈ messages, message.length ≤ 65535)
    (hnone : Reassembler.take ⟨rest⟩ = none)
    (harrived : frames given ++ rest <+: frames messages) :
    ∃ k, given = messages.take k ∧ ∀ i < messages.length,
      (i < k ↔ (frames (messages.take (i + 1))).length ≤ (frames given ++ rest).length) := by
  induction messages generalizing given with
  | nil =>
      have hempty : frames given ++ rest = [] := List.prefix_nil.mp harrived
      cases given with
      | nil => exact ⟨0, rfl, fun i hi => absurd hi (Nat.not_lt_zero i)⟩
      | cons message given =>
          have hlength := congrArg List.length hempty
          simp at hlength
  | cons first messages ih =>
      have hfirst := hsizes first List.mem_cons_self
      have hlater := fun message hmem => hsizes message (List.mem_cons_of_mem first hmem)
      cases given with
      | nil =>
          refine ⟨0, rfl, fun i hi => iff_of_false (Nat.not_lt_zero i) fun hle => ?_⟩
          have hwhole : (frame first).length ≤ rest.length := by
            simp only [List.take_succ_cons, frames_cons, frames_nil, List.length_append,
              List.length_nil, Nat.zero_add] at hle
            exact (Nat.le_add_right _ _).trans hle
          have hprefix : frame first <+: rest :=
            List.prefix_of_prefix_length_le (List.prefix_append _ _) harrived hwhole
          exact Reassembler.take_eq_none_iff.mp hnone first hfirst hprefix
      | cons message given =>
          obtain ⟨tail, htail⟩ := harrived
          rw [frames_cons, frames_cons, List.append_assoc, List.append_assoc] at htail
          obtain ⟨rfl, hrest⟩ := frame_append_inj (hgiven message List.mem_cons_self) hfirst htail
          have hothers := fun other hmem => hgiven other (List.mem_cons_of_mem message hmem)
          obtain ⟨k, rfl, hk⟩ := ih hothers hlater ⟨tail, by rw [List.append_assoc, hrest]⟩
          refine ⟨k + 1, rfl, fun i hi => ?_⟩
          cases i with
          | zero => simp
          | succ i =>
              have hi : i < messages.length := by simpa using hi
              have hone := hk i hi
              simp only [List.take_succ_cons, frames_cons, List.length_append, length_frame] at hone ⊢
              omega

/-- Messages that two bytes express are put on the link as their frames. -/
theorem mapM_framed {messages : List (List UInt8)}
    (hsizes : ∀ message ∈ messages, message.length ≤ 65535) :
    messages.mapM framed = .ok (messages.map frame) := by
  induction messages with
  | nil => rfl
  | cons message rest ih =>
      rw [List.mapM_cons, framed_eq (hsizes message List.mem_cons_self),
        ih fun other hmem => hsizes other (List.mem_cons_of_mem message hmem)]
      rfl

/-- What chunks of a stream of frames have given is the messages whose last byte has arrived. -/
theorem feed_arrived {messages chunks : List (List UInt8)}
    (hsizes : ∀ message ∈ messages, message.length ≤ 65535)
    (harrived : chunks.flatten <+: frames messages) :
    ∃ k, (Reassembler.new.feed chunks).1.flatten = messages.take k ∧
      ∀ i < messages.length,
        (i < k ↔ (frames (messages.take (i + 1))).length ≤ chunks.flatten.length) := by
  obtain ⟨hflatten, hgiven, hnone⟩ := Reassembler.feed_spec (r := .new) rfl chunks
  have hsplit : chunks.flatten = frames (Reassembler.new.feed chunks).1.flatten ++
      (Reassembler.new.feed chunks).2.buf := hflatten
  rw [hsplit] at harrived ⊢
  exact arrived_of_prefix hgiven hsizes hnone harrived

/-- Once the whole of a stream of frames has arrived, its messages have been given and nothing
is kept. -/
theorem feed_whole {messages chunks : List (List UInt8)}
    (hsizes : ∀ message ∈ messages, message.length ≤ 65535)
    (hwhole : chunks.flatten = frames messages) :
    (Reassembler.new.feed chunks).1.flatten = messages ∧
      (Reassembler.new.feed chunks).2.buf = [] := by
  obtain ⟨k, hgiven, hk⟩ := feed_arrived hsizes ⟨[], by rw [List.append_nil, hwhole]⟩
  have hall : (Reassembler.new.feed chunks).1.flatten = messages := by
    by_contra hnot
    have hshort : k < messages.length := by
      by_contra hle
      exact hnot (hgiven.trans (List.take_of_length_le (Nat.le_of_not_lt hle)))
    have hlast : (frames (messages.take (k + 1))).length ≤ chunks.flatten.length := by
      rw [hwhole, ← List.take_append_drop (k + 1) messages, frames_append, List.length_append,
        List.take_append_drop]
      omega
    exact absurd ((hk k hshort).mpr hlast) (Nat.lt_irrefl k)
  obtain ⟨hflatten, -⟩ := Reassembler.feed_spec (r := .new) rfl chunks
  rw [hall, hwhole] at hflatten
  exact ⟨hall, by simpa [Reassembler.new] using hflatten⟩

/-- However the frames of messages are cut into chunks, a reassembler gives the messages in
order and keeps nothing, and after each chunk has given those whose last byte has arrived; and
a length is encoded exactly where its width expresses it, and is decoded again. -/
theorem reassembled :
    (∀ messages : List (List UInt8), (∀ message ∈ messages, message.length ≤ 65535) →
      ∃ wire, messages.mapM framed = .ok wire ∧
        ∀ chunks : List (List UInt8), chunks.flatten = wire.flatten →
          (Reassembler.new.feed chunks).1.flatten = messages ∧
          (Reassembler.new.feed chunks).2.buf = [] ∧
          ∀ n, ∃ k, ((Reassembler.new.feed chunks).1.take n).flatten = messages.take k ∧
            ∀ i < messages.length,
              (i < k ↔ (wire.take (i + 1)).flatten.length ≤ (chunks.take n).flatten.length)) ∧
    (∀ (width : Width) (len : Nat), len < 2 ^ 64 →
      ((∃ bytes, encodePrefix width len = .ok bytes) ↔ len < 2 ^ (8 * width.bytes)) ∧
      ∀ bytes, encodePrefix width len = .ok bytes →
        bytes.length = width.bytes ∧ decodePrefix width bytes = len) := by
  refine ⟨fun messages hsizes => ?_, fun width len hlen => ⟨?_, fun bytes hencoded => ?_⟩⟩
  · refine ⟨messages.map frame, mapM_framed hsizes, fun chunks hchunks => ?_⟩
    obtain ⟨hall, hkept⟩ := feed_whole hsizes hchunks
    refine ⟨hall, hkept, fun n => ?_⟩
    have hfirst : (chunks.take n).flatten <+: frames messages := by
      refine ⟨(chunks.drop n).flatten, ?_⟩
      rw [← List.flatten_append, List.take_append_drop]
      exact hchunks
    obtain ⟨k, hgiven, hk⟩ := feed_arrived hsizes hfirst
    refine ⟨k, by rw [← Reassembler.feed_take, hgiven], fun i hi => ?_⟩
    rw [hk i hi, ← List.map_take]
    rfl
  · have hpower : 2 ^ (8 * width.bytes) = 256 ^ width.bytes := Nat.pow_mul 2 8 _
    rw [encodePrefix_eq width hlen, hpower]
    split
    · rename_i hfits
      exact iff_of_true ⟨_, rfl⟩ hfits
    · rename_i hfits
      exact iff_of_false (fun ⟨_, hencoded⟩ => nomatch hencoded) hfits
  · refine ⟨?_, decodePrefix_encodePrefix width hlen hencoded⟩
    rw [encodePrefix_eq width hlen] at hencoded
    split at hencoded
    · obtain rfl := Except.ok.inj hencoded
      exact BigEndian.length_bytes _ _
    · cases hencoded

/-- Three messages, one of nothing, cut across a prefix and across a body. -/
theorem reassembled_cut :
    (Reassembler.new.feed [[0], [2, 7], [], [9, 0, 0, 0], [1, 5]]).1.flatten =
      [[7, 9], [], [5]] := by
  obtain ⟨wire, hwire, hfeed⟩ := reassembled.1 [[7, 9], [], [5]] (by decide)
  obtain rfl : [[0, 2, 7, 9], [0, 0], [0, 1, 5]] = wire := Except.ok.inj hwire
  exact (hfeed [[0], [2, 7], [], [9, 0, 0, 0], [1, 5]] rfl).1

end Bliti.Channel.Framing
