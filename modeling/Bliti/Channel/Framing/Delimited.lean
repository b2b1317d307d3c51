import Bliti.Channel.Framing
import Bliti.Library.Fallible

/-!
# Framing - messages on a stream

Above the handshake a message is read straight off a stream, after its length.  One read gives as
much as has come, and the stream ends, or fails, anywhere.

Main results:

- Theorem `readBody_eq`: a body is read whole in however many chunks it takes.
- Theorem `delimited_messages`: what is read of a stream of messages cut anywhere.
-/

namespace Bliti.Channel.Framing

/-- Write a message after its length: the bytes written, or why none are. -/
def writeDelimited (width : Width) (message : List UInt8) : Except IoError (List UInt8) := do
  let length ← encodePrefix width message.length
  pure (length ++ message)

/-! ## Reading -/

/-- How much of a message body is pulled off a stream per read. -/
def READ_CHUNK : ℕ := 8192

/-- What a read comes to that the stream ended before. -/
def unexpectedEof : IoError where
  kind := .unexpectedEof
  text := "unexpected end of file"

section

-- How many bytes but one have come, by how many are yet to be read; and why the stream fails.
variable (come : ℕ → ℕ) (failure : Option IoError)

/-- Read at most so many of the bytes that are coming, as many as have come, at least one; and none
only where the stream has ended.  A stream with a failure fails in place of ending. -/
def readOnce (len : ℕ) (bytes : List UInt8) : Except IoError (List UInt8 × List UInt8) :=
  let given := min len (come bytes.length + 1)
  if bytes.isEmpty then failure.elim (.ok ([], [])) .error
  else .ok (bytes.take given, bytes.drop given)

/-- Read exactly so many bytes. -/
def readExact (len : ℕ) (bytes : List UInt8) : Except IoError (List UInt8 × List UInt8) :=
  if len ≤ bytes.length then .ok (bytes.take len, bytes.drop len)
  else .error (failure.getD unexpectedEof)

/-- Read the body of a message, a chunk at a time. -/
def readBody (remaining : ℕ) (bytes : List UInt8) : Except IoError (List UInt8 × List UInt8) :=
  if remaining = 0 then .ok ([], bytes)
  else do
    let (chunk, bytes) ← readExact failure (min remaining READ_CHUNK) bytes
    let (rest, bytes) ← readBody (remaining - min remaining READ_CHUNK) bytes
    pure (chunk ++ rest, bytes)
termination_by remaining
decreasing_by
  have hchunk : 0 < READ_CHUNK := by decide
  omega

/-- Read the next message, or none at the end of the stream. -/
def readDelimited (width : Width) (bytes : List UInt8) :
    Except IoError (Option (List UInt8) × List UInt8) := do
  let (begun, bytes) ← readOnce come failure width.bytes bytes
  if begun.isEmpty then pure (none, bytes)
  else
    let (rest, bytes) ← readExact failure (width.bytes - begun.length) bytes
    let (message, bytes) ← readBody failure (decodePrefix width (begun ++ rest)) bytes
    pure (some message, bytes)

variable {come failure}

/-- What is read in two parts is read in one. -/
theorem readExact_add (first len : ℕ) (bytes : List UInt8) :
    readExact failure (first + len) bytes = (do
      let (one, bytes) ← readExact failure first bytes
      let (other, bytes) ← readExact failure len bytes
      pure (one ++ other, bytes)) := by
  by_cases hfirst : first ≤ bytes.length
  · by_cases hlen : first + len ≤ bytes.length
    · have hrest : len ≤ bytes.length - first := by omega
      simp [readExact, bind, Except.bind, hfirst, hlen, hrest, pure, Except.pure, List.take_add]
    · have hrest : ¬ len ≤ bytes.length - first := by omega
      simp [readExact, bind, Except.bind, hfirst, hlen, hrest]
  · have hlen : ¬ first + len ≤ bytes.length := by omega
    simp [readExact, bind, Except.bind, hfirst, hlen]

/-- A body is read whole in however many chunks it takes. -/
theorem readBody_eq (len : ℕ) (bytes : List UInt8) :
    readBody failure len bytes = readExact failure len bytes := by
  induction len using Nat.strong_induction_on generalizing bytes with
  | _ len ih =>
      have hchunk : 0 < READ_CHUNK := by decide
      rw [readBody]
      split_ifs with hzero
      · simp [readExact, hzero]
      · have hless : len - min len READ_CHUNK < len := by omega
        have hsplit : len = min len READ_CHUNK + (len - min len READ_CHUNK) := by omega
        conv_rhs => rw [hsplit, readExact_add]
        simp only [ih _ hless]

/-- A stream gives the message whose length it starts with, where that has come whole, and else
fails; at its end it gives none. -/
theorem readDelimited_eq (width : Width) (bytes : List UInt8) :
    readDelimited come failure width bytes =
      let size := BigEndian.value (bytes.take width.bytes)
      if bytes.isEmpty then failure.elim (.ok (none, [])) .error
      else if width.bytes + size ≤ bytes.length then
        .ok (some ((bytes.drop width.bytes).take size), bytes.drop (width.bytes + size))
      else .error (failure.getD unexpectedEof) := by
  have hwidth := width.usable.1
  cases hempty : bytes.isEmpty with
  | true => cases failure <;>
      simp [readDelimited, readOnce, hempty, bind, Except.bind, pure, Except.pure]
  | false =>
      have hmore : 0 < bytes.length := List.length_pos_iff.mpr (List.isEmpty_eq_false_iff.mp hempty)
      obtain ⟨given, hgiven⟩ : ∃ given, given = min width.bytes (come bytes.length + 1) := ⟨_, rfl⟩
      have hbegun : (bytes.take given).isEmpty = false := by
        rw [List.isEmpty_eq_false_iff, ← List.length_pos_iff, List.length_take]
        omega
      simp only [readDelimited, readOnce, hempty, ← hgiven, bind, Except.bind, hbegun, if_false,
        Bool.false_eq_true, readBody_eq, decodePrefix_eq, List.length_take]
      by_cases hprefix : width.bytes ≤ bytes.length
      · have hrest : width.bytes - min given bytes.length ≤ (bytes.drop given).length := by
          rw [List.length_drop]
          omega
        have hlength : given + (width.bytes - min given bytes.length) = width.bytes := by omega
        have hwhole : bytes.take given ++
            (bytes.drop given).take (width.bytes - min given bytes.length) =
              bytes.take width.bytes := by
          rw [← List.take_add, hlength]
        have hread : readExact failure (width.bytes - min given bytes.length) (bytes.drop given) =
            .ok ((bytes.drop given).take (width.bytes - min given bytes.length),
              bytes.drop width.bytes) := by
          rw [readExact, if_pos hrest, List.drop_drop, hlength]
        simp only [hread, hwhole]
        have hsize : ∀ size, size ≤ (bytes.drop width.bytes).length ↔
            width.bytes + size ≤ bytes.length := by
          intro size
          rw [List.length_drop]
          omega
        simp only [readExact, hsize, List.drop_drop]
        split_ifs <;> rfl
      · have hrest : ¬ width.bytes - min given bytes.length ≤ (bytes.drop given).length := by
          rw [List.length_drop]
          omega
        rw [readExact, if_neg hrest, if_neg (by omega)]

/-- A message read leaves less of the stream. -/
theorem length_of_readDelimited {width : Width} {bytes message left : List UInt8}
    (hread : readDelimited come failure width bytes = .ok (some message, left)) :
    left.length < bytes.length := by
  have hwidth := width.usable.1
  rw [readDelimited_eq] at hread
  dsimp only at hread
  split_ifs at hread with hempty hwhole
  · cases failure <;> cases hread
  · obtain ⟨-, rfl⟩ := Prod.mk.inj (Except.ok.inj hread)
    rw [List.length_drop]
    omega

variable (come failure)

/-- Read messages until the stream ends, or fails. -/
def readAll (width : Width) (bytes : List UInt8) : List (List UInt8) × Option IoError :=
  match _hread : readDelimited come failure width bytes with
  | .error error => ([], some error)
  | .ok (none, _) => ([], none)
  | .ok (some message, left) =>
      let (messages, ending) := readAll width left
      (message :: messages, ending)
termination_by bytes.length
decreasing_by exact length_of_readDelimited _hread

variable {come failure}

/-! ## Messages -/

/-- A message that was written is one its length fits, after that length. -/
theorem writeDelimited_ok {width : Width} {message bytes : List UInt8}
    (hlen : message.length < 2 ^ 64) (hwritten : writeDelimited width message = .ok bytes) :
    message.length < 256 ^ width.bytes ∧
      bytes = BigEndian.bytes width.bytes message.length ++ message := by
  rw [writeDelimited, encodePrefix_eq width hlen] at hwritten
  split_ifs at hwritten with hfits
  · exact ⟨hfits, (Except.ok.inj hwritten).symm⟩
  · cases hwritten

/-- A stream that starts with some of a message gives it where that is all of it, and else fails
unless it has ended. -/
theorem readDelimited_cut {width : Width} {message wire bytes more : List UInt8}
    (hfits : message.length < 256 ^ width.bytes)
    (hwire : wire = BigEndian.bytes width.bytes message.length ++ message)
    (hcut : bytes <+: wire ++ more) :
    readDelimited come failure width bytes =
      if bytes.isEmpty then failure.elim (.ok (none, [])) .error
      else if wire.length ≤ bytes.length then .ok (some message, bytes.drop wire.length)
      else .error (failure.getD unexpectedEof) := by
  have hlength : wire.length = width.bytes + message.length := by
    rw [hwire, List.length_append, BigEndian.length_bytes]
  rw [readDelimited_eq]
  by_cases hprefix : width.bytes ≤ bytes.length
  · have hsize : BigEndian.value (bytes.take width.bytes) = message.length := by
      obtain ⟨after, hafter⟩ := hcut
      rw [← List.take_append_of_le_length hprefix, hafter, hwire, List.append_assoc,
        List.take_left' (BigEndian.length_bytes _ _), BigEndian.value_bytes hfits]
    simp only [hsize, hlength]
    split_ifs with hempty hwhole
    · rfl
    · obtain ⟨after, rfl⟩ := List.prefix_of_prefix_length_le (List.prefix_append _ _) hcut
        (hlength ▸ hwhole)
      rw [hwire, List.append_assoc, List.drop_left' (BigEndian.length_bytes _ _), List.take_left]
    · rfl
  · have hshort : ∀ size, ¬ width.bytes + size ≤ bytes.length := fun size => by omega
    simp only [hlength, hshort, if_false]

/-- What is read of a stream, by what is read first. -/
theorem readAll_eq (width : Width) (bytes : List UInt8) :
    readAll come failure width bytes =
      match readDelimited come failure width bytes with
      | .error error => ([], some error)
      | .ok (none, _) => ([], none)
      | .ok (some message, left) =>
          (message :: (readAll come failure width left).1, (readAll come failure width left).2) := by
  rw [readAll]
  split <;> simp_all

/-- However much of the bytes of messages comes at a time, and wherever they stop, the messages read
are those that came whole, and a stream is told to have ended only between two of them. -/
theorem delimited_messages {width : Width} {messages wire : List (List UInt8)} {bytes : List UInt8}
    (hlen : ∀ message ∈ messages, message.length < 2 ^ 64)
    (hwritten : messages.mapM (writeDelimited width) = .ok wire) (hcut : bytes <+: wire.flatten) :
    ∃ k, (readAll come failure width bytes).1 = messages.take k ∧
      ((readAll come failure width bytes).2 =
        if bytes = (wire.take k).flatten then failure else some (failure.getD unexpectedEof)) ∧
      ∀ i < wire.length, (i < k ↔ (wire.take (i + 1)).flatten.length ≤ bytes.length) := by
  rw [Fallible.mapM_eq_ok] at hwritten
  induction hwritten generalizing bytes with
  | nil =>
      obtain rfl : bytes = [] := List.prefix_nil.mp hcut
      rw [readAll_eq, readDelimited_eq]
      exact ⟨0, by cases failure <;> rfl, by cases failure <;> rfl, by simp⟩
  | @cons message first _ rest hfirst _ ih =>
      obtain ⟨hfits, hwire⟩ := writeDelimited_ok (hlen message List.mem_cons_self) hfirst
      have hwidth := width.usable.1
      have hsome : first ≠ [] := by
        intro hnone
        have hlength := congrArg List.length hwire
        rw [hnone, List.length_append, BigEndian.length_bytes, List.length_nil] at hlength
        omega
      rw [List.flatten_cons] at hcut
      rw [readAll_eq, readDelimited_cut hfits hwire hcut]
      by_cases hwhole : first.length ≤ bytes.length
      · obtain ⟨after, rfl⟩ :=
          List.prefix_of_prefix_length_le (List.prefix_append _ _) hcut hwhole
        rw [List.prefix_append_right_inj] at hcut
        obtain ⟨k, hgiven, hending, hk⟩ :=
          ih (fun other hmem => hlen other (List.mem_cons_of_mem _ hmem)) hcut
        have hmore : (first ++ after).isEmpty = false := by simp [hsome]
        simp only [hmore, Bool.false_eq_true, if_false, if_pos hwhole, List.drop_left]
        refine ⟨k + 1, by rw [hgiven, List.take_succ_cons], ?_, fun i hi => ?_⟩
        · simp only [hending, List.take_succ_cons, List.flatten_cons, List.append_cancel_left_eq]
        · cases i with
          | zero => simp
          | succ i =>
              have hone := hk i (by simpa using hi)
              simp only [List.take_succ_cons, List.flatten_cons, List.length_append] at hone ⊢
              omega
      · rw [if_neg hwhole]
        refine ⟨0, ?_, ?_, fun i hi => iff_of_false (Nat.not_lt_zero i) fun hle => ?_⟩
        · cases bytes <;> cases failure <;> rfl
        · cases bytes <;> cases failure <;> rfl
        · rw [List.take_succ_cons, List.flatten_cons, List.length_append] at hle
          omega

/-- Two messages, cut within the second. -/
theorem delimited_messages_cut :
    (readAll (fun _ => 1) none messagePrefix [0, 0, 2, 7, 9, 0, 0]).1 = [[7, 9]] := by
  obtain ⟨k, hgiven, -, hk⟩ := @delimited_messages (fun _ => 1) none messagePrefix [[7, 9], [5]]
    [[0, 0, 2, 7, 9], [0, 0, 1, 5]] [0, 0, 2, 7, 9, 0, 0] (by decide) rfl (by decide)
  have hfirst : 0 < k := (hk 0 (by decide)).mpr (by decide)
  have hsecond : ¬ 1 < k := fun hlt => absurd ((hk 1 (by decide)).mp hlt) (by decide)
  obtain rfl : k = 1 := by omega
  exact hgiven

end

end Bliti.Channel.Framing
