import Bliti.Library.BigEndian
import Mathlib.Data.List.Basic
import Mathlib.Order.Nat

/-!
# Provisioning - the chip of the HAT EEPROM

The chip is read and written over its bus, a message at a time.  It takes a page in one write cycle,
and answers nothing while the cycle goes on; a message may be refused at any time and for any reason,
and what was written of it may stay.
-/

namespace Bliti.Provision.Steps.Eeprom.Chip

/-! ## The chip and its bus -/

/-- What the chip holds. -/
def SIZE : ℕ := 32 * 1024

/-- How much the chip takes in one write cycle. -/
def PAGE : ℕ := 64

/-- The most one read message carries. -/
def READ : ℕ := 8192

/-- How often the chip is asked whether a write cycle has finished. -/
def POLLS : ℕ := 100

/-- Why an exchange could not be made. -/
inductive Error where
  | noBus
  | denied
  | noAnswer
  | failed (reason : String)
deriving DecidableEq, Repr

/-- Why an exchange could not be made, in words. -/
def Error.display : Error → String
  | noBus => "no such I2C bus"
  | denied => "not permitted to open the I2C bus"
  | noAnswer => "nothing answered at the address"
  | failed reason => reason

/-- Why a call does not give what it is to: an exchange that failed, or a panic. -/
inductive Fault where
  | failed (error : Error)
  | panic
deriving DecidableEq, Repr

/-- What a message meets: a refusal of it, the end of the write cycle going on, the write protection,
and how much of what it writes stays although it is refused. -/
structure Turn where
  refusal : Option Error
  ended : Bool
  guarded : Bool
  stays : ℕ

/-- The chip, with the messages that were sent to write it and whether each was answered. -/
structure World where
  memory : List UInt8
  cycling : Bool
  clock : ℕ
  sent : List (List UInt8 × Bool)

/-- The memory with some bytes in place of those from an address on. -/
def store (memory : List UInt8) (start : ℕ) (data : List UInt8) : List UInt8 :=
  memory.mapIdx fun i byte => if start ≤ i then (data[i - start]?).getD byte else byte

namespace World

/-- Write a message: an address of two bytes, and what is written there. -/
def write (turns : ℕ → Turn) (w : World) (message : List UInt8) : Except Error Unit × World :=
  let turn := turns w.clock
  let cycling := w.cycling && !turn.ended
  let start := BigEndian.value (message.take 2)
  let data := message.drop 2
  let refused (error : Error) (stays : List UInt8) : Except Error Unit × World :=
    (.error error, {
      memory := store w.memory start stays
      cycling := cycling || !stays.isEmpty
      clock := w.clock + 1
      sent := w.sent ++ [(message, false)] })
  if cycling then refused .noAnswer []
  else
    match turn.refusal with
    | some error => refused error (data.take turn.stays)
    | none =>
        if turn.guarded && !data.isEmpty then refused .noAnswer []
        else
          (.ok (), {
            memory := store w.memory start data
            cycling := !data.isEmpty
            clock := w.clock + 1
            sent := w.sent ++ [(message, true)] })

/-- Read so many bytes from an address of two bytes on. -/
def writeRead (turns : ℕ → Turn) (w : World) (message : List UInt8) (len : ℕ) :
    Except Error (List UInt8) × World :=
  let turn := turns w.clock
  let cycling := w.cycling && !turn.ended
  let next := { w with cycling := cycling, clock := w.clock + 1 }
  if cycling then (.error .noAnswer, next)
  else
    match turn.refusal with
    | some error => (.error error, next)
    | none => (.ok ((w.memory.drop (BigEndian.value message)).take len), next)

end World

/-! ## Reading and writing -/

/-- The parts of some bytes one after another, each but the last of a size. -/
def chunks (size : ℕ) (bytes : List UInt8) : List (List UInt8) :=
  (List.range' 0 ((bytes.length + size - 1) / size)).map fun i => (bytes.drop (i * size)).take size

/-- A byte address as the chip takes it: two bytes, most significant first. -/
def address (start : ℕ) : Except Fault (List UInt8) :=
  if start < 65536 then .ok (BigEndian.bytes 2 start) else .error .panic

/-- What is said of more than the chip holds. -/
def tooLong : Error := .failed "longer than the EEPROM"

/-- Read parts of so many bytes, each from its place on. -/
def readChunks (turns : ℕ → Turn) (index : ℕ) :
    List (List UInt8) → World → Except Fault (List UInt8) × World
  | [], w => (.ok [], w)
  | chunk :: rest, w =>
      match address (index * READ) with
      | .error fault => (.error fault, w)
      | .ok message =>
          match w.writeRead turns message chunk.length with
          | (.error error, w) => (.error (.failed error), w)
          | (.ok got, w) =>
              match readChunks turns (index + 1) rest w with
              | (.error fault, w) => (.error fault, w)
              | (.ok after, w) => (.ok (got ++ after), w)

/-- Read the first so many bytes. -/
def read (turns : ℕ → Turn) (w : World) (len : ℕ) : Except Fault (List UInt8) × World :=
  if SIZE < len then (.error (.failed tooLong), w)
  else readChunks turns 0 (chunks READ (List.replicate len 0)) w

/-- Ask so many times whether the chip answers again. -/
def finish (turns : ℕ → Turn) (start : ℕ) :
    ℕ → Except Fault Unit → World → Except Fault Unit × World
  | 0, last, w => (last, w)
  | polls + 1, _, w =>
      match address start with
      | .error fault => (.error fault, w)
      | .ok message =>
          match w.write turns message with
          | (.ok (), w) => (.ok (), w)
          | (.error error, w) => finish turns start polls (.error (.failed error)) w

/-- Write a page from its address on, and wait out its write cycle. -/
def writePage (turns : ℕ → Turn) (start : ℕ) (page : List UInt8) (w : World) :
    Except Fault Unit × World :=
  match address start with
  | .error fault => (.error fault, w)
  | .ok message =>
      match w.write turns (message ++ page) with
      | (.error error, w) => (.error (.failed error), w)
      | (.ok (), w) => finish turns start POLLS (.ok ()) w

/-- Write pages one after another. -/
def writePages (turns : ℕ → Turn) (index : ℕ) :
    List (List UInt8) → World → Except Fault Unit × World
  | [], w => (.ok (), w)
  | page :: rest, w =>
      match writePage turns (index * PAGE) page w with
      | (.error fault, w) => (.error fault, w)
      | (.ok (), w) => writePages turns (index + 1) rest w

/-- Write an image from the first byte, a page at a time. -/
def write (turns : ℕ → Turn) (w : World) (image : List UInt8) : Except Fault Unit × World :=
  if SIZE < image.length then (.error (.failed tooLong), w)
  else writePages turns 0 (chunks PAGE image) w

/-! ## What is stored -/

variable {turns : ℕ → Turn} {w w' : World} {image : List UInt8}

@[simp] theorem length_store (memory : List UInt8) (start : ℕ) (data : List UInt8) :
    (store memory start data).length = memory.length := by
  simp [store]

@[simp] theorem store_nil (memory : List UInt8) (start : ℕ) : store memory start [] = memory := by
  apply List.ext_getElem?
  intro i
  simp [store, List.getElem?_mapIdx]

theorem getElem?_store (memory : List UInt8) (start : ℕ) (data : List UInt8) (i : ℕ) :
    (store memory start data)[i]? =
      memory[i]?.map fun byte => if start ≤ i then (data[i - start]?).getD byte else byte := by
  rw [store, List.getElem?_mapIdx]

/-- A byte apart from those stored is as it was. -/
theorem getElem?_store_apart {memory data : List UInt8} {start i : ℕ}
    (hapart : i < start ∨ start + data.length ≤ i) : (store memory start data)[i]? = memory[i]? := by
  rw [getElem?_store]
  cases hbyte : memory[i]? with
  | none => rfl
  | some byte =>
      rw [Option.map_some]
      split
      · rw [List.getElem?_eq_none (by omega), Option.getD_none]
      · rfl

/-- A byte of those stored is the one stored. -/
theorem getElem?_store_within {memory data : List UInt8} {start i : ℕ} (hlow : start ≤ i)
    (hhigh : i < start + data.length) (hfits : start + data.length ≤ memory.length) :
    (store memory start data)[i]? = data[i - start]? := by
  have hless : i - start < data.length := by omega
  have hheld : i < memory.length := by omega
  rw [getElem?_store, List.getElem?_eq_getElem hheld, Option.map_some, if_pos hlow,
    List.getElem?_eq_getElem hless, Option.getD_some]

/-! ## A message -/

/-- An address as it is sent is read back. -/
theorem value_take {start : ℕ} (hstart : start < 65536) (data : List UInt8) :
    BigEndian.value ((BigEndian.bytes 2 start ++ data).take 2) = start := by
  rw [List.take_left' (BigEndian.length_bytes 2 start), BigEndian.value_bytes hstart]

/-- What follows an address as it is sent. -/
theorem drop_address (start : ℕ) (data : List UInt8) :
    (BigEndian.bytes 2 start ++ data).drop 2 = data :=
  List.drop_left' (BigEndian.length_bytes 2 start)

/-- A message written is answered and stored, or refused with the start of it stored. -/
theorem write_cases (turns : ℕ → Turn) (w : World) {start : ℕ} (hstart : start < 65536)
    (data : List UInt8) :
    ((w.write turns (BigEndian.bytes 2 start ++ data)).1 = .ok () ∧
        (w.write turns (BigEndian.bytes 2 start ++ data)).2 = {
          memory := store w.memory start data
          cycling := !data.isEmpty
          clock := w.clock + 1
          sent := w.sent ++ [(BigEndian.bytes 2 start ++ data, true)] }) ∨
      ∃ error stays, (w.write turns (BigEndian.bytes 2 start ++ data)).1 = .error error ∧
        stays <+: data ∧
        (w.write turns (BigEndian.bytes 2 start ++ data)).2.memory = store w.memory start stays ∧
        (w.write turns (BigEndian.bytes 2 start ++ data)).2.sent =
          w.sent ++ [(BigEndian.bytes 2 start ++ data, false)] := by
  unfold World.write
  simp only [value_take hstart, drop_address]
  split
  · exact .inr ⟨_, [], rfl, List.nil_prefix, rfl, rfl⟩
  · split
    · exact .inr ⟨_, _, rfl, List.take_prefix _ _, rfl, rfl⟩
    · split
      · exact .inr ⟨_, [], rfl, List.nil_prefix, rfl, rfl⟩
      · exact .inl ⟨rfl, rfl⟩

/-- A message is an image's own: it writes no more than the image's own bytes at their own addresses,
within one page. -/
def Own (image message : List UInt8) : Prop :=
  ∃ start data, message = BigEndian.bytes 2 start ++ data ∧ start < SIZE ∧ start % PAGE = 0 ∧
    data.length ≤ PAGE ∧ start + data.length ≤ image.length ∧
    data = (image.drop start).take data.length

/-- What writing an image keeps to: nothing is sent but messages of its own, and no byte is changed
but to the image's own. -/
structure Keeps (image : List UInt8) (w w' : World) : Prop where
  length : w'.memory.length = w.memory.length
  sent : ∃ more, w'.sent = w.sent ++ more ∧ ∀ message ∈ more, Own image message.1
  bytes : ∀ i : ℕ, w'.memory[i]? = w.memory[i]? ∨ i < image.length ∧ w'.memory[i]? = image[i]?

namespace Keeps

/-- What stays as it is keeps to an image. -/
theorem of_eq (hmemory : w'.memory = w.memory) (hsent : w'.sent = w.sent) : Keeps image w w' where
  length := by rw [hmemory]
  sent := ⟨[], by rw [hsent, List.append_nil], by simp⟩
  bytes i := .inl (by rw [hmemory])

theorem trans {w'' : World} (h : Keeps image w w') (h' : Keeps image w' w'') :
    Keeps image w w'' where
  length := h'.length.trans h.length
  sent := by
    obtain ⟨more, hmore, hown⟩ := h.sent
    obtain ⟨later, hlater, hownLater⟩ := h'.sent
    refine ⟨more ++ later, by rw [hlater, hmore, List.append_assoc], fun message hmem => ?_⟩
    rcases List.mem_append.mp hmem with hmem | hmem
    · exact hown message hmem
    · exact hownLater message hmem
  bytes i := by
    rcases h'.bytes i with hsame | himage
    · rw [hsame]
      exact h.bytes i
    · exact .inr himage

/-- Storing the start of an image's own bytes, with messages of its own, keeps to the image. -/
theorem stored {start : ℕ} {data stays : List UInt8} {more : List (List UInt8 × Bool)}
    (hfits : image.length ≤ w.memory.length) (hown : ∀ message ∈ more, Own image message.1)
    (hstart : start + data.length ≤ image.length)
    (hdata : data = (image.drop start).take data.length) (hstays : stays <+: data)
    (hmemory : w'.memory = store w.memory start stays) (hsent : w'.sent = w.sent ++ more) :
    Keeps image w w' where
  length := by rw [hmemory, length_store]
  sent := ⟨more, hsent, hown⟩
  bytes i := by
    have hshort := hstays.length_le
    rw [hmemory]
    by_cases hapart : i < start ∨ start + stays.length ≤ i
    · exact .inl (getElem?_store_apart hapart)
    · have hlow : start ≤ i := by omega
      have hhigh : i < start + stays.length := by omega
      refine .inr ⟨by omega, ?_⟩
      rw [getElem?_store_within hlow hhigh (by omega), List.prefix_iff_eq_take.mp hstays,
        List.getElem?_take_of_lt (by omega), hdata, List.getElem?_take_of_lt (by omega),
        List.getElem?_drop]
      congr 1
      omega

end Keeps

/-! ## A page -/

/-- The page of an image of an index. -/
def pageOf (image : List UInt8) (index : ℕ) : List UInt8 :=
  (image.drop (index * PAGE)).take PAGE

/-- What is sent to write a page: the page, and its address until it is answered. -/
def sends (start : ℕ) (page : List UInt8) (polls : ℕ) : List (List UInt8 × Bool) :=
  (BigEndian.bytes 2 start ++ page, true) ::
    (List.replicate polls (BigEndian.bytes 2 start, false) ++ [(BigEndian.bytes 2 start, true)])

/-- A poll that is answered ends the waiting. -/
theorem finish_answered {start polls : ℕ} {last : Except Fault Unit} (hstart : start < 65536)
    (hok : (w.write turns (BigEndian.bytes 2 start)).1 = .ok ()) :
    finish turns start (polls + 1) last w = (.ok (), (w.write turns (BigEndian.bytes 2 start)).2) := by
  rw [finish, address, if_pos hstart]
  dsimp only
  rw [show w.write turns (BigEndian.bytes 2 start) = (.ok (), _) from Prod.ext hok rfl]

/-- A poll that is refused is followed by those that are left. -/
theorem finish_refused {start polls : ℕ} {last : Except Fault Unit} {error : Error}
    (hstart : start < 65536) (herror : (w.write turns (BigEndian.bytes 2 start)).1 = .error error) :
    finish turns start (polls + 1) last w =
      finish turns start polls (.error (.failed error))
        (w.write turns (BigEndian.bytes 2 start)).2 := by
  rw [finish, address, if_pos hstart]
  dsimp only
  rw [show w.write turns (BigEndian.bytes 2 start) = (.error error, _) from Prod.ext herror rfl]

/-- Waiting for the chip leaves what it holds, and ends with an answer or without one. -/
theorem finish_cases (turns : ℕ → Turn) {start : ℕ} (hstart : start < 65536) (polls : ℕ)
    (refused : Error) (w : World) :
    (finish turns start polls (.error (.failed refused)) w).2.memory = w.memory ∧
      ((∃ n, (finish turns start polls (.error (.failed refused)) w).1 = .ok () ∧
          (finish turns start polls (.error (.failed refused)) w).2.cycling = false ∧
          (finish turns start polls (.error (.failed refused)) w).2.sent = w.sent ++
            (List.replicate n (BigEndian.bytes 2 start, false) ++
              [(BigEndian.bytes 2 start, true)])) ∨
        ∃ error n, (finish turns start polls (.error (.failed refused)) w).1 =
            .error (.failed error) ∧
          (finish turns start polls (.error (.failed refused)) w).2.sent =
            w.sent ++ List.replicate n (BigEndian.bytes 2 start, false)) := by
  induction polls generalizing refused w with
  | zero => exact ⟨rfl, .inr ⟨refused, 0, rfl, (List.append_nil _).symm⟩⟩
  | succ polls ih =>
      have hpoll := write_cases turns w hstart []
      rw [List.append_nil] at hpoll
      rcases hpoll with ⟨hok, hw⟩ | ⟨error, stays, herror, hstays, hmemory, hsent⟩
      · rw [finish_answered hstart hok, hw]
        exact ⟨store_nil _ _, .inl ⟨0, rfl, rfl, rfl⟩⟩
      · obtain ⟨hkept, hends⟩ := ih error (w.write turns (BigEndian.bytes 2 start)).2
        rw [List.prefix_nil.mp hstays, store_nil] at hmemory
        rw [finish_refused hstart herror]
        refine ⟨hkept.trans hmemory, ?_⟩
        rcases hends with ⟨n, hok, hcycling, hmore⟩ | ⟨other, n, hother, hmore⟩
        · refine .inl ⟨n + 1, hok, hcycling, ?_⟩
          rw [hmore, hsent, List.append_assoc, List.replicate_succ]
          rfl
        · refine .inr ⟨other, n + 1, hother, ?_⟩
          rw [hmore, hsent, List.append_assoc, List.replicate_succ]
          rfl

/-- A page written is stored and its cycle ended, or it fails with the start of it stored. -/
theorem writePage_cases (turns : ℕ → Turn) {start : ℕ} (hstart : start < 65536)
    (page : List UInt8) (w : World) :
    ((writePage turns start page w).1 = .ok () ∧
        (writePage turns start page w).2.memory = store w.memory start page ∧
        (writePage turns start page w).2.cycling = false ∧
        ∃ polls, (writePage turns start page w).2.sent = w.sent ++ sends start page polls) ∨
      ∃ error stays more, (writePage turns start page w).1 = .error (.failed error) ∧
        stays <+: page ∧ (writePage turns start page w).2.memory = store w.memory start stays ∧
        (writePage turns start page w).2.sent = w.sent ++ more ∧
        ∀ message ∈ more, message.1 = BigEndian.bytes 2 start ++ page ∨
          message.1 = BigEndian.bytes 2 start := by
  rcases write_cases turns w hstart page with ⟨hok, hw⟩ |
    ⟨error, stays, herror, hstays, hmemory, hsent⟩
  · have hpage : writePage turns start page w =
        finish turns start POLLS (.ok ()) (w.write turns (BigEndian.bytes 2 start ++ page)).2 := by
      rw [writePage, address, if_pos hstart]
      dsimp only
      rw [show w.write turns (BigEndian.bytes 2 start ++ page) = (.ok (), _) from Prod.ext hok rfl]
    obtain ⟨hkept, hends⟩ := finish_cases turns hstart POLLS .noAnswer
      (w.write turns (BigEndian.bytes 2 start ++ page)).2
    -- With any polls to come, what was last answered does not matter.
    have hlast : finish turns start POLLS (.ok ())
        (w.write turns (BigEndian.bytes 2 start ++ page)).2 =
        finish turns start POLLS (.error (.failed .noAnswer))
          (w.write turns (BigEndian.bytes 2 start ++ page)).2 := rfl
    rw [hpage, hlast]
    rw [hw] at hkept hends ⊢
    rcases hends with ⟨n, hanswered, hcycling, hmore⟩ | ⟨error, n, hrefused, hmore⟩
    · refine .inl ⟨hanswered, hkept, hcycling, n, ?_⟩
      rw [hmore, sends, List.append_assoc]
      rfl
    · refine .inr ⟨error, page, (BigEndian.bytes 2 start ++ page, true) ::
        List.replicate n (BigEndian.bytes 2 start, false), hrefused, List.prefix_rfl, hkept, ?_, ?_⟩
      · rw [hmore, List.append_assoc]
        rfl
      · rintro message hmem
        rcases List.mem_cons.mp hmem with rfl | hmem
        · exact .inl rfl
        · rw [List.eq_of_mem_replicate hmem]
          exact .inr rfl
  · have hpage : writePage turns start page w =
        (.error (.failed error), (w.write turns (BigEndian.bytes 2 start ++ page)).2) := by
      rw [writePage, address, if_pos hstart]
      dsimp only
      rw [show w.write turns (BigEndian.bytes 2 start ++ page) = (.error error, _) from
        Prod.ext herror rfl]
    rw [hpage]
    exact .inr ⟨error, stays, _, rfl, hstays, hmemory, hsent, by simp⟩

/-! ## A whole image -/

/-- An index of a part of so many parts starts within what is parted. -/
theorem lt_of_index {size index len : ℕ} (hsize : 0 < size)
    (hindex : index < (len + size - 1) / size) : index * size < len := by
  have hle : (index + 1) * size ≤ len + size - 1 :=
    (Nat.le_div_iff_mul_le hsize).mp hindex
  rw [Nat.succ_mul] at hle
  omega

/-- Parts of so many reach to the end of what is parted. -/
theorem le_of_parts {size len : ℕ} (hsize : 0 < size) : len ≤ (len + size - 1) / size * size := by
  have hlt := Nat.lt_div_mul_add hsize (a := len + size - 1)
  omega

/-- A page of an image within it. -/
structure PageIn (image : List UInt8) (i : ℕ) : Prop where
  address : i * PAGE < 65536
  fits : i * PAGE + (pageOf image i).length ≤ image.length
  own : pageOf image i = (image.drop (i * PAGE)).take (pageOf image i).length
  sent : ∀ message, message = BigEndian.bytes 2 (i * PAGE) ++ pageOf image i ∨
    message = BigEndian.bytes 2 (i * PAGE) → Own image message

/-- A page that starts within an image is within it. -/
theorem pageIn (hlong : image.length ≤ SIZE) {i : ℕ} (hi : i * PAGE < image.length) :
    PageIn image i := by
  have hlength : (pageOf image i).length = min PAGE (image.length - i * PAGE) := by
    rw [pageOf, List.length_take, List.length_drop]
  have hfits : i * PAGE + (pageOf image i).length ≤ image.length := by omega
  have hown : pageOf image i = (image.drop (i * PAGE)).take (pageOf image i).length := by
    rw [hlength, ← List.length_drop, ← List.take_eq_take_min, ← pageOf]
  have hsize : i * PAGE < SIZE := hi.trans_le hlong
  refine ⟨by unfold SIZE at hsize; omega, hfits, hown, ?_⟩
  rintro message (rfl | rfl)
  · exact ⟨i * PAGE, pageOf image i, rfl, hsize, Nat.mul_mod_left _ _, by omega, hfits, hown⟩
  · exact ⟨i * PAGE, [], (List.append_nil _).symm, hsize, Nat.mul_mod_left _ _, Nat.zero_le _, hi.le,
      rfl⟩

/-- What is sent to write a page is the page or its address. -/
theorem mem_sends {start polls : ℕ} {page : List UInt8} {message : List UInt8 × Bool}
    (hmem : message ∈ sends start page polls) :
    message.1 = BigEndian.bytes 2 start ++ page ∨ message.1 = BigEndian.bytes 2 start := by
  rcases List.mem_cons.mp hmem with rfl | hmem
  · exact .inl rfl
  · rcases List.mem_append.mp hmem with hmem | hmem
    · rw [List.eq_of_mem_replicate hmem]
      exact .inr rfl
    · rw [List.mem_singleton.mp hmem]
      exact .inr rfl

/-- A byte of a page is that of the image. -/
theorem getElem?_stored_page {memory : List UInt8} (hfits : image.length ≤ memory.length) {i k : ℕ}
    (hlow : k * PAGE ≤ i) (hhigh : i < (k + 1) * PAGE) (hi : i < image.length) :
    (store memory (k * PAGE) (pageOf image k))[i]? = image[i]? := by
  have hlength : (pageOf image k).length = min PAGE (image.length - k * PAGE) := by
    rw [pageOf, List.length_take, List.length_drop]
  rw [Nat.succ_mul] at hhigh
  rw [getElem?_store_within hlow (by omega) (by omega), pageOf, List.getElem?_take_of_lt (by omega),
    List.getElem?_drop]
  congr 1
  omega

/-- What writing pages comes to: all of them stored, each sent and its cycle ended, or those before
one that fails. -/
structure Written (image : List UInt8) (index n : ℕ) (w : World)
    (written : Except Fault Unit × World) : Prop where
  keeps : Keeps image w written.2
  before : ∀ i, i < index * PAGE → written.2.memory[i]? = w.memory[i]?
  outcome : (written.1 = .ok () ∧ (0 < n → written.2.cycling = false) ∧
      (∀ i, index * PAGE ≤ i → i < (index + n) * PAGE → i < image.length →
        written.2.memory[i]? = image[i]?) ∧
      ∃ polls : List ℕ, polls.length = n ∧ written.2.sent = w.sent ++
        ((List.range' index n).zip polls).flatMap fun (i, polls) =>
          sends (i * PAGE) (pageOf image i) polls) ∨
    ∃ error k, written.1 = .error (.failed error) ∧ index ≤ k ∧ k < index + n ∧
      (∀ i, index * PAGE ≤ i → i < k * PAGE → written.2.memory[i]? = image[i]?) ∧
      (∀ i, (k + 1) * PAGE ≤ i → written.2.memory[i]? = w.memory[i]?) ∧
      ∃ more, written.2.sent = w.sent ++ more ∧ ∀ message ∈ more, ∃ i ≤ k,
        message.1 = BigEndian.bytes 2 (i * PAGE) ++ pageOf image i ∨
          message.1 = BigEndian.bytes 2 (i * PAGE)

theorem length_pageOf_le (image : List UInt8) (index : ℕ) : (pageOf image index).length ≤ PAGE :=
  List.length_take_le _ _

/-- Writing pages comes to what it is to. -/
theorem writePages_written (turns : ℕ → Turn) (hlong : image.length ≤ SIZE) (index n : ℕ)
    (hpages : ∀ i, index ≤ i → i < index + n → i * PAGE < image.length) (w : World)
    (hsize : w.memory.length = SIZE) :
    Written image index n w
      (writePages turns index ((List.range' index n).map (pageOf image)) w) := by
  induction n generalizing index w with
  | zero =>
      refine ⟨.of_eq rfl rfl, fun _ _ => rfl, .inl ⟨rfl, by simp, fun i hlow hhigh => ?_, [], rfl, ?_⟩⟩
      · rw [Nat.add_zero] at hhigh
        omega
      · exact (List.append_nil _).symm
  | succ n ih =>
      have hfits : image.length ≤ w.memory.length := hsize ▸ hlong
      have hpage := pageIn hlong (hpages index le_rfl (by omega))
      have hshort := length_pageOf_le image index
      have hnext : (index + 1) * PAGE = index * PAGE + PAGE := Nat.succ_mul _ _
      have hcases := writePage_cases turns hpage.address (pageOf image index) w
      rw [List.range'_succ, List.map_cons, writePages]
      cases hwritten : writePage turns (index * PAGE) (pageOf image index) w with
      | mk result after =>
          rw [hwritten] at hcases
          rcases hcases with ⟨rfl, hmemory, hcycling, polls, hsent⟩ |
            ⟨error, stays, more, rfl, hstays, hmemory, hsent, hmore⟩
          · dsimp only at hmemory hcycling hsent ⊢
            have hkept : Keeps image w after :=
              .stored hfits (fun message hmem => hpage.sent _ (mem_sends hmem)) hpage.fits hpage.own
                List.prefix_rfl hmemory hsent
            have hrest := ih (index + 1) (fun i hlow hhigh => hpages i (by omega) (by omega)) after
              (hkept.length.trans hsize)
            have hstored : ∀ i, index * PAGE ≤ i → i < (index + 1) * PAGE → i < image.length →
                (writePages turns (index + 1)
                  ((List.range' (index + 1) n).map (pageOf image)) after).2.memory[i]? = image[i]? := by
              intro i hlow hhigh hi
              rw [hrest.before i hhigh, hmemory, getElem?_stored_page hfits hlow hhigh hi]
            refine ⟨hkept.trans hrest.keeps, fun i hi => ?_, ?_⟩
            · rw [hrest.before i (by omega), hmemory, getElem?_store_apart (.inl hi)]
            · rcases hrest.outcome with ⟨hok, hended, hbytes, rest, hlength, hall⟩ |
                ⟨error, k, hfailed, hlow, hhigh, hbytes, hlater, more, hall, hmore⟩
              · refine .inl ⟨hok, fun _ => ?_, fun i hlow hhigh hi => ?_, polls :: rest,
                  by simp [hlength], ?_⟩
                · cases n with
                  | zero => exact hcycling
                  | succ n => exact hended (Nat.succ_pos n)
                · by_cases hfirst : i < (index + 1) * PAGE
                  · exact hstored i hlow hfirst hi
                  · rw [show index + (n + 1) = index + 1 + n by omega] at hhigh
                    exact hbytes i (by omega) hhigh hi
                · rw [hall, hsent, List.append_assoc]
                  rfl
              · have hk := hpages k (by omega) (by omega)
                refine .inr ⟨error, k, hfailed, by omega, by omega, fun i hlow hhigh => ?_,
                  fun i hi => ?_, sends (index * PAGE) (pageOf image index) polls ++ more, ?_,
                  fun message hmem => ?_⟩
                · by_cases hfirst : i < (index + 1) * PAGE
                  · exact hstored i hlow hfirst (by omega)
                  · exact hbytes i (by omega) hhigh
                · have hpast : (index + 1) * PAGE ≤ (k + 1) * PAGE :=
                    Nat.mul_le_mul_right _ (by omega)
                  rw [hlater i hi, hmemory, getElem?_store_apart (.inr (by omega))]
                · rw [hall, hsent, List.append_assoc]
                · rcases List.mem_append.mp hmem with hmem | hmem
                  · exact ⟨index, by omega, mem_sends hmem⟩
                  · exact hmore message hmem
          · dsimp only at hmemory hsent ⊢
            have hstaysLength := hstays.length_le
            refine ⟨.stored hfits (fun message hmem => hpage.sent _ (hmore message hmem)) hpage.fits
              hpage.own hstays hmemory hsent, fun i hi => ?_, .inr ⟨error, index, rfl, le_rfl,
                by omega, fun i hlow hhigh => by omega, fun i hi => ?_, more, hsent,
                fun message hmem => ⟨index, le_rfl, hmore message hmem⟩⟩⟩
            · rw [hmemory, getElem?_store_apart (.inl hi)]
            · rw [hmemory, getElem?_store_apart (.inr (by omega))]

/-- What writing an image comes to: nothing but its own bytes is written; where it succeeds the whole
of it is stored, every page sent and its cycle ended; and where it fails, it fails at a page, with
those before it stored and what is after it left. -/
structure WritesImage (image : List UInt8) (w : World) (written : Except Fault Unit × World) :
    Prop where
  keeps : Keeps image w written.2
  ok : written.1 = .ok () → written.2.memory = image ++ w.memory.drop image.length ∧
    (image ≠ [] → written.2.cycling = false) ∧
    ∃ polls : List ℕ, polls.length = (chunks PAGE image).length ∧ written.2.sent = w.sent ++
      ((List.range' 0 polls.length).zip polls).flatMap fun (i, polls) =>
        sends (i * PAGE) (pageOf image i) polls
  error : ∀ fault, written.1 = .error fault → ∃ error k, fault = .failed error ∧
    k * PAGE < image.length ∧ (∀ i, i < k * PAGE → written.2.memory[i]? = image[i]?) ∧
    (∀ i, (k + 1) * PAGE ≤ i → written.2.memory[i]? = w.memory[i]?) ∧
    ∃ more, written.2.sent = w.sent ++ more ∧ ∀ message ∈ more, ∃ i ≤ k,
      message.1 = BigEndian.bytes 2 (i * PAGE) ++ pageOf image i ∨
        message.1 = BigEndian.bytes 2 (i * PAGE)

/-- Writing an image the chip can hold comes to what it is to. -/
theorem write_writesImage (turns : ℕ → Turn) (hlong : image.length ≤ SIZE)
    (hsize : w.memory.length = SIZE) : WritesImage image w (write turns w image) := by
  have hchunks : chunks PAGE image =
      (List.range' 0 ((image.length + PAGE - 1) / PAGE)).map (pageOf image) := rfl
  have hpage : 0 < PAGE := by decide
  have hpages : ∀ i, 0 ≤ i → i < 0 + (image.length + PAGE - 1) / PAGE → i * PAGE < image.length := by
    intro i _ hi
    rw [Nat.zero_add] at hi
    exact lt_of_index hpage hi
  have hreach : image.length ≤ (image.length + PAGE - 1) / PAGE * PAGE := le_of_parts hpage
  have hwritten := writePages_written turns hlong 0 _ hpages w hsize
  rw [write, if_neg (Nat.not_lt.mpr hlong), hchunks]
  refine ⟨hwritten.keeps, fun hok => ?_, fun fault hfault => ?_⟩
  · rcases hwritten.outcome with ⟨-, hended, hbytes, polls, hlength, hsent⟩ |
      ⟨error, k, herror, -⟩
    · rw [Nat.zero_add] at hbytes
      refine ⟨List.ext_getElem? fun i => ?_, fun hne => hended ?_, polls,
        by rw [hlength, hchunks, List.length_map, List.length_range'], ?_⟩
      · by_cases hi : i < image.length
        · rw [List.getElem?_append_left hi]
          exact hbytes i (by omega) (by omega) hi
        · rw [List.getElem?_append_right (by omega), List.getElem?_drop]
          rcases hwritten.keeps.bytes i with hsame | ⟨hwithin, -⟩
          · rw [hsame]
            congr 1
            omega
          · exact absurd hwithin hi
      · have hpos := List.length_pos_iff.mpr hne
        exact Nat.div_pos (by omega) hpage
      · rw [hsent, hlength]
    · rw [hok] at herror
      cases herror
  · rcases hwritten.outcome with ⟨hok, -⟩ |
      ⟨error, k, herror, -, hk, hbytes, hafter, hmore⟩
    · rw [hok] at hfault
      cases hfault
    · rw [hfault] at herror
      exact ⟨error, k, Except.error.inj herror, hpages k (Nat.zero_le k) hk,
        fun i hi => hbytes i (by omega) hi, hafter, hmore⟩

/-! ## Reading -/

/-- A part read is what the chip holds there. -/
theorem writeRead_cases (turns : ℕ → Turn) (w : World) {start : ℕ} (hstart : start < 65536)
    (len : ℕ) :
    (w.writeRead turns (BigEndian.bytes 2 start) len).2.memory = w.memory ∧
      (w.writeRead turns (BigEndian.bytes 2 start) len).2.sent = w.sent ∧
      (((w.writeRead turns (BigEndian.bytes 2 start) len).1 =
            .ok ((w.memory.drop start).take len)) ∨
        ∃ error, (w.writeRead turns (BigEndian.bytes 2 start) len).1 = .error error ∧
          (w.cycling = true ∨ (turns w.clock).refusal = some error)) ∧
      ((w.writeRead turns (BigEndian.bytes 2 start) len).2.cycling = true → w.cycling = true) := by
  unfold World.writeRead
  rw [BigEndian.value_bytes hstart]
  dsimp only
  split
  · rename_i hcycling
    have hheld : w.cycling = true := (Bool.and_eq_true_iff.mp hcycling).1
    exact ⟨rfl, rfl, .inr ⟨_, rfl, .inl hheld⟩, fun _ => hheld⟩
  · have hkept : (w.cycling && !(turns w.clock).ended) = true → w.cycling = true :=
      fun hcycling => (Bool.and_eq_true_iff.mp hcycling).1
    split
    · rename_i error herror
      exact ⟨rfl, rfl, .inr ⟨error, rfl, .inr herror⟩, hkept⟩
    · exact ⟨rfl, rfl, .inl rfl, hkept⟩

/-- What reading some bytes comes to: the chip is left as it is, and what is read is what it holds
first, which is read where nothing refuses it. -/
structure ReadsFirst (turns : ℕ → Turn) (w : World) (len : ℕ)
    (read : Except Fault (List UInt8) × World) : Prop where
  memory : read.2.memory = w.memory
  sent : read.2.sent = w.sent
  ok : ∀ bytes, read.1 = .ok bytes → bytes = w.memory.take len
  error : ∀ fault, read.1 = .error fault → ∃ error, fault = .failed error
  answered : w.cycling = false → (∀ clock, (turns clock).refusal = none) →
    ∃ bytes, read.1 = .ok bytes

/-- A part and what comes after it, of the first so many bytes. -/
theorem take_append_rest (memory : List UInt8) (len index size : ℕ) :
    (memory.drop (index * size)).take (min size (len - index * size)) ++
      (memory.take len).drop ((index + 1) * size) = (memory.take len).drop (index * size) := by
  have hnext : (index + 1) * size = index * size + size := Nat.succ_mul _ _
  rw [hnext, ← List.drop_drop, List.drop_take (j := len), ← List.take_take,
    List.take_append_drop]

/-- Reading parts one after another reads what the chip holds there. -/
theorem readChunks_reads (turns : ℕ → Turn) {len : ℕ} (hlong : len ≤ SIZE) (index n : ℕ)
    (hparts : ∀ i, index ≤ i → i < index + n → i * READ < len) (hreach : len ≤ (index + n) * READ)
    (w : World) (hsize : w.memory.length = SIZE) :
    let read := readChunks turns index ((List.range' index n).map fun i =>
      ((List.replicate len (0 : UInt8)).drop (i * READ)).take READ) w
    read.2.memory = w.memory ∧ read.2.sent = w.sent ∧
      ((read.1 = .ok ((w.memory.take len).drop (index * READ))) ∨
        ∃ error, read.1 = .error (.failed error) ∧
          (w.cycling = true ∨ ∃ clock, (turns clock).refusal = some error)) := by
  induction n generalizing index w with
  | zero =>
      refine ⟨rfl, rfl, .inl ?_⟩
      rw [Nat.add_zero] at hreach
      rw [List.drop_eq_nil_of_le (by rw [List.length_take]; omega)]
      rfl
  | succ n ih =>
      have hstart : index * READ < 65536 := by
        have hless := hparts index le_rfl (by omega)
        unfold SIZE at hlong
        omega
      have hlength : (((List.replicate len (0 : UInt8)).drop (index * READ)).take READ).length =
          min READ (len - index * READ) := by
        rw [List.length_take, List.length_drop, List.length_replicate]
      obtain ⟨hmemory, hsent, hcases, hcycling⟩ :=
        writeRead_cases turns w hstart (min READ (len - index * READ))
      rw [List.range'_succ, List.map_cons]
      dsimp only
      rw [readChunks, address, if_pos hstart]
      dsimp only
      rw [hlength]
      cases hread : w.writeRead turns (BigEndian.bytes 2 (index * READ))
          (min READ (len - index * READ)) with
      | mk result after =>
          rw [hread] at hmemory hsent hcases hcycling
          rcases hcases with rfl | ⟨error, rfl, hwhy⟩
          · dsimp only at hmemory hsent hcycling ⊢
            obtain ⟨hkept, hstill, hrest⟩ := ih (index + 1)
              (fun i hlow hhigh => hparts i (by omega) (by omega))
              (by rwa [show index + 1 + n = index + (n + 1) by omega]) after
              (by rw [hmemory, hsize])
            cases hmore : readChunks turns (index + 1) ((List.range' (index + 1) n).map fun i =>
                ((List.replicate len (0 : UInt8)).drop (i * READ)).take READ) after with
            | mk later last =>
                rw [hmore] at hkept hstill hrest
                rcases hrest with rfl | ⟨error, rfl, hwhy⟩
                · refine ⟨hkept.trans hmemory, hstill.trans hsent, .inl ?_⟩
                  rw [hmemory]
                  exact congrArg Except.ok (take_append_rest _ _ _ _)
                · refine ⟨hkept.trans hmemory, hstill.trans hsent, .inr ⟨error, rfl, ?_⟩⟩
                  rcases hwhy with hbusy | hrefused
                  · exact .inl (hcycling hbusy)
                  · exact .inr hrefused
          · exact ⟨hmemory, hsent, .inr ⟨error, rfl, hwhy.imp_right fun hsome => ⟨_, hsome⟩⟩⟩

/-- Reading no more than the chip holds comes to what it is to. -/
theorem read_readsFirst (turns : ℕ → Turn) {len : ℕ} (hlong : len ≤ SIZE)
    (hsize : w.memory.length = SIZE) : ReadsFirst turns w len (read turns w len) := by
  have hread : 0 < READ := by decide
  have hparts : ∀ i, 0 ≤ i → i < 0 + (len + READ - 1) / READ → i * READ < len := by
    intro i _ hi
    rw [Nat.zero_add] at hi
    exact lt_of_index hread hi
  obtain ⟨hmemory, hsent, hcases⟩ := readChunks_reads turns hlong 0 _ hparts
    (by rw [Nat.zero_add]; exact le_of_parts hread) w hsize
  have heq : read turns w len = readChunks turns 0
      ((List.range' 0 ((len + READ - 1) / READ)).map fun i =>
        ((List.replicate len (0 : UInt8)).drop (i * READ)).take READ) w := by
    rw [read, if_neg (Nat.not_lt.mpr hlong), chunks, List.length_replicate]
  rw [Nat.zero_mul, List.drop_zero] at hcases
  rw [heq]
  refine ⟨hmemory, hsent, fun bytes hok => ?_, fun fault hfault => ?_, fun hidle hfree => ?_⟩
  · rcases hcases with hbytes | ⟨error, herror, -⟩
    · rw [hok] at hbytes
      exact Except.ok.inj hbytes
    · rw [hok] at herror
      cases herror
  · rcases hcases with hbytes | ⟨error, herror, -⟩
    · rw [hfault] at hbytes
      cases hbytes
    · rw [hfault] at herror
      exact ⟨error, Except.error.inj herror⟩
  · rcases hcases with hbytes | ⟨error, -, hbusy | ⟨clock, hrefused⟩⟩
    · exact ⟨_, hbytes⟩
    · rw [hidle] at hbusy
      cases hbusy
    · rw [hfree clock] at hrefused
      cases hrefused

end Bliti.Provision.Steps.Eeprom.Chip
