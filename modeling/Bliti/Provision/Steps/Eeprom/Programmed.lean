import Bliti.Provision.Steps.Eeprom.Chip
import Bliti.Provision.Steps.Eeprom.Hat

/-!
# Provisioning - programming the HAT EEPROM

The step places the board, reads the image for its version, tells what the EEPROM holds, and tries
to write the image until the EEPROM reads back as holding it or the operator's time has passed.  An
attempt that is going on when the time passes goes on in the pool.

Main results:

- Theorem `programs`: the same of the step, with what the chip's own reads and writes come to.
-/

namespace Bliti.Provision.Steps.Eeprom

/-! ## Placing the board -/

/-- The chip ID of a Bosch BME680. -/
def BME680 : UInt8 := 0x61

/-- What the devices on the board showed. -/
structure Readings where
  air : Option UInt8

/-- A version, and where a board is placed as it. -/
abbrev Row : Type := Version × (Readings → Bool)

/-- Each version. -/
def TABLE : List Row :=
  [({ major := 4, minor := 0 }, fun seen => seen.air == some BME680)]

/-- The version of the one row of a table the board matches. -/
def fit (table : List Row) (seen : Readings) : Option Version :=
  match table.filter fun row => row.2 seen with
  | [row] => some row.1
  | _ => none

/-- The version the board is placed as, from what the air sensor's address answers with. -/
def place (chipId : Except Chip.Error UInt8) : Option Version :=
  fit TABLE { air := chipId.toOption }

/-! ## The step -/

/-- Why a file cannot be read. -/
inductive FileError where
  | notFound
  | other (text : String)

/-- Why a call does not give what it is to, in words, or a panic. -/
inductive Failure where
  | failed (why : String)
  | panic
deriving DecidableEq

/-- How much of the EEPROM is read to tell what is on it. -/
def PEEK : ℕ := 1024

/-- What the step meets: what the air sensor answers, the images on the medium, what each opening of
the bus and each message on it meets, what the operator confirms, and how many attempts end before
the operator's time has passed, with one going on then or none. -/
structure Bench where
  chipId : Except Chip.Error UInt8
  files : String → Except FileError (List UInt8)
  opens : ℕ → Option Chip.Error
  turns : ℕ → Chip.Turn
  confirms : String → Bool
  tries : ℕ
  lingers : Bool

/-- How far the step has come: the chip, how often the bus was opened, what the reads gave, and what
was asked. -/
structure Going where
  world : Chip.World
  opened : ℕ
  given : List (List UInt8)
  asked : List String

/-- The name of the image for a version. -/
def imageName (version : Version) : String :=
  "tamanu-iti-v" ++ version.display ++ ".eep"

namespace Bench

/-- The image the medium carries for a version. -/
def image (b : Bench) (version : Version) : Except String (List UInt8) :=
  match b.files (imageName version) with
  | .ok bytes => .ok bytes
  | .error .notFound =>
      .error ("there are no EEPROM contents to install for v" ++ version.display)
  | .error (.other text) =>
      .error ("cannot read the image for v" ++ version.display ++ ": " ++ text)

/-- Work on the chip through a bus opened for it. -/
def withBus {α : Type} (b : Bench) (work : Chip.World → Except Chip.Fault α × Chip.World)
    (s : Going) : Except Failure α × Going :=
  match b.opens s.opened with
  | some error => (.error (.failed error.display), { s with opened := s.opened + 1 })
  | none =>
      let done := work s.world
      (match done.1 with
        | .ok value => .ok value
        | .error (.failed error) => .error (.failed error.display)
        | .error .panic => .error .panic,
        { s with world := done.2, opened := s.opened + 1 })

/-- Read the first so many bytes. -/
def read (b : Bench) (len : ℕ) (s : Going) : Except Failure (List UInt8) × Going :=
  match b.withBus (fun w => Chip.read b.turns w len) s with
  | (.ok bytes, s) => (.ok bytes, { s with given := s.given ++ [bytes] })
  | (.error failure, s) => (.error failure, s)

/-- Try once to write an image from the first byte. -/
def write (b : Bench) (image : List UInt8) (s : Going) : Except Failure Unit × Going :=
  b.withBus (fun w => Chip.write b.turns w image) s

/-- What some bytes are told as. -/
def told (bytes : List UInt8) : Except Failure Held :=
  match describe bytes with
  | some held => .ok held
  | none => .error .panic

/-- What the EEPROM holds, read as far as it takes to tell. -/
def held (b : Bench) (image : List UInt8) (s : Going) : Except Failure Held × Going :=
  match b.read (max image.length PEEK) s with
  | (.error failure, s) => (.error failure, s)
  | (.ok head, s) =>
      if image.isPrefixOf head then (.ok .image, s)
      else if head.all (· == 0xFF) then
        match b.read Chip.SIZE s with
        | (.error failure, s) => (.error failure, s)
        | (.ok whole, s) => (told whole, s)
      else (told head, s)

/-- Try once to write an image, and tell whether the EEPROM reads back as holding it. -/
def attempt (b : Bench) (image : List UInt8) (s : Going) : Except Failure Bool × Going :=
  match b.write image s with
  | (.error failure, s) => (.error failure, s)
  | (.ok (), s) =>
      match b.read image.length s with
      | (.error failure, s) => (.error failure, s)
      | (.ok bytes, s) => (.ok (bytes == image), s)

/-- Try to write an image until the EEPROM reads back as holding it, or the time has passed. -/
def attempts (b : Bench) (image : List UInt8) : ℕ → Going → Except Failure Bool × Going
  | 0, s => (.ok false, if b.lingers then (b.attempt image s).2 else s)
  | tries + 1, s =>
      match b.attempt image s with
      | (.error .panic, s) => (.error .panic, s)
      | (.ok true, s) => (.ok true, s)
      | (_, s) => attempts b image tries s

/-- Ask whether what the EEPROM holds is to be written over. -/
def ask (b : Bench) (version : Version) (held : Held) (s : Going) : Bool × Going :=
  (b.confirms (overwriteText version held),
    { s with asked := s.asked ++ [overwriteText version held] })

/-- Whether what the EEPROM holds may be written over. -/
def clear (b : Bench) (version : Version) (held : Held) (s : Going) : Bool × Going :=
  match held with
  | .blank => (true, s)
  | .iti other => if other = version then (true, s) else b.ask version (.iti other) s
  | held => b.ask version held s

/-- Write an image where what the EEPROM holds may be written over. -/
def put (b : Bench) (version : Version) (image : List UInt8) (held : Held) (s : Going) :
    Except Failure Unit × Going :=
  match b.clear version held s with
  | (false, s) => (.error (.failed "the EEPROM was left as it was"), s)
  | (true, s) =>
      match b.attempts image b.tries s with
      | (.error failure, s) => (.error failure, s)
      | (.ok true, s) => (.ok (), s)
      | (.ok false, s) => (.error (.failed unwritten), s)

/-- The step. -/
def run (b : Bench) (s : Going) : Except Failure Unit × Going :=
  match place b.chipId with
  | none => (.error (.failed unplaced), s)
  | some version =>
      match b.image version with
      | .error why => (.error (.failed why), s)
      | .ok image =>
          match b.held image s with
          | (.error .panic, s) => (.error .panic, s)
          | (.error (.failed why), s) =>
              (.error (.failed ("cannot read the EEPROM: " ++ why)), s)
          | (.ok .image, s) => (.ok (), s)
          | (.ok held, s) => b.put version image held s

end Bench

/-! ## Reads and attempts -/

variable {b : Bench} {s s' : Going} {image : List UInt8} {version : Version}

/-- What reading through the bus comes to: the chip is left as it is, and what is read is what it
holds first. -/
structure ReadThrough (len : ℕ) (s : Going) (read : Except Failure (List UInt8) × Going) :
    Prop where
  memory : read.2.world.memory = s.world.memory
  sent : read.2.world.sent = s.world.sent
  asked : read.2.asked = s.asked
  outcome : (read.1 = .ok (s.world.memory.take len) ∧ len ≤ Chip.SIZE ∧
      read.2.given = s.given ++ [s.world.memory.take len]) ∨
    ∃ why, read.1 = .error (.failed why) ∧ read.2.given = s.given

/-- Reading through the bus comes to what it is to. -/
theorem read_readThrough (b : Bench) (len : ℕ) (s : Going)
    (hsize : s.world.memory.length = Chip.SIZE) : ReadThrough len s (b.read len s) := by
  cases hopen : b.opens s.opened with
  | some error =>
      rw [Bench.read, Bench.withBus, hopen]
      exact ⟨rfl, rfl, rfl, .inr ⟨_, rfl, rfl⟩⟩
  | none =>
      rw [Bench.read, Bench.withBus, hopen]
      by_cases hlong : Chip.SIZE < len
      · simp only [Chip.read, if_pos hlong]
        exact ⟨rfl, rfl, rfl, .inr ⟨_, rfl, rfl⟩⟩
      · have hreads := Chip.read_readsFirst b.turns (Nat.not_lt.mp hlong) hsize
        cases hread : Chip.read b.turns s.world len with
        | mk result after =>
            rw [hread] at hreads
            cases result with
            | ok bytes =>
                obtain rfl := hreads.ok bytes rfl
                exact ⟨hreads.memory, hreads.sent, rfl, .inl ⟨rfl, Nat.not_lt.mp hlong, rfl⟩⟩
            | error fault =>
                obtain ⟨error, rfl⟩ := hreads.error fault rfl
                exact ⟨hreads.memory, hreads.sent, rfl, .inr ⟨_, rfl, rfl⟩⟩

/-- What writing attempts come to: the chip is kept to the image, and where they end well the image
was read back whole. -/
structure Attempted (image : List UInt8) (s : Going) (done : Except Failure Bool × Going) :
    Prop where
  keeps : Chip.Keeps image s.world done.2.world
  asked : done.2.asked = s.asked
  given : s.given <+: done.2.given
  returns : done.1 ≠ .error .panic
  ok : done.1 = .ok true → image ∈ done.2.given.drop s.given.length ∧
    image <+: done.2.world.memory

/-- One attempt comes to what it is to. -/
theorem attempt_attempted (b : Bench) (hlong : image.length ≤ Chip.SIZE)
    (hsize : s.world.memory.length = Chip.SIZE) : Attempted image s (b.attempt image s) := by
  cases hopen : b.opens s.opened with
  | some error =>
      rw [Bench.attempt, Bench.write, Bench.withBus, hopen]
      exact ⟨.of_eq rfl rfl, rfl, List.prefix_rfl, by simp, by simp⟩
  | none =>
      rw [Bench.attempt, Bench.write, Bench.withBus, hopen]
      have hwrites := Chip.write_writesImage b.turns hlong hsize
      cases hwrite : Chip.write b.turns s.world image with
      | mk result after =>
          rw [hwrite] at hwrites
          cases result with
          | error fault =>
              obtain ⟨error, -, rfl, -⟩ := hwrites.error fault rfl
              exact ⟨hwrites.keeps, rfl, List.prefix_rfl, by simp, by simp⟩
          | ok done =>
              have hkept : after.memory.length = Chip.SIZE := hwrites.keeps.length.trans hsize
              have hread := read_readThrough b image.length
                { s with world := after, opened := s.opened + 1 } hkept
              dsimp only
              cases hback : b.read image.length
                  { s with world := after, opened := s.opened + 1 } with
              | mk result last =>
                  rw [hback] at hread
                  have hkeeps : Chip.Keeps image s.world last.world :=
                    hwrites.keeps.trans (.of_eq hread.memory hread.sent)
                  rcases hread.outcome with ⟨rfl, -, hgiven⟩ | ⟨why, rfl, hgiven⟩
                  · refine ⟨hkeeps, hread.asked, ?_, by simp, fun hok => ?_⟩
                    · exact hgiven ▸ List.prefix_append _ _
                    · have hsame : after.memory.take image.length = image := by
                        simpa using hok
                      dsimp only at hgiven
                      refine ⟨?_, ?_⟩
                      · rw [hgiven, List.drop_left, hsame]
                        exact List.mem_singleton_self _
                      · rw [hread.memory]
                        exact List.prefix_iff_eq_take.mpr hsame.symm
                  · exact ⟨hkeeps, hread.asked, hgiven ▸ List.prefix_rfl, by simp, by simp⟩

/-- Attempts one after another come to what they are to. -/
theorem attempts_attempted (b : Bench) (hlong : image.length ≤ Chip.SIZE) (tries : ℕ) (s : Going)
    (hsize : s.world.memory.length = Chip.SIZE) :
    Attempted image s (b.attempts image tries s) := by
  induction tries generalizing s with
  | zero =>
      have hattempt := attempt_attempted b hlong hsize
      rw [Bench.attempts]
      cases b.lingers with
      | false => exact ⟨.of_eq rfl rfl, rfl, List.prefix_rfl, by simp, by simp⟩
      | true => exact ⟨hattempt.keeps, hattempt.asked, hattempt.given, by simp, by simp⟩
  | succ tries ih =>
      have hattempt := attempt_attempted b hlong hsize
      have hkept := hattempt.keeps.length.trans hsize
      have hlater := ih (b.attempt image s).2 hkept
      -- An attempt that does not end well is followed by the rest.
      have hrest : Attempted image s (b.attempts image tries (b.attempt image s).2) := by
        refine ⟨hattempt.keeps.trans hlater.keeps, hlater.asked.trans hattempt.asked,
          hattempt.given.trans hlater.given, hlater.returns, fun hok => ?_⟩
        obtain ⟨hmem, hprefix⟩ := hlater.ok hok
        obtain ⟨more, hmore⟩ := hattempt.given
        refine ⟨?_, hprefix⟩
        rw [← hmore, List.length_append, ← List.drop_drop] at hmem
        exact List.mem_of_mem_drop hmem
      rw [Bench.attempts]
      cases hdone : b.attempt image s with
      | mk result after =>
          rw [hdone] at hattempt hrest
          match result with
          | .error .panic => exact absurd rfl hattempt.returns
          | .error (.failed why) => exact hrest
          | .ok false => exact hrest
          | .ok true => exact hattempt

/-! ## The step as a whole -/

/-- What telling what the EEPROM holds comes to: the chip is left as it is, and it is told to hold
the image, to be blank or to be a Tamanu Iti only where it is. -/
structure Looked (image : List UInt8) (s : Going) (look : Except Failure Held × Going) : Prop where
  memory : look.2.world.memory = s.world.memory
  sent : look.2.world.sent = s.world.sent
  asked : look.2.asked = s.asked
  given : s.given <+: look.2.given
  returns : look.1 ≠ .error .panic
  fits : ∀ held, look.1 = .ok held → image.length ≤ Chip.SIZE
  image : look.1 = .ok .image → (∃ bytes ∈ look.2.given.drop s.given.length, image <+: bytes) ∧
    image <+: s.world.memory
  blank : look.1 = .ok .blank → ∀ byte ∈ s.world.memory, byte = 0xFF
  iti : ∀ version, look.1 = .ok (.iti version) → describe s.world.memory = some (.iti version)

/-- Bytes are always told as something, and never as the image. -/
theorem told_eq (bytes : List UInt8) :
    ∃ held, Bench.told bytes = .ok held ∧ describe bytes = some held ∧ held ≠ .image := by
  obtain ⟨held, hheld⟩ := (described bytes).returns
  refine ⟨held, by rw [Bench.told, hheld], hheld, ?_⟩
  rintro rfl
  rcases describe_cases bytes with ⟨htold, -⟩ | ⟨-, ⟨htold, -⟩ | ⟨other, htold, -, -, hinside⟩⟩
  · rw [htold] at hheld
    cases hheld
  · rw [htold] at hheld
    cases hheld
  · rw [htold] at hheld
    obtain rfl := Option.some.inj hheld
    obtain ⟨version, reserved, atoms, length, before, a, v, left, after, -, -, -, -, -, -, -, -, -,
      hsays, -⟩ := (hinside .image).mpr rfl
    rcases held_cases version v with ⟨iti, hiti⟩ | ⟨vendor, product, hother⟩
    · rw [hiti] at hsays
      cases hsays
    · rw [hother] at hsays
      cases hsays

/-- What is told of the first of the bytes to be a Tamanu Iti is told so of all of them. -/
theorem describe_of_take {bytes : List UInt8} {len : ℕ}
    (h : describe (bytes.take len) = some (.iti version)) : describe bytes = some (.iti version) := by
  have hinside := ((described (bytes.take len)).iti version).mp h
  rw [← List.take_append_drop len bytes]
  exact ((described _).iti version).mpr (hinside.append _)

/-- What is told of the first of the bytes that are not all blank is not that they are blank. -/
theorem not_blank {bytes : List UInt8} (h : ¬ bytes.all (· == 0xFF)) :
    describe bytes ≠ some .blank := by
  intro hblank
  have hall := (((described bytes).blank).mp hblank).2
  exact h (List.all_eq_true.mpr fun byte hmem => beq_iff_eq.mpr (hall byte hmem))

/-- Telling what the EEPROM holds comes to what it is to. -/
theorem held_looked (b : Bench) (image : List UInt8)
    (hsize : s.world.memory.length = Chip.SIZE) : Looked image s (b.held image s) := by
  have hhead := read_readThrough b (max image.length PEEK) s hsize
  rw [Bench.held]
  cases hread : b.read (max image.length PEEK) s with
  | mk result first =>
      rw [hread] at hhead
      rcases hhead.outcome with ⟨rfl, hfits, hgiven⟩ | ⟨why, rfl, hgiven⟩
      · have hlong : image.length ≤ Chip.SIZE := (le_max_left _ _).trans hfits
        have hprefix : s.given <+: first.given := hgiven ▸ List.prefix_append _ _
        dsimp only
        split
        · rename_i his
          have himage := List.isPrefixOf_iff_prefix.mp his
          refine ⟨hhead.memory, hhead.sent, hhead.asked, hprefix, by simp, fun _ _ => hlong,
            fun _ => ⟨⟨_, ?_, himage⟩, himage.trans (List.take_prefix _ _)⟩, by simp, by simp⟩
          dsimp only at hgiven
          rw [hgiven, List.drop_left]
          exact List.mem_singleton_self _
        · split
          · have hkept : first.world.memory.length = Chip.SIZE := by
              rw [hhead.memory]
              exact hsize
            have hwhole := read_readThrough b Chip.SIZE first hkept
            cases hsecond : b.read Chip.SIZE first with
            | mk result second =>
                rw [hsecond] at hwhole
                have hmemory : second.world.memory = s.world.memory :=
                  hwhole.memory.trans hhead.memory
                have hsent := hwhole.sent.trans hhead.sent
                have hasked := hwhole.asked.trans hhead.asked
                rcases hwhole.outcome with ⟨rfl, -, hmore⟩ | ⟨why, rfl, hmore⟩
                · have hall : first.world.memory.take Chip.SIZE = s.world.memory := by
                    rw [List.take_of_length_le hkept.le, hhead.memory]
                  obtain ⟨held, htold, hdescribe, hnot⟩ := told_eq s.world.memory
                  dsimp only
                  rw [hall, htold]
                  refine ⟨hmemory, hsent, hasked, hprefix.trans (hmore ▸ List.prefix_append _ _),
                    by simp, fun _ _ => hlong, fun hsome => ?_, fun hsome => ?_,
                    fun version hsome => ?_⟩
                  · exact absurd (Except.ok.inj hsome) hnot
                  · rw [Except.ok.inj hsome] at hdescribe
                    exact (((described _).blank).mp hdescribe).2
                  · rw [Except.ok.inj hsome] at hdescribe
                    exact hdescribe
                · exact ⟨hmemory, hsent, hasked, hprefix.trans (hmore ▸ List.prefix_rfl), by simp,
                    by simp, by simp, by simp, by simp⟩
          · rename_i hnone
            obtain ⟨held, htold, hdescribe, hnot⟩ :=
              told_eq (s.world.memory.take (max image.length PEEK))
            rw [htold]
            refine ⟨hhead.memory, hhead.sent, hhead.asked, hprefix, by simp, fun _ _ => hlong,
              fun hsome => ?_, fun hsome => ?_, fun version hsome => ?_⟩
            · exact absurd (Except.ok.inj hsome) hnot
            · rw [Except.ok.inj hsome] at hdescribe
              exact absurd hdescribe (not_blank hnone)
            · rw [Except.ok.inj hsome] at hdescribe
              exact describe_of_take hdescribe
      · exact ⟨hhead.memory, hhead.sent, hhead.asked, hgiven ▸ List.prefix_rfl, by simp, by simp,
          by simp, by simp, by simp⟩

/-- What the step may write over: a chip that is blank over its whole size, or that holds a Tamanu
Iti of the board's own version, or what was confirmed. -/
def MayWrite (b : Bench) (version : Version) (s s' : Going) : Prop :=
  (∀ byte ∈ s.world.memory, byte = 0xFF) ∨
    describe s.world.memory = some (.iti version) ∨
    ∃ text ∈ s'.asked.drop s.asked.length, b.confirms text = true

/-- What the step comes to: it returns, it passes only once the whole image was read back, and it
writes nothing but the image and over nothing it may not. -/
structure Programmed (b : Bench) (s : Going) (done : Except Failure Unit × Going) : Prop where
  returns : done.1 ≠ .error .panic
  passes : done.1 = .ok () → ∃ version image, place b.chipId = some version ∧
    b.files (imageName version) = .ok image ∧
    (∃ bytes ∈ done.2.given.drop s.given.length, image <+: bytes) ∧
    image <+: done.2.world.memory
  writes : (done.2.world.memory = s.world.memory ∧ done.2.world.sent = s.world.sent) ∨
    ∃ version image, place b.chipId = some version ∧
      b.files (imageName version) = .ok image ∧ Chip.Keeps image s.world done.2.world ∧
      MayWrite b version s done.2

/-- What may be written over is what was told to be so, or what was confirmed. -/
theorem clear_mayWrite {held : Held} {look : Going}
    (hlook : Looked image s (.ok held, look)) (hclear : b.clear version held look = (true, s')) :
    s'.world = look.world ∧ s'.given = look.given ∧ MayWrite b version s s' := by
  have hask : ∀ other, b.ask version other look = (true, s') →
      s'.world = look.world ∧ s'.given = look.given ∧ MayWrite b version s s' := by
    intro other hask
    obtain ⟨hconfirmed, rfl⟩ := Prod.mk.inj hask
    refine ⟨rfl, rfl, .inr (.inr ⟨_, ?_, hconfirmed⟩)⟩
    have hasked : look.asked = s.asked := hlook.asked
    dsimp only
    rw [hasked, List.drop_left]
    exact List.mem_singleton_self _
  cases held with
  | blank =>
      obtain ⟨-, rfl⟩ := Prod.mk.inj hclear
      exact ⟨rfl, rfl, .inl (hlook.blank rfl)⟩
  | iti other =>
      rw [Bench.clear] at hclear
      split at hclear
      · rename_i hsame
        obtain ⟨-, rfl⟩ := Prod.mk.inj hclear
        exact ⟨rfl, rfl, .inr (.inl (hsame ▸ hlook.iti other rfl))⟩
      · exact hask _ hclear
  | image => exact hask _ hclear
  | other vendor product => exact hask _ hclear
  | unrecognised => exact hask _ hclear

/-- Asking changes nothing of the chip. -/
theorem clear_world (b : Bench) (version : Version) (held : Held) (s : Going) :
    (b.clear version held s).2.world = s.world := by
  unfold Bench.clear
  split
  · rfl
  · split <;> rfl
  · rfl

/-- Writing where it may be comes to what it is to. -/
theorem put_programmed {held : Held} {look : Going} (hplace : place b.chipId = some version)
    (hfile : b.files (imageName version) = .ok image)
    (hlook : Looked image s (.ok held, look)) (hsize : s.world.memory.length = Chip.SIZE) :
    Programmed b s (b.put version image held look) := by
  have hmemory : look.world.memory = s.world.memory := hlook.memory
  have hsent : look.world.sent = s.world.sent := hlook.sent
  have hlooked : s.given <+: look.given := hlook.given
  rw [Bench.put]
  cases hclear : b.clear version held look with
  | mk may asked =>
      cases may with
      | false =>
          have hworld := clear_world b version held look
          rw [hclear] at hworld
          refine ⟨by simp, by simp, .inl ?_⟩
          dsimp only at hworld ⊢
          rw [hworld]
          exact ⟨hmemory, hsent⟩
      | true =>
          obtain ⟨hworld, hgiven, hmay⟩ := clear_mayWrite hlook hclear
          have hlong := hlook.fits held rfl
          have hdone := attempts_attempted b hlong b.tries asked
            (by rw [hworld, hmemory]; exact hsize)
          dsimp only
          cases hattempts : b.attempts image b.tries asked with
          | mk result after =>
              rw [hattempts] at hdone
              have hstill : after.asked = asked.asked := hdone.asked
              have hkeeps : Chip.Keeps image s.world after.world :=
                Chip.Keeps.trans (.of_eq (by rw [hworld, hmemory]) (by rw [hworld, hsent]))
                  hdone.keeps
              have hwrites : (after.world.memory = s.world.memory ∧
                  after.world.sent = s.world.sent) ∨
                  ∃ version image, place b.chipId = some version ∧
                    b.files (imageName version) = .ok image ∧
                    Chip.Keeps image s.world after.world ∧ MayWrite b version s after := by
                refine .inr ⟨version, image, hplace, hfile, hkeeps, ?_⟩
                rw [MayWrite, hstill]
                exact hmay
              match result with
              | .error failure =>
                  refine ⟨fun hpanic => hdone.returns ?_, by simp, hwrites⟩
                  rw [Except.error.inj hpanic]
              | .ok false => exact ⟨by simp, by simp, hwrites⟩
              | .ok true =>
                  obtain ⟨hmem, hprefix⟩ := hdone.ok rfl
                  refine ⟨by simp, fun _ => ⟨version, image, hplace, hfile, ⟨image, ?_,
                    List.prefix_rfl⟩, hprefix⟩, hwrites⟩
                  obtain ⟨more, hmore⟩ := hlooked
                  rw [hgiven, ← hmore, List.length_append, ← List.drop_drop] at hmem
                  exact List.mem_of_mem_drop hmem

/-- The step comes to what it is to. -/
theorem run_programmed (b : Bench) (s : Going) (hsize : s.world.memory.length = Chip.SIZE) :
    Programmed b s (b.run s) := by
  rw [Bench.run]
  cases hplace : place b.chipId with
  | none => exact ⟨by simp, by simp, .inl ⟨rfl, rfl⟩⟩
  | some version =>
      dsimp only
      cases himage : b.image version with
      | error why => exact ⟨by simp, by simp, .inl ⟨rfl, rfl⟩⟩
      | ok image =>
          have hfile : b.files (imageName version) = .ok image := by
            rw [Bench.image] at himage
            cases hfile : b.files (imageName version) with
            | ok bytes =>
                rw [hfile] at himage
                dsimp only at himage
                rw [Except.ok.inj himage]
            | error error =>
                rw [hfile] at himage
                cases error <;> cases himage
          have hlook := held_looked b image hsize
          dsimp only
          cases hheld : b.held image s with
          | mk result look =>
              rw [hheld] at hlook
              match result with
              | .error .panic => exact absurd rfl hlook.returns
              | .error (.failed why) => exact ⟨by simp, by simp, .inl ⟨hlook.memory, hlook.sent⟩⟩
              | .ok .image =>
                  obtain ⟨hread, hholds⟩ := hlook.image rfl
                  refine ⟨by simp, fun _ => ⟨version, image, hplace, hfile, hread, ?_⟩,
                    .inl ⟨hlook.memory, hlook.sent⟩⟩
                  exact hlook.memory ▸ hholds
              | .ok .blank => exact put_programmed hplace hfile hlook hsize
              | .ok (.iti other) => exact put_programmed hplace hfile hlook hsize
              | .ok (.other vendor product) => exact put_programmed hplace hfile hlook hsize
              | .ok .unrecognised => exact put_programmed hplace hfile hlook hsize

/-- The chip's writes and reads come to what they are to, and so does the step. -/
theorem programs (b : Bench) (s : Going) (hsize : s.world.memory.length = Chip.SIZE) :
    (∀ image : List UInt8, image.length ≤ Chip.SIZE →
      Chip.WritesImage image s.world (Chip.write b.turns s.world image)) ∧
    (∀ len ≤ Chip.SIZE, Chip.ReadsFirst b.turns s.world len (Chip.read b.turns s.world len)) ∧
    Programmed b s (b.run s) :=
  ⟨fun _ hlong => Chip.write_writesImage b.turns hlong hsize,
    fun _ hlong => Chip.read_readsFirst b.turns hlong hsize, run_programmed b s hsize⟩

/-- A blank chip, and a medium that carries an image for the board's version. -/
def blankBench : Bench where
  chipId := .ok BME680
  files := fun _ => .ok [0x52]
  opens := fun _ => none
  turns := fun _ => { refusal := none, ended := true, guarded := false, stays := 0 }
  confirms := fun _ => false
  tries := 1
  lingers := false

/-- The step where it starts on a blank chip. -/
def blankGoing : Going where
  world := { memory := List.replicate Chip.SIZE 0xFF, cycling := false, clock := 0, sent := [] }
  opened := 0
  given := []
  asked := []

/-- The step comes to what it is to on a blank chip. -/
theorem programs_blank : Programmed blankBench blankGoing (blankBench.run blankGoing) :=
  (programs blankBench blankGoing List.length_replicate).2.2

/-! ## Carried out again -/

/-- What starts with the image is told to hold it, or cannot be read. -/
theorem held_of_prefix (b : Bench) (hsize : s.world.memory.length = Chip.SIZE)
    (hholds : image <+: s.world.memory) :
    (b.held image s).1 = .ok .image ∨ ∃ why, (b.held image s).1 = .error (.failed why) := by
  have hhead := read_readThrough b (max image.length PEEK) s hsize
  rw [Bench.held]
  cases hread : b.read (max image.length PEEK) s with
  | mk result first =>
      rw [hread] at hhead
      rcases hhead.outcome with ⟨rfl, -, -⟩ | ⟨why, rfl, -⟩
      · have his : image <+: s.world.memory.take (max image.length PEEK) :=
          List.prefix_take_iff.mpr ⟨hholds, le_max_left _ _⟩
        simp only [List.isPrefixOf_iff_prefix.mpr his, if_true, true_or]
      · exact .inr ⟨why, rfl⟩

/-- Where the chip holds the image already, the step writes nothing and asks nothing. -/
theorem run_of_holds (b : Bench) (hsize : s.world.memory.length = Chip.SIZE)
    (hholds : ∀ version image, place b.chipId = some version →
      b.files (imageName version) = .ok image → image <+: s.world.memory) :
    (b.run s).2.world.memory = s.world.memory ∧ (b.run s).2.world.sent = s.world.sent ∧
      (b.run s).2.asked = s.asked := by
  unfold Bench.run
  cases hplace : place b.chipId with
  | none => exact ⟨rfl, rfl, rfl⟩
  | some version =>
      dsimp only
      cases hfile : b.files (imageName version) with
      | error error => cases error <;> simp [Bench.image, hfile]
      | ok image =>
          have hlook := held_looked b image hsize
          have hkept := And.intro hlook.memory (And.intro hlook.sent hlook.asked)
          simp only [Bench.image, hfile]
          cases hheld : b.held image s with
          | mk result look =>
              have htold := held_of_prefix b hsize (hholds version image hplace hfile)
              rw [hheld] at htold hkept
              rcases htold with rfl | ⟨why, rfl⟩
              · exact hkept
              · exact hkept

/-- Once the step has passed, carrying it out again, however often, and wherever each reading and
file may fail, writes nothing to the chip and asks nothing, where a board placed again finds the
image it found. -/
theorem passed_again {b : Bench} {s : Going} (hsize : s.world.memory.length = Chip.SIZE)
    (hpassed : (b.run s).1 = .ok ()) {benches : List Bench}
    (hsame : ∀ other ∈ benches, ∀ version image, place other.chipId = some version →
      other.files (imageName version) = .ok image →
        place b.chipId = some version ∧ b.files (imageName version) = .ok image) :
    let passed := (b.run s).2
    let last := benches.foldl (fun s other => (other.run s).2) passed
    last.world.memory = passed.world.memory ∧ last.world.sent = passed.world.sent ∧
      last.asked = passed.asked := by
  have hdone := run_programmed b s hsize
  obtain ⟨version, image, hplace, hfile, -, hholds⟩ := hdone.passes hpassed
  have hlength : (b.run s).2.world.memory.length = Chip.SIZE := by
    rcases hdone.writes with ⟨hmemory, -⟩ | ⟨_, _, -, -, hkeeps, -⟩
    · rw [hmemory, hsize]
    · rw [hkeeps.length, hsize]
  dsimp only
  generalize (b.run s).2 = passed at hholds hlength
  induction benches generalizing passed with
  | nil => exact ⟨rfl, rfl, rfl⟩
  | cons other rest ih =>
      obtain ⟨hother, hrest⟩ := List.forall_mem_cons.mp hsame
      obtain ⟨hmemory, hsent, hasked⟩ := run_of_holds other hlength fun version' image' hat hread => by
        obtain ⟨hsome, hfound⟩ := hother version' image' hat hread
        obtain rfl := Option.some.inj (hplace.symm.trans hsome)
        obtain rfl := Except.ok.inj (hfile.symm.trans hfound)
        exact hholds
      obtain ⟨hlater, hmore, hstill⟩ := ih hrest (other.run passed).2 (hmemory ▸ hholds)
        (hmemory ▸ hlength)
      exact ⟨hlater.trans hmemory, hmore.trans hsent, hstill.trans hasked⟩

/-- A blank chip, and a medium whose image is a byte such a chip holds. -/
def heldBench : Bench :=
  { blankBench with files := fun _ => .ok [0xFF] }

/-- Carried out twice more on a chip that holds the image, the step writes nothing. -/
theorem passed_again_held :
    let passed := (heldBench.run blankGoing).2
    let last := [heldBench, heldBench].foldl (fun s other => (other.run s).2) passed
    last.world.memory = passed.world.memory := by
  have hsize : blankGoing.world.memory.length = Chip.SIZE := List.length_replicate
  have hholds : [0xFF] <+: blankGoing.world.memory :=
    ⟨_, (List.replicate_succ (n := Chip.SIZE - 1)).symm⟩
  have hreads := Chip.read_readsFirst heldBench.turns (by decide : max 1 PEEK ≤ Chip.SIZE) hsize
  obtain ⟨bytes, hread⟩ := hreads.answered rfl fun _ => rfl
  have hprefix : [0xFF] <+: bytes := by
    rw [hreads.ok bytes hread]
    exact List.prefix_take_iff.mpr ⟨hholds, le_max_left 1 PEEK⟩
  have hpassed : (heldBench.run blankGoing).1 = .ok () := by
    have hplace : place (.ok BME680) = some { major := 4, minor := 0 } := by decide
    simp only [heldBench, blankBench] at hread
    simp [Bench.run, hplace, Bench.image, Bench.held, Bench.read, Bench.withBus, heldBench,
      blankBench, hread, hprefix]
  refine (passed_again (b := heldBench) hsize hpassed fun other hmem version image hplace hfile => ?_).1
  simp only [List.mem_cons, List.not_mem_nil, or_false, or_self] at hmem
  rw [hmem] at hplace hfile
  exact ⟨hplace, hfile⟩

end Bliti.Provision.Steps.Eeprom
