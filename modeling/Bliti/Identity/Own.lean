import Bliti.Identity

/-!
# Establishing a device's own keys - or none

A start takes its keys from the cache it finds or derives them from the board it is on.  It sees of
the cache whose it is only by the platform serial and the kind of the strongest source, so that the
cache of another board may be taken for its own where the serial is not read.

Main results:

- Theorem `own_iff`: when a start establishes its board's own keys.
-/

namespace Bliti.Establishing

open Board
open Transition (System)

/-! ## What a start comes to -/

section Runs

variable {ι κ : Type} {tpm : Bool} {derive : BoardId → Except KeyError Root}
  {deviceKeys : Root → κ} {board : ι} {start : Start ι} {disk : Disk ι} {serial : PlatformSerial}
  {reads : List SourceKind}

/-- What a derivation leaves on disk, and what it returns. -/
structure Rederived (tpm : Bool) (derive : BoardId → Except KeyError Root) (deviceKeys : Root → κ)
    (board : ι) (start : Start ι) (disk : Disk ι) (serial : PlatformSerial)
    (started : Started ι κ) : Prop where
  returned : ∀ identity, started.returned = some (.ok identity) → identity.derived = true ∧
    ∃ boardId root reads, select (sources tpm start.selected) = (.ok boardId, reads) ∧
      derive boardId = .ok root ∧ identity.keys = deviceKeys root
  alive : ∀ cached found, started.returned ≠ some (.error (.qrDead cached found))
  cache : started.disk.cache = disk.cache ∨
    ∃ boardId root reads, select (sources tpm start.selected) = (.ok boardId, reads) ∧
      derive boardId = .ok root ∧ started.disk.cache = .file (.of boardId serial root) board

/-- A start that fails before it writes derives nothing. -/
theorem Rederived.of_error {err : IdentityError} (halive : ∀ cached found, err ≠ .qrDead cached found) :
    Rederived tpm derive deviceKeys board start disk serial
      { returned := some (.error err), disk := disk, reads := reads } where
  returned := fun _ hreturned => nomatch hreturned
  alive := fun cached found hdead =>
    halive cached found (Except.error.inj (Option.some.inj hdead))
  cache := .inl rfl

/-- Rederiving derives from what is selected. -/
theorem rederive_rederived :
    Rederived tpm derive deviceKeys board start disk serial
      (rederive tpm derive deviceKeys board start disk serial reads) := by
  unfold rederive
  rcases hselect : select (sources tpm start.selected) with ⟨err | boardId, read⟩
  · exact .of_error fun _ _ => nofun
  · cases hmemory : checkMemory start.availableMemory with
    | error err => simpa only [hmemory] using .of_error fun _ _ => nofun
    | ok room =>
        cases hderive : derive boardId with
        | error err => simpa only [hmemory, hderive] using .of_error fun _ _ => nofun
        | ok root =>
            simp only [hderive]
            obtain ⟨hcache, hfailed⟩ :=
              writeCache_written disk start.writing board (.of boardId serial root)
            rcases hwrite : writeCache disk start.writing board (.of boardId serial root) with
              ⟨written, left⟩
            rw [hwrite] at hcache hfailed
            dsimp only at hcache hfailed ⊢
            constructor
            · intro identity hreturned
              rcases written with _ | err | done
              · cases hreturned
              · cases hreturned
              · obtain rfl := Except.ok.inj (Option.some.inj hreturned)
                exact ⟨rfl, boardId, root, read, hselect, hderive, rfl⟩
            · intro cached found hdead
              rcases written with _ | err | done
              · cases hdead
              · obtain ⟨message, rfl⟩ := hfailed err rfl
                cases hdead
              · cases hdead
            · rcases hcache with hsame | hnew
              · exact .inl hsame
              · exact .inr ⟨boardId, root, read, hselect, hderive, hnew⟩

/-- What a start compares was read: the serial, and the cache of a board. -/
theorem found_of_compares {kind : SourceKind} {state : CacheState} {root : Root} {on : ι}
    (hcompares : start.compares tpm disk = some (serial, kind, state, root, on)) :
    (platformSerial (sources tpm start.serial)).1 = .ok serial ∧
      ∃ file, disk.cache = .file file on ∧ file.read = some (state, root) := by
  unfold Start.compares at hcompares
  split at hcompares
  · rename_i found kind' file board' hguard hserial hstrongest hfile
    obtain ⟨⟨state', root'⟩, hread, hsame⟩ := Option.map_eq_some_iff.mp hcompares
    obtain ⟨rfl, rfl, rfl, rfl, rfl⟩ : found = serial ∧ kind' = kind ∧ state' = state ∧
        root' = root ∧ board' = on := by simpa using hsame
    unfold Start.found at hfile
    split at hfile
    · cases hfile
    · exact ⟨hserial, file, hfile, hread⟩
  · cases hcompares

/-- What a start that compares comes to, by what is decided. -/
theorem establish_of_compares {kind : SourceKind} {state : CacheState} {root : Root} {on : ι}
    (hcompares : start.compares tpm disk = some (serial, kind, state, root, on)) :
    establish tpm derive deviceKeys board start disk =
      match evaluateCache (some state) serial (some kind) with
      | .fresh => {
          returned := some (.ok {
            keys := deviceKeys root
            kind := state.boardIdKind
            derived := false })
          disk := disk
          reads := (platformSerial (sources tpm start.serial)).2 }
      | .qrDead => {
          returned := some (.error (.qrDead (some state.boardIdKind) (some kind)))
          disk := disk
          reads := (platformSerial (sources tpm start.serial)).2 }
      | .rederive =>
          rederive tpm derive deviceKeys board start disk serial
            (platformSerial (sources tpm start.serial)).2 := by
  unfold Start.compares at hcompares
  split at hcompares
  · rename_i found kind' file board' hguard hserial hstrongest hfile
    obtain ⟨⟨state', root'⟩, hread, hsame⟩ := Option.map_eq_some_iff.mp hcompares
    obtain ⟨rfl, rfl, rfl, rfl, -⟩ : found = serial ∧ kind' = kind ∧ state' = state ∧
        root' = root ∧ board' = on := by simpa using hsame
    rcases hpair : platformSerial (sources tpm start.serial) with ⟨serialRead, serialReads⟩
    rw [hpair] at hserial
    dsimp only at hserial
    subst hserial
    unfold establish
    simp only [hguard, hpair, hstrongest, hfile, readCache, hread, Option.map_some]
    cases evaluateCache (some state') found (some kind') <;> rfl
  · cases hcompares

/-- A start that compares nothing fails, or derives. -/
theorem establish_of_not_compares (hcompares : start.compares tpm disk = none) :
    (∃ err reads, establish tpm derive deviceKeys board start disk =
      { returned := some (.error err), disk := disk, reads := reads }) ∨
    ∃ serial reads, (platformSerial (sources tpm start.serial)).1 = .ok serial ∧
      establish tpm derive deviceKeys board start disk =
        rederive tpm derive deviceKeys board start disk serial reads := by
  rcases hpair : platformSerial (sources tpm start.serial) with ⟨serialRead, serialReads⟩
  unfold establish
  rw [hpair]
  cases hguard : guardUnreadableSources tpm start.nodes with
  | error err => exact .inl ⟨err, [], rfl⟩
  | ok guarded =>
      rcases serialRead with err | serial
      · exact .inl ⟨err, serialReads, rfl⟩
      · cases hstrongest : strongestPresent (sources tpm start.strongest) with
        | error err => exact .inl ⟨.boardId err, serialReads, rfl⟩
        | ok strongest =>
            cases hcache : readCache (start.found disk) with
            | error err => exact .inl ⟨err, serialReads, rfl⟩
            | ok cached =>
                refine .inr ⟨serial, serialReads, rfl, ?_⟩
                have hnothing : cached = none ∨ strongest = none := by
                  by_contra hboth
                  obtain ⟨hcached, hpresent⟩ := not_or.mp hboth
                  obtain ⟨⟨state, root⟩, rfl⟩ := Option.ne_none_iff_exists'.mp hcached
                  obtain ⟨kind, rfl⟩ := Option.ne_none_iff_exists'.mp hpresent
                  cases hfound : start.found disk with
                  | absent => simp [hfound, readCache] at hcache
                  | unreadable message => simp [hfound, readCache] at hcache
                  | misshapen => simp [hfound, readCache] at hcache
                  | file file on =>
                      simp only [hfound, readCache, Except.ok.injEq] at hcache
                      simp [Start.compares, hguard, hpair, hstrongest, hfound, hcache] at hcompares
                rcases hnothing with rfl | rfl
                · rfl
                · cases cached <;> rfl

/-! ## What holds of every run -/

/-- What holds of the cache: where it applies, it was written by a derivation from a source value of
the board it was written on, whose serial it records if any. -/
def Kept (derive : BoardId → Except KeyError Root) (values : ι → SourceKind → Option (List UInt8))
    (disk : Disk ι) : Prop :=
  ∀ file on state root, disk.cache = .file file on → file.read = some (state, root) →
    (∃ boardId, values on boardId.kind = some boardId.bytes ∧ derive boardId = .ok root) ∧
      ∀ bytes, state.platformSerial = some bytes → values on .raspberryPiSerial = some bytes

variable {values : ι → SourceKind → Option (List UInt8)}

/-- A derivation on a board leaves a cache of it, or as it was. -/
theorem Kept.rederived (hkept : Kept derive values disk) (hon : start.On (values board))
    {started : Started ι κ} (hserial : (platformSerial (sources tpm start.serial)).1 = .ok serial)
    (hrederived : Rederived tpm derive deviceKeys board start disk serial started) :
    Kept derive values started.disk := by
  intro file on state root hcache hread
  rcases hrederived.cache with hsame | ⟨boardId, derived, reads, hselect, hderive, hnew⟩
  · rw [hsame] at hcache
    exact hkept file on state root hcache hread
  · rw [hnew] at hcache
    obtain ⟨rfl, rfl⟩ := Contents.file.inj hcache
    rw [CacheFile.read_of] at hread
    obtain ⟨rfl, rfl⟩ := Prod.mk.inj (Option.some.inj hread)
    refine ⟨⟨boardId, selected_of_reads hon.selected hselect, hderive⟩, ?_⟩
    rintro bytes rfl
    exact serial_of_reads hon.serial hserial

/-- A start leaves on disk what establishing its keys does, whether or not it ends first. -/
@[simp]
theorem run_disk : (start.run tpm derive deviceKeys board disk).disk =
    (establish tpm derive deviceKeys board start disk).disk := by
  unfold Start.run
  dsimp only
  split_ifs <;> rfl

/-- It reads the same. -/
@[simp]
theorem run_reads : (start.run tpm derive deviceKeys board disk).reads =
    (establish tpm derive deviceKeys board start disk).reads := by
  unfold Start.run
  dsimp only
  split_ifs <;> rfl

/-- What it returns, establishing its keys returned. -/
theorem returned_of_run {returned : Except IdentityError (Identity κ)}
    (hreturned : (start.run tpm derive deviceKeys board disk).returned = some returned) :
    (establish tpm derive deviceKeys board start disk).returned = some returned ∧
      start.ends = false := by
  unfold Start.run at hreturned
  dsimp only at hreturned
  split_ifs at hreturned with hends
  exact ⟨hreturned, Bool.eq_false_iff.mpr hends⟩

/-- It returns what establishing its keys did, unless it ends first. -/
theorem run_of_returns (hends : start.ends = false) :
    start.run tpm derive deviceKeys board disk = establish tpm derive deviceKeys board start disk := by
  unfold Start.run
  rw [hends]
  rfl

/-- A start keeps what holds of the cache. -/
theorem Kept.run (hkept : Kept derive values disk) (hon : start.On (values board)) :
    Kept derive values (start.run tpm derive deviceKeys board disk).disk := by
  rw [run_disk]
  rcases hcompares : start.compares tpm disk with _ | ⟨serial, kind, state, root, on⟩
  · rcases establish_of_not_compares hcompares with ⟨err, reads, hfails⟩ |
      ⟨serial, reads, hserial, hderives⟩
    · rw [hfails]
      exact hkept
    · rw [hderives]
      exact hkept.rederived hon hserial rederive_rederived
  · rw [establish_of_compares hcompares]
    obtain ⟨hserial, -⟩ := found_of_compares hcompares
    cases evaluateCache (some state) serial (some kind) with
    | fresh => exact hkept
    | qrDead => exact hkept
    | rederive => exact hkept.rederived hon hserial rederive_rederived

/-- What holds of the cache, holds of it over every run. -/
theorem kept_of_reachable (hreach : (carrying tpm derive deviceKeys values).Reachable disk) :
    Kept derive values disk := by
  induction hreach with
  | start hinit =>
      intro file on state root hcache hread
      exact absurd (by rw [hcache, readCache, hread]) (hinit (state, root))
  | next _ hstep hkept =>
      obtain ⟨hon, rfl⟩ := hstep
      exact hkept.run hon

/-! ## A board's own keys -/

/-- What returns keys took them from the cache it compared, or derived them. -/
theorem establish_ok {identity : Identity κ}
    (hreturned : (establish tpm derive deviceKeys board start disk).returned = some (.ok identity)) :
    (∃ serial kind state root on, start.compares tpm disk = some (serial, kind, state, root, on) ∧
      evaluateCache (some state) serial (some kind) = .fresh ∧ identity.keys = deviceKeys root ∧
      (establish tpm derive deviceKeys board start disk).reads =
        (platformSerial (sources tpm start.serial)).2) ∨
    identity.derived = true ∧
      ∃ boardId root reads, select (sources tpm start.selected) = (.ok boardId, reads) ∧
        derive boardId = .ok root ∧ identity.keys = deviceKeys root := by
  rcases hcompares : start.compares tpm disk with _ | ⟨serial, kind, state, root, on⟩
  · rcases establish_of_not_compares hcompares with ⟨err, reads, hfails⟩ |
      ⟨serial, reads, -, hderives⟩
    · rw [hfails] at hreturned
      cases hreturned
    · rw [hderives] at hreturned
      exact .inr (rederive_rederived.returned identity hreturned)
  · have hestablish : establish tpm derive deviceKeys board start disk = _ :=
      establish_of_compares hcompares
    cases hdecision : evaluateCache (some state) serial (some kind) with
    | fresh =>
        rw [hdecision] at hestablish
        dsimp only at hestablish
        rw [hestablish] at hreturned ⊢
        obtain rfl := Except.ok.inj (Option.some.inj hreturned)
        exact .inl ⟨serial, kind, state, root, on, rfl, hdecision, rfl, rfl⟩
    | qrDead =>
        rw [hestablish, hdecision] at hreturned
        cases hreturned
    | rederive =>
        rw [hestablish, hdecision] at hreturned
        exact .inr (rederive_rederived.returned identity hreturned)

/-- A start that can tell whose cache it compares establishes its board's own keys. -/
theorem own_of_telling
    (hserials : ∀ i j bytes, values i .raspberryPiSerial = some bytes →
      values j .raspberryPiSerial = some bytes → i = j)
    (hkept : Kept derive values disk) (hon : start.On (values board))
    (htelling : Telling tpm board start disk) : Own tpm derive deviceKeys values board start disk := by
  constructor
  · intro identity hreturned
    obtain ⟨hestablished, hends⟩ := returned_of_run hreturned
    rcases establish_ok hestablished with
      ⟨serial, kind, state, root, on, hcompares, hfresh, hkeys, -⟩ |
      ⟨hderived, boardId, root, reads, hselect, hderive, hkeys⟩
    · obtain ⟨hserial, file, hcache, hread⟩ := found_of_compares hcompares
      obtain ⟨found, hstate, hkind, hsame⟩ := evaluateCache_fresh hfresh
      obtain rfl := Option.some.inj hstate
      obtain ⟨⟨boardId, hvalue, hderive⟩, hrecorded⟩ := hkept file on state root hcache hread
      have hboard : on = board := by
        by_contra hother
        rcases serial with _ | bytes
        · exact (htelling _ _ _ _ _ hends hcompares).1 hother rfl (Option.some.inj hkind)
        · exact hother (hserials on board bytes (hrecorded bytes (hsame rfl).symm)
            (serial_of_reads hon.serial hserial))
      subst hboard
      exact ⟨⟨boardId, root, hvalue, hderive, hkeys⟩, fun _ => ⟨file, hcache⟩⟩
    · refine ⟨⟨boardId, root, selected_of_reads hon.selected hselect, hderive, hkeys⟩, ?_⟩
      intro hnot
      rw [hderived] at hnot
      cases hnot
  · intro serial kind state root hends hcompares hkind
    obtain ⟨hserial, file, hcache, hread⟩ := found_of_compares hcompares
    obtain ⟨-, hrecorded⟩ := hkept file board state root hcache hread
    have hsome : state.platformSerial ≠ none := fun hnone =>
      hkind ((htelling _ _ _ _ _ hends hcompares).2 rfl (by simp) hnone)
    obtain ⟨recorded, hstate⟩ := Option.ne_none_iff_exists'.mp hsome
    have hsame : some serial = state.platformSerial := by
      rw [hstate, ← hrecorded recorded hstate]
      exact (serial_of_reads hon.serial hserial).symm
    have hdead : evaluateCache (some state) (some serial) (some kind) = .qrDead := by
      simp [evaluateCache, hsame, hkind, hstate]
    rw [run_of_returns hends, establish_of_compares hcompares, hdead]
    exact ⟨rfl, rfl⟩
  · intro serial kind state root on other hcompares hother hne
    have hrederive : evaluateCache (some state) (some serial) (some kind) = .rederive := by
      simp [evaluateCache, hother, Ne.symm hne]
    have hestablish : establish tpm derive deviceKeys board start disk = _ :=
      establish_of_compares hcompares
    rw [hrederive] at hestablish
    dsimp only at hestablish
    constructor
    · intro cached found hdead
      obtain ⟨hestablished, -⟩ := returned_of_run hdead
      rw [hestablish] at hestablished
      exact rederive_rederived.alive cached found hestablished
    · intro identity hreturned
      obtain ⟨hestablished, -⟩ := returned_of_run hreturned
      rw [hestablish] at hestablished
      exact (rederive_rederived.returned identity hestablished).1
  · intro identity hreturned hcached
    obtain ⟨hestablished, -⟩ := returned_of_run hreturned
    rcases establish_ok hestablished with ⟨_, _, _, _, _, -, -, -, hreads⟩ | ⟨hderived, -⟩
    · rw [run_reads, hreads]
      exact platformSerial_reads _
    · rw [hderived] at hcached
      cases hcached

/-- A start that establishes its board's own keys could tell whose cache it compared. -/
theorem telling_of_own (hown : Own tpm derive deviceKeys values board start disk) :
    Telling tpm board start disk := by
  intro serial kind state root on hends hcompares
  obtain ⟨-, file, hcache, -⟩ := found_of_compares hcompares
  have hestablish : establish tpm derive deviceKeys board start disk = _ :=
    establish_of_compares hcompares
  rw [← run_of_returns hends] at hestablish
  constructor
  · rintro hother rfl rfl
    have hfresh : evaluateCache (some state) none (some state.boardIdKind) = .fresh := by
      simp [evaluateCache]
    rw [hfresh] at hestablish
    dsimp only at hestablish
    obtain ⟨written, hwritten⟩ := (hown.keys _ (by rw [hestablish])).2 rfl
    rw [hcache] at hwritten
    exact hother (Contents.file.inj hwritten).2
  · rintro rfl hread hnone
    obtain ⟨bytes, rfl⟩ := Option.ne_none_iff_exists'.mp hread
    by_contra hkind
    have hrederive : evaluateCache (some state) (some bytes) (some kind) = .rederive := by
      simp [evaluateCache, hnone]
    rw [hrederive] at hestablish
    dsimp only at hestablish
    have hdead := (hown.reported bytes kind state root hends hcompares hkind).1
    rw [hestablish] at hdead
    exact rederive_rederived.alive _ _ hdead

/-- Over any run of starts, on boards whose platform serials differ, a start establishes its board's
own keys exactly where it can tell whose cache it compares. -/
theorem own_iff
    (hserials : ∀ i j bytes, values i .raspberryPiSerial = some bytes →
      values j .raspberryPiSerial = some bytes → i = j)
    (hreach : (carrying tpm derive deviceKeys values).Reachable disk)
    (hon : start.On (values board)) :
    Own tpm derive deviceKeys values board start disk ↔ Telling tpm board start disk :=
  ⟨telling_of_own, own_of_telling hserials (kept_of_reachable hreach) hon⟩

end Runs

/-! ## Two boards -/

/-- Two boards whose customer memory is written, of which the second offers no platform serial. -/
def boards : Bool → SourceKind → Option (List UInt8)
  | false, .oneTimeProgrammable => some [1]
  | false, .raspberryPiSerial => some [9]
  | true, .oneTimeProgrammable => some [2]
  | _, _ => none

/-- No two of their sources have one value. -/
theorem boards_distinct (i j : Bool) (kind kind' : SourceKind) (bytes : List UInt8)
    (hi : boards i kind = some bytes) (hj : boards j kind' = some bytes) : i = j ∧ kind = kind' := by
  have hsame : boards i kind = boards j kind' := hi.trans hj.symm
  have hsome : boards i kind ≠ none := by
    rw [hi]
    exact Option.some_ne_none bytes
  clear hi hj
  revert hsome hsame
  cases i <;> cases j <;> cases kind <;> cases kind' <;> decide

/-- A derivation that keeps the first byte of what it derives from. -/
def firstByte (boardId : BoardId) : Except KeyError Root :=
  .ok { bytes := List.replicate rootLen (boardId.bytes.headD 0), length_eq := List.length_replicate }

/-- What a board's sources answer. -/
def answersOf (values : SourceKind → Option (List UInt8)) (kind : SourceKind) : Answer :=
  match values kind with
  | some bytes => { probe := .ok .present, read := .ok bytes }
  | none => { probe := .ok .absent, read := .error (.backend kind "not there") }

/-- A start on one of them that nothing goes wrong in. -/
def plainStart (board : Bool) : Start Bool where
  nodes := []
  serial := answersOf (boards board)
  strongest := answersOf (boards board)
  selected := answersOf (boards board)
  unreadable := none
  availableMemory := rootMemoryBytes
  writing := { createDir := .done, write := .done, left := .absent, restrict := .done, rename := .done }
  ends := false

theorem answersOf_reads (values : SourceKind → Option (List UInt8)) :
    ReadsOf values (answersOf values) := by
  intro kind bytes hread
  unfold answersOf at hread
  split at hread
  · rename_i found hvalue
    rw [hvalue, Except.ok.inj hread]
  · cases hread

theorem plainStart_on (board : Bool) : (plainStart board).On (boards board) :=
  ⟨answersOf_reads _, answersOf_reads _⟩

/-- The medium before any start. -/
def blank : Disk Bool where
  cache := .absent
  temporary := .absent

/-- The medium once the first board has started. -/
def started : Disk Bool :=
  ((plainStart false).run false firstByte Root.bytes false blank).disk

theorem started_reachable : (carrying false firstByte Root.bytes boards).Reachable started := by
  have hblank : (carrying false firstByte Root.bytes boards).Reachable blank :=
    .start fun _ hcached => nomatch hcached
  exact .next (a := (false, plainStart false)) hblank ⟨plainStart_on false, rfl⟩

/-- The first board starts again from the cache of its own start. -/
theorem own_again :
    Own false firstByte Root.bytes boards false (plainStart false) started := by
  have hserials : ∀ i j bytes, boards i .raspberryPiSerial = some bytes →
      boards j .raspberryPiSerial = some bytes → i = j :=
    fun i j bytes hi hj => (boards_distinct i j _ _ bytes hi hj).1
  refine (own_iff hserials started_reachable (plainStart_on false)).mpr ?_
  intro serial kind state root on _ hcompares
  have hfound : (plainStart false).compares false started = some (some [9], .oneTimeProgrammable,
      { boardIdKind := .oneTimeProgrammable, platformSerial := some [9] },
      { bytes := List.replicate rootLen 1, length_eq := List.length_replicate }, false) := by
    decide
  rw [hfound] at hcompares
  cases Option.some.inj hcompares
  simp

/-- The medium moved to the second board, it starts with the keys of the first. -/
theorem not_own : ¬ ∀ (values : Bool → SourceKind → Option (List UInt8)) (disk : Disk Bool)
    (board : Bool) (start : Start Bool),
    (∀ i j kind kind' bytes, values i kind = some bytes → values j kind' = some bytes →
      i = j ∧ kind = kind') →
    (carrying false firstByte Root.bytes values).Reachable disk → start.On (values board) →
    Own false firstByte Root.bytes values board start disk := by
  intro hall
  have hown := hall boards started true (plainStart true) boards_distinct started_reachable
    (plainStart_on true)
  have hreturned : ((plainStart true).run false firstByte Root.bytes true started).returned =
      some (.ok {
        keys := List.replicate rootLen 1
        kind := .oneTimeProgrammable
        derived := false }) := by
    decide
  obtain ⟨⟨boardId, root, hvalue, hderive, hkeys⟩, -⟩ := hown.keys _ hreturned
  obtain rfl := Except.ok.inj hderive
  -- The second board has one source value, which derives another root.
  cases hkind : boardId.kind with
  | oneTimeProgrammable =>
      rw [hkind] at hvalue
      rw [← Option.some.inj hvalue] at hkeys
      have hsame : List.replicate rootLen (1 : UInt8) = List.replicate rootLen 2 := hkeys
      exact absurd hsame (by decide)
  | tpmEndorsementKey => rw [hkind] at hvalue; cases hvalue
  | raspberryPiSerial => rw [hkind] at hvalue; cases hvalue

end Bliti.Establishing
