import Mathlib.Data.List.Basic

/-!
# The board ID - its sources, and whether a cached root still holds

Which source a board's ID comes from, and what a device compares of a board with its cache from the
cheap reads alone.
-/

namespace Bliti.Board

/-- The kind of source a board ID was read from. -/
inductive SourceKind where
  | tpmEndorsementKey
  | oneTimeProgrammable
  | raspberryPiSerial
deriving DecidableEq, Repr

namespace SourceKind

/-- Every kind, strongest first. -/
def all : List SourceKind := [.tpmEndorsementKey, .oneTimeProgrammable, .raspberryPiSerial]

/-- Whether this kind is a platform serial number, which identifies a board across a change of
source. -/
def isPlatformSerial : SourceKind → Bool
  | .raspberryPiSerial => true
  | .tpmEndorsementKey => false
  | .oneTimeProgrammable => false

end SourceKind

/-- A failure reading or selecting a board ID. -/
inductive BoardIdError where
  | noUsableSource
  | empty (kind : SourceKind)
  | placeholder (kind : SourceKind)
  | backend (kind : SourceKind) (message : String)
deriving DecidableEq, Repr

/-- Whether a value is a placeholder that carries no identity: all zeros or all ones. -/
def isSentinel (bytes : List UInt8) : Bool :=
  !bytes.isEmpty && (bytes.all (· == 0x00) || bytes.all (· == 0xff))

/-- A board ID: the raw bytes of a source value, which carry an identity, and the kind of source they
came from. -/
structure BoardId where
  kind : SourceKind
  bytes : List UInt8
  nonempty : bytes.isEmpty = false
  carries : isSentinel bytes = false

/-- A board ID of a source's raw bytes. -/
def BoardId.new (kind : SourceKind) (bytes : List UInt8) : Except BoardIdError BoardId :=
  if hempty : bytes.isEmpty = false then
    if hsentinel : isSentinel bytes = false then
      .ok { kind := kind, bytes := bytes, nonempty := hempty, carries := hsentinel }
    else .error (.placeholder kind)
  else .error (.empty kind)

/-- Whether a source is present on a board, established without reading its value. -/
inductive Presence where
  | absent
  | present
  | placeholder
deriving DecidableEq, Repr

/-- A backend, as it answers a probe and a read. -/
structure BoardIdSource where
  kind : SourceKind
  probe : Except BoardIdError Presence
  read : Except BoardIdError (List UInt8)

/-- The precedence over some kinds, and the kinds whose values were read. -/
def selectFrom (sources : List BoardIdSource) :
    List SourceKind → Except BoardIdError BoardId × List SourceKind
  | [] => (.error .noUsableSource, [])
  | kind :: rest =>
      match sources.find? fun source => source.kind == kind with
      | none => selectFrom sources rest
      | some source =>
          match source.probe with
          | .error err => (.error err, [])
          | .ok .present =>
              match source.read with
              | .error err => (.error err, [kind])
              | .ok bytes => (BoardId.new kind bytes, [kind])
          | .ok .placeholder => selectFrom sources rest
          | .ok .absent => selectFrom sources rest

/-- Evaluate the precedence over a set of backends and read the winning board ID. -/
def select (sources : List BoardIdSource) : Except BoardIdError BoardId × List SourceKind :=
  selectFrom sources SourceKind.all

/-- The first of some kinds present with an identity, if any. -/
def strongestPresentFrom (sources : List BoardIdSource) :
    List SourceKind → Except BoardIdError (Option SourceKind)
  | [] => .ok none
  | kind :: rest =>
      match sources.find? fun source => source.kind == kind with
      | none => strongestPresentFrom sources rest
      | some source =>
          match source.probe with
          | .error err => .error err
          | .ok .present => .ok (some kind)
          | .ok .placeholder => strongestPresentFrom sources rest
          | .ok .absent => strongestPresentFrom sources rest

/-- Probe the set of backends and report the strongest kind present with an identity, if any. -/
def strongestPresent (sources : List BoardIdSource) : Except BoardIdError (Option SourceKind) :=
  strongestPresentFrom sources SourceKind.all

/-- The platform serial of a board, where it offers one. -/
abbrev PlatformSerial := Option (List UInt8)

/-- What a device knows about itself from the last derivation. -/
structure CacheState where
  boardIdKind : SourceKind
  platformSerial : PlatformSerial
deriving DecidableEq

/-- The decision reached by comparing a device's cache against the board in front of it. -/
inductive CacheDecision where
  | fresh
  | qrDead
  | rederive
deriving DecidableEq, Repr

/-- Decide, from the cheap reads alone, whether a cached root still holds. -/
def evaluateCache (cache : Option CacheState) (observedSerial : PlatformSerial)
    (strongestPresent : Option SourceKind) : CacheDecision :=
  match cache, strongestPresent with
  | none, _ => .rederive
  -- No source present at all is not a cache question.
  | some _, none => .rederive
  | some cache, some present =>
      if observedSerial.isSome then
        if observedSerial ≠ cache.platformSerial then .rederive
        else if present = cache.boardIdKind then .fresh
        else .qrDead
      -- The strongest kind present is the only thing comparable cheaply.
      else if present = cache.boardIdKind then .fresh
      else .qrDead

/-! ## What is decided -/

/-- What is made of a source's bytes is of its kind and holds them. -/
theorem BoardId.new_ok {kind : SourceKind} {bytes : List UInt8} {boardId : BoardId}
    (hnew : BoardId.new kind bytes = .ok boardId) : boardId.kind = kind ∧ boardId.bytes = bytes := by
  unfold BoardId.new at hnew
  split_ifs at hnew
  obtain rfl := Except.ok.inj hnew
  exact ⟨rfl, rfl⟩

/-- What is selected was read of a source of its kind. -/
theorem select_read {sources : List BoardIdSource} {boardId : BoardId} {reads : List SourceKind}
    (hselect : select sources = (.ok boardId, reads)) :
    ∃ source ∈ sources, source.kind = boardId.kind ∧ source.read = .ok boardId.bytes := by
  unfold select at hselect
  generalize SourceKind.all = kinds at hselect
  induction kinds with
  | nil => simp [selectFrom] at hselect
  | cons kind rest ih =>
      unfold selectFrom at hselect
      split at hselect
      · exact ih hselect
      · rename_i source hfind
        have hbeq := List.find?_some hfind
        have hkind : source.kind = kind := beq_iff_eq.mp hbeq
        split at hselect
        · simp at hselect
        · split at hselect
          · simp at hselect
          · rename_i bytes hread
            obtain ⟨hsame, hbytes⟩ := BoardId.new_ok (Prod.mk.inj hselect).1
            refine ⟨source, List.mem_of_find?_eq_some hfind, hkind.trans hsame.symm, ?_⟩
            rw [hbytes]
            exact hread
        · exact ih hselect
        · exact ih hselect

/-- A cached root stands where the strongest kind present is the cached one, and the serial is not
read or is the one recorded. -/
theorem evaluateCache_fresh {cache : Option CacheState} {serial : PlatformSerial}
    {strongest : Option SourceKind} (hfresh : evaluateCache cache serial strongest = .fresh) :
    ∃ state, cache = some state ∧ strongest = some state.boardIdKind ∧
      (serial.isSome = true → serial = state.platformSerial) := by
  unfold evaluateCache at hfresh
  split at hfresh
  · cases hfresh
  · cases hfresh
  · rename_i state present
    refine ⟨state, rfl, ?_⟩
    split_ifs at hfresh with hread hother hsame hkind
    · exact ⟨congrArg some hsame, fun _ => not_not.mp hother⟩
    · exact ⟨congrArg some hkind, fun hsome => absurd hsome hread⟩

end Bliti.Board
