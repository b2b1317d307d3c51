import Bliti.Library.Transition
import Bliti.Text.Lines

/-!
# The case - the history of its openings and closings

The history is a file only ever appended to, one entry a line.  An append fails or is cut short
anywhere, the device starts again on whatever that left, and what it reports of the case it keeps
beside the file.

Main results:

- Theorem `entries_append`: what an append adds to the entries read, however far it gets.
- Theorem `watching_kept`: what the history holds, and what is reported, over every run.
-/

namespace Bliti.Facts.Case

/-! ## The history -/

/-- Which way the case moved. -/
inductive Event where
  | opened
  | closed
deriving DecidableEq

/-- The event that leaves the case in a position. -/
def Event.to (closed : Bool) : Event :=
  if closed then .closed else .opened

/-- The boot something happened in, and how many milliseconds into it. -/
structure Boot where
  id : String
  offset : ℕ
deriving DecidableEq

/-- One line of the history, its time in milliseconds. -/
structure Entry where
  event : Event
  time : ℤ
  boot : Boot
  found : Bool
deriving DecidableEq

/-- What is needed of the history at a start: the latest entry, and the latest opening. -/
structure Latest where
  entry : Option Entry
  opened : Option Entry

/-- How an entry is written as JSON and read.  White space after a line changes nothing of what it
is read as, and a blank line is no entry. -/
structure Codec where
  write : Entry → String
  read : String → Option Entry
  padded : ∀ line, read (line ++ "\r") = read line
  blank : read "" = none

/-- An entry is written on one line, and read back from all of it alone. -/
structure Codec.Legible (c : Codec) (entry : Entry) : Prop where
  line : '\n' ∉ (c.write entry).toList
  whole : c.read (c.write entry) = some entry
  torn : ∀ n < (c.write entry).toList.length,
    c.read (String.ofList ((c.write entry).toList.take n)) = none

/-- How an append goes: the file is not opened, the append fails or is cut once so much is written,
or it returns. -/
inductive Going where
  | unopened
  | stopped (written : ℕ)
  | returned
deriving DecidableEq

/-- Whether the file is empty or ends with a line feed. -/
def endsALine (raw : String) : Bool :=
  raw.isEmpty || raw.toList.getLast? == some '\n'

section

variable (c : Codec)

/-- The latest entry and opening of a history's text, past any line that is no entry. -/
def latest (raw : String) : Latest :=
  (Text.lines raw).foldl (fun latest line =>
    match c.read line with
    | none => latest
    | some entry =>
        { entry := some entry
          opened := if entry.event = .opened then some entry else latest.opened })
    { entry := none, opened := none }

/-- Read the history, where nothing fails that; one not yet written holds nothing. -/
def read (failure file : Option String) : Except String Latest :=
  match failure, file with
  | some err, _ => .error err
  | none, none => .ok { entry := none, opened := none }
  | none, some raw => .ok (latest c raw)

/-- What an append writes after a text. -/
def addition (raw : String) (entry : Entry) : String :=
  (if endsALine raw then "" else "\n") ++ (c.write entry ++ "\n")

/-- Add an entry to the end of the history. -/
def append (file : Option String) (entry : Entry) : Going → Option String
  | .unopened => file
  | .stopped written =>
      some (file.getD "" ++ String.ofList ((addition c (file.getD "") entry).toList.take written))
  | .returned => some (file.getD "" ++ addition c (file.getD "") entry)

/-- Whether an append gets as far as all of the entry but its line feed. -/
def Going.reaches (raw : String) (entry : Entry) : Going → Bool
  | .unopened => false
  | .stopped written => (addition c raw entry).toList.length ≤ written + 1
  | .returned => true

/-- The entries a text is read as. -/
def entries (raw : String) : List Entry :=
  (Text.lines raw).filterMap c.read

variable {c}

/-- The latest are the last of the entries. -/
theorem latest_eq (raw : String) :
    (latest c raw).entry = (entries c raw).getLast? ∧
      (latest c raw).opened = ((entries c raw).filter (·.event = .opened)).getLast? := by
  unfold latest entries
  induction Text.lines raw using List.reverseRecOn with
  | nil => exact ⟨rfl, rfl⟩
  | append_singleton before line ih =>
      rw [List.foldl_append, List.filterMap_append, List.filter_append]
      cases hread : c.read line with
      | none => simpa [hread] using ih
      | some entry => by_cases hopened : entry.event = .opened <;> simp [hread, hopened, ih.2]

/-- The entries of a text are those of its pieces. -/
theorem entries_eq (raw : String) : entries c raw = (Text.pieces raw).filterMap c.read := by
  unfold entries Text.lines Text.pieces
  induction raw.toList.splitOn '\n' with
  | nil => rfl
  | cons line rest ih =>
      have hline : c.read (String.ofList (Text.endLine line)) = c.read (String.ofList line) := by
        unfold Text.endLine
        split
        · rename_i hlast
          obtain ⟨front, rfl⟩ := List.getLast?_eq_some_iff.mp hlast
          have hpadded : String.ofList (front ++ ['\r']) = String.ofList front ++ "\r" :=
            String.toList_injective (by simp)
          rw [List.dropLast_concat, hpadded, c.padded]
        · rfl
      cases rest with
      | nil =>
          by_cases hblank : line = []
          · simp [Text.linesOf, hblank, c.blank]
          · simp [Text.linesOf, hblank]
      | cons next rest =>
          simp only [Text.linesOf, List.map_cons, List.filterMap_cons, hline] at ih ⊢
          rw [ih]

/-- A text and what comes after its last line feed are read apart. -/
theorem entries_feed (raw more : String) :
    entries c (raw ++ "\n" ++ more) = entries c raw ++ entries c more := by
  simp only [entries_eq, Text.pieces_append, List.filterMap_append]

/-- After a text that ends a line, more is read apart. -/
theorem entries_line {raw : String} (hline : endsALine raw = true) (more : String) :
    entries c (raw ++ more) = entries c raw ++ entries c more := by
  have hnone : entries c "" = [] := rfl
  rcases Bool.or_eq_true_iff.mp hline with hempty | hfeed
  · rw [String.isEmpty_iff.mp hempty, String.empty_append, hnone, List.nil_append]
  · obtain ⟨front, hfront⟩ := List.getLast?_eq_some_iff.mp (beq_iff_eq.mp hfeed)
    obtain rfl : raw = String.ofList front ++ "\n" := String.toList_injective (by simpa using hfront)
    have hraw := entries_feed (c := c) (String.ofList front) ""
    rw [String.append_empty, hnone, List.append_nil] at hraw
    rw [entries_feed, hraw]

/-- What is written of an entry's line is read as the entry once it is whole, and before as none. -/
theorem entries_take {entry : Entry} (hlegible : c.Legible entry) (n : ℕ) :
    entries c (String.ofList ((c.write entry ++ "\n").toList.take n)) =
      if (c.write entry).toList.length ≤ n then [entry] else [] := by
  have hpiece : ∀ line : String, '\n' ∉ line.toList → entries c line = (c.read line).toList := by
    intro line hfeed
    rw [entries_eq, Text.pieces, List.splitOn_eq_singleton hfeed]
    cases hread : c.read line <;> simp [hread]
  have hchars : (c.write entry ++ "\n").toList = (c.write entry).toList ++ ['\n'] := by simp
  rw [hchars]
  rcases lt_trichotomy n (c.write entry).toList.length with hless | rfl | hmore
  · rw [List.take_append_of_le_length hless.le, if_neg (Nat.not_le.mpr hless), hpiece,
      hlegible.torn n hless]
    · rfl
    · rw [String.toList_ofList]
      exact fun hfeed => hlegible.line (List.mem_of_mem_take hfeed)
  · rw [List.take_left, String.ofList_toList, if_pos le_rfl, hpiece _ hlegible.line,
      hlegible.whole]
    rfl
  · rw [List.take_of_length_le (by simpa using Nat.succ_le_of_lt hmore), if_pos hmore.le, ← hchars,
      String.ofList_toList]
    have hline := entries_feed (c := c) (c.write entry) ""
    rw [String.append_empty, hpiece _ hlegible.line, hlegible.whole] at hline
    exact hline

/-- An append that gets as far as the whole entry adds it to those read; one that does not adds
nothing to them. -/
theorem entries_append {entry : Entry} (hlegible : c.Legible entry) (file : Option String)
    (going : Going) :
    entries c ((append c file entry going).getD "") = entries c (file.getD "") ++
      if going.reaches c (file.getD "") entry then [entry] else [] := by
  have hstopped : ∀ n, entries c (file.getD "" ++
      String.ofList ((addition c (file.getD "") entry).toList.take n)) = entries c (file.getD "") ++
        if (addition c (file.getD "") entry).toList.length ≤ n + 1 then [entry] else [] := by
    intro n
    generalize file.getD "" = raw
    unfold addition
    cases hline : endsALine raw with
    | true =>
        have hlength : (c.write entry ++ "\n").toList.length = (c.write entry).toList.length + 1 := by
          simp
        simp only [if_true, String.empty_append]
        rw [entries_line hline, entries_take hlegible, hlength]
        simp only [Nat.add_le_add_iff_right]
    | false =>
        -- A torn line is ended before the entry's own.
        have hlength : ("\n" ++ (c.write entry ++ "\n")).toList.length =
            (c.write entry).toList.length + 1 + 1 := by
          simp [Nat.add_comm]
        simp only [Bool.false_eq_true, if_false]
        rw [hlength]
        simp only [Nat.add_le_add_iff_right]
        cases n with
        | zero => simp
        | succ n =>
            have htake : raw ++ String.ofList (("\n" ++ (c.write entry ++ "\n")).toList.take (n + 1)) =
                raw ++ "\n" ++ String.ofList ((c.write entry ++ "\n").toList.take n) :=
              String.toList_injective (by simp)
            rw [htake, entries_feed, entries_take hlegible]
            simp only [Nat.add_le_add_iff_right]
  cases going with
  | unopened => simp [append, Going.reaches]
  | stopped written => simpa [append, Going.reaches] using hstopped written
  | returned =>
      have hwhole := hstopped (addition c (file.getD "") entry).toList.length
      rw [List.take_length, String.ofList_toList, if_pos (Nat.le_succ _)] at hwhole
      exact hwhole

end

/-! ## Watching the switch -/

/-- What is reported of the case. -/
structure State where
  closed : Except String Bool
  opened : Except String (Option Entry)

/-- What the watching thread has seen and recorded, and where it publishes. -/
structure Watcher where
  bootId : String
  state : Option State
  recorded : Option (Option Event)
  seen : Option Bool
  closed : Except String Bool
  opened : Except String (Option Entry)

/-- The device over its starts: the history's file and who watches.  Beside them, which the code
does not keep, are the entries an append was tried of, those of them written whole, and whether one
was since the start by an append that failed. -/
structure Device where
  file : Option String
  watcher : Watcher
  tried : List Entry
  whole : List Entry
  unsaid : Bool

/-- What happens: a start, the switch found or seen to move at a time, or the switch not read. -/
inductive Act where
  | start (bootId : String) (failure : Option String)
  | found (closed : Bool) (now : ℤ × ℕ) (going : Going)
  | moved (closed : Bool) (now : ℤ × ℕ) (going : Going)
  | broken (err : String)

namespace Watcher

/-- Report what is known. -/
def publish (w : Watcher) : Watcher :=
  { w with state := some { closed := w.closed, opened := w.opened } }

/-- Whether the position found is to be recorded. -/
def differs (w : Watcher) (closed : Bool) : Bool :=
  match w.recorded with
  | some (some event) => event != Event.to closed
  | some none => !closed
  | none => false

end Watcher

section

variable (c : Codec)

/-- The watcher of a start. -/
def Watcher.new (file : Option String) (bootId : String) (failure : Option String) : Watcher where
  bootId := bootId
  state := none
  recorded :=
    match read c failure file with
    | .ok latest => some (latest.entry.map Entry.event)
    | .error _ => none
  seen := none
  closed := .error "the case switch has not been read yet"
  opened :=
    match read c failure file with
    | .ok latest => .ok latest.opened
    | .error err => .error ("cannot read the case history: " ++ err)

namespace Device

/-- Add an entry to the history, before anything reports it. -/
def record (d : Device) (event : Event) (found : Bool) (now : ℤ × ℕ) (going : Going) : Device :=
  let entry : Entry := {
    event := event
    time := now.1
    boot := { id := d.watcher.bootId, offset := now.2 }
    found := found }
  let reached := going.reaches c (d.file.getD "") entry
  { file := append c d.file entry going
    watcher :=
      if going = .returned then { d.watcher with
        recorded := some (some event)
        opened := if event = .opened then .ok (some entry) else d.watcher.opened }
      else d.watcher
    tried := d.tried ++ [entry]
    whole := d.whole ++ if reached then [entry] else []
    unsaid := d.unsaid || (reached && going != .returned) }

/-- The position is known, and reported. -/
def know (d : Device) (closed : Except String Bool) : Device :=
  { d with watcher := { d.watcher with closed := closed }.publish }

/-- The switch has been read without being seen to move. -/
def found (d : Device) (closed : Bool) (now : ℤ × ℕ) (going : Going) : Device :=
  let d := { d with watcher := { d.watcher with seen := some closed } }
  (if d.watcher.differs closed then d.record c (.to closed) true now going else d).know (.ok closed)

/-- The switch has moved. -/
def moved (d : Device) (closed : Bool) (now : ℤ × ℕ) (going : Going) : Device :=
  if d.watcher.seen = some closed then d
  else
    let d := { d with watcher := { d.watcher with seen := some closed } }
    (d.record c (.to closed) false now going).know (.ok closed)

/-- The switch could not be read. -/
def broken (d : Device) (err : String) : Device :=
  { d with watcher := { d.watcher with seen := none } }.know
    (.error ("cannot read the case switch: " ++ err))

/-- What happens to the device. -/
def take (d : Device) : Act → Device
  | .start bootId failure =>
      { d with watcher := .new c d.file bootId failure, unsaid := false }
  | .found closed now going => d.found c closed now going
  | .moved closed now going => d.moved c closed now going
  | .broken err => d.broken err

end Device

/-- The device from a first start on whatever its history's file holds. -/
def watching (file : Option String) : Transition.System Device Act where
  init d := ∃ bootId failure, d = {
    file := file
    watcher := .new c file bootId failure
    tried := []
    whole := []
    unsaid := false }
  step d act d' := d' = d.take c act

/-- The history's text. -/
def Device.text (d : Device) : String :=
  d.file.getD ""

/-- A watcher goes by the latest entry and reports the latest opening, where it knows of any. -/
def Watcher.Current (w : Watcher) (latest : Latest) : Prop :=
  (∀ event, w.recorded = some event → event = latest.entry.map Entry.event) ∧
    ∀ opening, w.opened = .ok opening → opening = latest.opened

/-- What is kept: the file holds what it held first, and is read as the entries it was read as first
and those written whole since, in their order; a watcher goes by the latest entry, and reports the
latest opening, unless its start failed to read them or an append that failed wrote one since; and
what was reported last is what is known. -/
structure Kept (file : Option String) (d : Device) : Prop where
  grown : (file.getD "").toList <+: d.text.toList
  held : entries c d.text = entries c (file.getD "") ++ d.whole
  tried : d.whole.Sublist d.tried
  current : d.unsaid = false → d.watcher.Current (latest c d.text)
  published : ∀ state, d.watcher.state = some state →
    state = { closed := d.watcher.closed, opened := d.watcher.opened }

variable {c} {file : Option String} {d : Device}

/-- A start reads the latest, or fails to. -/
theorem new_current (bootId : String) (failure : Option String) :
    (Watcher.new c file bootId failure).Current (latest c (file.getD "")) := by
  cases failure with
  | some err =>
      constructor
      · rintro _ h
        cases h
      · rintro _ h
        cases h
  | none =>
      cases file with
      | none => exact ⟨fun _ h => (Option.some.inj h).symm, fun _ h => (Except.ok.inj h).symm⟩
      | some raw => exact ⟨fun _ h => (Option.some.inj h).symm, fun _ h => (Except.ok.inj h).symm⟩

namespace Kept

/-- Reporting keeps what is kept. -/
theorem know (h : Kept c file d) (closed : Except String Bool) : Kept c file (d.know closed) :=
  ⟨h.grown, h.held, h.tried, h.current, fun _ hstate => (Option.some.inj hstate).symm⟩

/-- So does adding an entry and reporting, whether or not the append returns. -/
theorem record (h : Kept c file d) {event : Event} {found : Bool} {now : ℤ × ℕ} {going : Going}
    (hlegible : ∀ entry ∈ (d.record c event found now going).tried, c.Legible entry)
    (closed : Except String Bool) :
    Kept c file ((d.record c event found now going).know closed) := by
  obtain ⟨entry, hentry⟩ : ∃ entry : Entry, entry = {
    event := event
    time := now.1
    boot := { id := d.watcher.bootId, offset := now.2 }
    found := found } := ⟨_, rfl⟩
  have hevent : entry.event = event := by rw [hentry]
  have happend := entries_append
    (hlegible entry (hentry ▸ List.mem_append_right _ (List.mem_singleton_self _))) d.file going
  unfold Device.record
  simp only [← hentry]
  refine ⟨h.grown.trans ?_, ?_, h.tried.append ?_, fun hsaid => ?_,
    fun _ hstate => (Option.some.inj hstate).symm⟩
  · cases going with
    | unopened => exact List.prefix_rfl
    | stopped written => simp [Device.text, Device.know, append]
    | returned => simp [Device.text, Device.know, append]
  · have hheld := h.held
    simp only [Device.text, Device.know] at hheld ⊢
    rw [happend, hheld, List.append_assoc]
  · split
    · exact List.Sublist.refl _
    · exact List.nil_sublist _
  · obtain ⟨hbefore, hreached⟩ := Bool.or_eq_false_iff.mp hsaid
    obtain ⟨hrecorded, hopened⟩ := h.current hbefore
    have hlatest := latest_eq (c := c) (d.file.getD "")
    have hadded := latest_eq (c := c) ((append c d.file entry going).getD "")
    rw [happend] at hadded
    simp only [Device.text, hlatest] at hrecorded hopened
    simp only [Watcher.Current, Device.text, Device.know, Watcher.publish, hadded]
    by_cases hreturned : going = .returned
    · subst hreturned
      simp only [Going.reaches, if_true, List.getLast?_concat, List.filter_append]
      refine ⟨fun event' hsome => ?_, fun opening hok => ?_⟩
      · rw [← Option.some.inj hsome, ← hevent]
        rfl
      · by_cases hmoved : event = .opened
        · rw [if_pos hmoved] at hok
          simp [← Except.ok.inj hok, hevent, hmoved]
        · rw [if_neg hmoved] at hok
          simpa [hevent, hmoved] using hopened opening hok
    · have hnone : going.reaches c (d.file.getD "") entry = false := by
        simpa [hreturned] using hreached
      simp only [if_neg hreturned, hnone, Bool.false_eq_true, if_false, List.append_nil]
      exact ⟨hrecorded, hopened⟩

end Kept

/-- Whatever happens keeps it. -/
theorem Kept.take (h : Kept c file d) {act : Act}
    (hlegible : ∀ entry ∈ (d.take c act).tried, c.Legible entry) : Kept c file (d.take c act) := by
  cases act with
  | start bootId failure =>
      exact ⟨h.grown, h.held, h.tried, fun _ => new_current bootId failure, fun _ hstate => by
        cases hstate⟩
  | broken err =>
      have hunseen : Kept c file { d with watcher := { d.watcher with seen := none } } :=
        ⟨h.grown, h.held, h.tried, h.current, h.published⟩
      exact hunseen.know _
  | found closed now going =>
      have hseen : Kept c file { d with watcher := { d.watcher with seen := some closed } } :=
        ⟨h.grown, h.held, h.tried, h.current, h.published⟩
      simp only [Device.take, Device.found] at hlegible ⊢
      split at hlegible
      · rename_i hdiffers
        simp only [if_pos hdiffers]
        exact hseen.record hlegible _
      · rename_i hsame
        simp only [if_neg hsame]
        exact hseen.know _
  | moved closed now going =>
      have hseen : Kept c file { d with watcher := { d.watcher with seen := some closed } } :=
        ⟨h.grown, h.held, h.tried, h.current, h.published⟩
      simp only [Device.take, Device.moved] at hlegible ⊢
      split at hlegible
      · rename_i hstill
        rw [if_pos hstill]
        exact h
      · rename_i hmoved
        rw [if_neg hmoved]
        exact hseen.record hlegible _

/-- What was tried stays so. -/
theorem tried_take (d : Device) (act : Act) : d.tried <+: (d.take c act).tried := by
  cases act with
  | start bootId failure => exact List.prefix_rfl
  | broken err => exact List.prefix_rfl
  | found closed now going =>
      simp only [Device.take, Device.found]
      split
      · exact List.prefix_append _ _
      · exact List.prefix_rfl
  | moved closed now going =>
      simp only [Device.take, Device.moved]
      split
      · exact List.prefix_rfl
      · exact List.prefix_append _ _

/-- Over every run of starts, findings, moves and failed readings, with each append failing or cut
anywhere, where each entry tried is one read back from all of it alone. -/
theorem watching_kept (hreach : (watching c file).Reachable d)
    (hlegible : ∀ entry ∈ d.tried, c.Legible entry) : Kept c file d := by
  revert hlegible
  apply hreach.invariant
  · rintro d ⟨bootId, failure, rfl⟩ -
    exact ⟨List.prefix_rfl, (List.append_nil _).symm, List.Sublist.refl _,
      fun _ => new_current bootId failure, fun _ hstate => by cases hstate⟩
  · rintro d act d' - hkept rfl hlegible
    refine (hkept fun entry hmem => hlegible entry ?_).take hlegible
    exact (tried_take d act).subset hmem

end

/-! ## A torn line -/

/-- An opening found at a start. -/
def foundOpen : Entry where
  event := .opened
  time := 1790000000000
  boot := { id := "0f6b", offset := 12345 }
  found := true

/-- Its line. -/
def foundOpenLine : String :=
  "\x7b\"event\":\"opened\",\"time\":\"2026-09-21T14:13:20Z\"," ++
    "\"boot\":\x7b\"id\":\"0f6b\",\"offset\":12345\x7d,\"found\":true\x7d"

/-- How it is written and read. -/
def foundOpenCodec : Codec where
  write _ := foundOpenLine
  read line := if Text.trimEnd line = foundOpenLine then some foundOpen else none
  padded line := by
    have hsame : Text.trimEnd (line ++ "\r") = Text.trimEnd line :=
      String.toList_injective (by simp [List.rdropWhile_concat_pos, Text.isWhitespace])
    rw [hsame]
  blank := by decide

/-- It is read back from all of its line alone. -/
theorem legible_foundOpen : foundOpenCodec.Legible foundOpen where
  line := by decide +kernel
  whole := by decide +kernel
  torn n hn := if_neg fun hsame => by
    have hless := (List.rdropWhile_prefix (p := Text.isWhitespace)
      (l := foundOpenLine.toList.take n)).length_le
    have hlength : n < foundOpenLine.toList.length := hn
    have htrimmed := congrArg String.toList hsame
    rw [Text.toList_trimEnd, String.toList_ofList] at htrimmed
    rw [show foundOpenCodec.write foundOpen = foundOpenLine from rfl] at htrimmed
    rw [htrimmed, List.length_take] at hless
    omega

/-- A history with a line torn by a power cut. -/
def torn : String :=
  "\x7b\"event\":\"closed\",\"ti"

/-- A start on it. -/
def tornDevice : Device where
  file := some torn
  watcher := .new foundOpenCodec (some torn) "0f6b" none
  tried := []
  whole := []
  unsaid := false

/-- The case is found open, after a torn line. -/
theorem watching_kept_torn : ∃ d : Device, d.whole = [foundOpen] ∧
    Kept foundOpenCodec (some torn) d := by
  obtain ⟨act, hact⟩ : ∃ act : Act, act = .found false (1790000000000, 12345) .returned := ⟨_, rfl⟩
  have hfound : (tornDevice.take foundOpenCodec act).tried = [foundOpen] ∧
      (tornDevice.take foundOpenCodec act).whole = [foundOpen] := by
    rw [hact]
    decide +kernel
  have hstart : (watching foundOpenCodec (some torn)).Reachable tornDevice :=
    .start ⟨"0f6b", none, rfl⟩
  generalize hd : tornDevice.take foundOpenCodec act = d at hfound
  refine ⟨d, hfound.2, watching_kept (.next (a := act) hstart hd.symm) fun entry hmem => ?_⟩
  rw [hfound.1, List.mem_singleton] at hmem
  exact hmem ▸ legible_foundOpen

end Bliti.Facts.Case
