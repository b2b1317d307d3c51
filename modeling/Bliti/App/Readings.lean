import Bliti.App.Path
import Bliti.Json
import Bliti.Library.Transition
import Mathlib

/-!
# App - the readings held and their histories

The facts and readings the page holds, and the points each reading's graph is drawn through, as one
batch of a feed after another is applied.  What is held is under a key that says whether it is a
fact, a history under one that does not.  Points are trimmed to a window behind the newest of them,
and when each was taken counts from a boot of the device.

Main results:

- Theorem `histories_kept`: over every run of batches of such entries, the histories are those of
  the readings held.
-/

namespace Bliti.App.Readings

open Bliti.App.Path (units escapeUnit)

variable {α φ : Type}

/-- A text of the page, by its units. -/
abbrev Text : Type := List UInt16

/-! ## Maps -/

/-- A map of the page, its entries in the order they were first set. -/
abbrev Table (α : Type) : Type := List (Text × α)

/-- What a map has under a key. -/
def get : Table α → Text → Option α
  | [], _ => none
  | (held, value) :: rest, key => if held = key then some value else get rest key

/-- A map with an entry set: in place of the one of its key, else last. -/
def set : Table α → Text → α → Table α
  | [], key, value => [(key, value)]
  | (held, old) :: rest, key, value =>
      if held = key then (key, value) :: rest else (held, old) :: set rest key value

/-- A map without the entry of a key. -/
def delete (map : Table α) (key : Text) : Table α :=
  map.filter fun entry => entry.1 ≠ key

/-- What a map has after an entry is set. -/
@[simp]
theorem get_set (map : Table α) (key other : Text) (value : α) :
    get (set map key value) other = if key = other then some value else get map other := by
  induction map with
  | nil => simp [set, get]
  | cons entry rest ih =>
      obtain ⟨held, old⟩ := entry
      by_cases hheld : held = key
      · subst hheld
        by_cases hother : held = other <;> simp [set, get, hother]
      · rw [set, if_neg hheld, get, get, ih]
        by_cases hsame : held = other
        · have hne : ¬ key = other := fun hkey => hheld (hsame.trans hkey.symm)
          simp [hsame, hne]
        · simp [hsame]

/-- What a map held to some keys has. -/
theorem get_filter (keep : Text → Bool) (map : Table α) (key : Text) :
    get (map.filter fun entry => keep entry.1) key = if keep key then get map key else none := by
  induction map with
  | nil => simp [get]
  | cons entry rest ih =>
      obtain ⟨held, value⟩ := entry
      by_cases hheld : keep held = true
      · rw [List.filter_cons_of_pos (by exact hheld), get, get, ih]
        by_cases hsame : held = key
        · rw [if_pos hsame, if_pos hsame, if_pos (hsame ▸ hheld)]
        · rw [if_neg hsame, if_neg hsame]
      · rw [List.filter_cons_of_neg (by exact hheld), get, ih]
        by_cases hsame : held = key
        · rw [if_neg (hsame ▸ hheld), if_neg (hsame ▸ hheld)]
        · rw [if_neg hsame]

/-- What a map has after a key is taken out. -/
@[simp]
theorem get_delete (map : Table α) (key other : Text) :
    get (delete map key) other = if other = key then none else get map other := by
  have hfilter := get_filter (fun held => decide (held ≠ key)) map other
  rw [delete, hfilter]
  by_cases hsame : other = key <;> simp [hsame]

/-- What a map has is one of its entries. -/
theorem mem_of_get {map : Table α} {key : Text} {value : α} (hget : get map key = some value) :
    (key, value) ∈ map := by
  induction map with
  | nil => cases hget
  | cons entry rest ih =>
      obtain ⟨held, old⟩ := entry
      rw [get] at hget
      by_cases hsame : held = key
      · rw [if_pos hsame] at hget
        rw [hsame, Option.some.inj hget]
        exact List.mem_cons_self
      · rw [if_neg hsame] at hget
        exact List.mem_cons_of_mem _ (ih hget)

/-- A map has something under the key of each of its entries. -/
theorem exists_get_of_mem {map : Table α} {entry : Text × α} (hmem : entry ∈ map) :
    ∃ value, get map entry.1 = some value := by
  induction map with
  | nil => cases hmem
  | cons first rest ih =>
      obtain ⟨held, old⟩ := first
      rw [get]
      by_cases hsame : held = entry.1
      · exact ⟨old, if_pos hsame⟩
      · rw [if_neg hsame]
        rcases List.mem_cons.mp hmem with hfirst | hrest
        · exact absurd (congrArg Prod.fst hfirst).symm hsame
        · exact ih hrest

/-- An entry of a map after one is set is that one, or the map had it. -/
theorem mem_set {map : Table α} {key : Text} {value : α} {entry : Text × α}
    (hmem : entry ∈ set map key value) : entry = (key, value) ∨ entry ∈ map := by
  induction map with
  | nil => exact .inl (List.mem_singleton.mp hmem)
  | cons first rest ih =>
      obtain ⟨held, old⟩ := first
      rw [set] at hmem
      by_cases hsame : held = key
      · rw [if_pos hsame] at hmem
        rcases List.mem_cons.mp hmem with hfirst | hrest
        · exact .inl hfirst
        · exact .inr (List.mem_cons_of_mem _ hrest)
      · rw [if_neg hsame] at hmem
        rcases List.mem_cons.mp hmem with hfirst | hrest
        · exact .inr (hfirst ▸ List.mem_cons_self)
        · rcases ih hrest with hset | hheld
          · exact .inl hset
          · exact .inr (List.mem_cons_of_mem _ hheld)

/-! ## Entries -/

/-- One fact or reading. -/
structure Entry (φ : Type) where
  fact : Bool
  name : String
  /-- The milliseconds since the device booted at which it was taken. -/
  at_ : ℕ
  traits : Json.Map φ
  kind : String
  value : Option (Json φ)

/-- A point of a reading's history. -/
structure Point (φ : Type) where
  at_ : ℕ
  number : Number φ

/-- How far behind the newest the points of a history are kept. -/
def WINDOW_MS : ℕ := 5 * 60 * 1000

/-- The traits that do not tell one thing measured from another. -/
def DESCRIPTIVE : List String :=
  ["status", "limits", "margin", "security", "channel", "passphrase", "short", "boot", "found"]

/-- The members of a trait that do not. -/
def DESCRIPTIVE_MEMBERS : String → Option (List String)
  | "interface" => some ["route", "overlay"]
  | "battery" => some ["serial", "model", "vendor"]
  | _ => none

/-- What the catalogue lists as one entry for each value held. -/
def TOLD_APART_BY_VALUE : List String := ["network-address"]

/-- The members every object has of its own accord: what is looked up under one of these in
`DESCRIPTIVE_MEMBERS` is there, and is no set. -/
def INHERITED : List String :=
  ["constructor", "__defineGetter__", "__defineSetter__", "hasOwnProperty", "__lookupGetter__",
    "__lookupSetter__", "isPrototypeOf", "propertyIsEnumerable", "toString", "valueOf", "__proto__",
    "toLocaleString"]

/-- The `is` of an entry's status, where it has one. -/
def statusOf (entry : Entry φ) : Option (Json φ) :=
  ((Json.get entry.traits "status").bind Json.asObject).bind fun members => Json.get members "is"

/-- Whether the device has said that an entry no longer applies. -/
def isEnded (entry : Entry φ) : Bool :=
  (statusOf entry).bind Json.asStr == some "ended"

/-- The number a value is. -/
def asNumber : Json φ → Option (Number φ)
  | .number number => some number
  | _ => none

/-- The number behind an entry's value, where it has one. -/
def numberOf (entry : Entry φ) : Option (Number φ) :=
  if entry.kind ∈ ["fraction", "quantity", "duration"] then entry.value.bind asNumber else none

/-! ## Keys -/

/-- A unit of a text that is quoted. -/
def quoteUnit (u : UInt16) : Text :=
  if u = 0x22 then [0x5C, 0x22] else if u = 0x27 then [u] else escapeUnit u

/-- A text, quoted. -/
def quote (s : String) : Text :=
  0x22 :: ((units s).flatMap quoteUnit ++ [0x22])

/-- Texts with a mark between each and the next. -/
def join (mark : UInt16) : List Text → Text
  | [] => []
  | first :: rest => first ++ rest.flatMap fun text => mark :: text

mutual

/-- A value as a text, objects by their keys in order.  How a number is written is left to
`write`. -/
def canonical (write : Number φ → Text) : Json φ → Text
  | .null => units "null"
  | .bool true => units "true"
  | .bool false => units "false"
  | .number number => write number
  | .string s => quote s
  | .array items => 0x5B :: (join 0x2C (canonicalItems write items) ++ [0x5D])
  | .object members =>
      let sorted := (canonicalMembers write members).mergeSort fun a b => a.1 ≤ b.1
      0x7B :: (join 0x2C (sorted.map Prod.snd) ++ [0x7D])
termination_by structural value => value

/-- Each item of an array as a text. -/
def canonicalItems (write : Number φ → Text) : List (Json φ) → List Text
  | [] => []
  | item :: rest => canonical write item :: canonicalItems write rest
termination_by structural items => items

/-- Each member of an object as a text, with its key. -/
def canonicalMembers (write : Number φ → Text) : List (String × Json φ) → List (Text × Text)
  | [] => []
  | member :: rest => canonicalMember write member :: canonicalMembers write rest
termination_by structural members => members

/-- A member of an object as a text, with its key. -/
def canonicalMember (write : Number φ → Text) : String × Json φ → Text × Text
  | (name, value) => (units name, quote name ++ 0x3A :: canonical write value)
termination_by structural member => member

end

/-- A trait's value with its descriptive members stripped, where it has members. -/
def trimmed (value : Json φ) (descriptive : List String) : Json φ :=
  ((Json.asObject value).map fun members => Json.object (members.filter fun member =>
    member.1 ∉ descriptive ∧ member.1 ≠ "__proto__")).getD value

/-- The traits with the descriptive ones stripped.  An object takes no member `__proto__` by
assignment. -/
def distinguishing (traits : Json.Map φ) : Json.Map φ :=
  (traits.filter fun trait => trait.1 ∉ DESCRIPTIVE ∧ trait.1 ≠ "__proto__").map fun trait =>
    (trait.1, ((DESCRIPTIVE_MEMBERS trait.1).map (trimmed trait.2)).getD trait.2)

/-- Whether stripping an entry's traits throws: where one has an inherited name, its members are
looked up in what is no set. -/
def throws (entry : Entry φ) : Bool :=
  entry.traits.any fun trait =>
    decide (trait.1 ∈ INHERITED) && ((Json.asObject trait.2).map (!·.isEmpty)).getD false

/-- The key a reading's history is held under. -/
def seriesKey (write : Number φ → Text) (entry : Entry φ) : Text :=
  units entry.name ++ 0x1F :: (units entry.kind ++
    0x1F :: (canonical write (.object (distinguishing entry.traits)) ++ 0x1F ::
      if entry.name ∈ TOLD_APART_BY_VALUE then
        (entry.value.map (canonical write)).getD (units "undefined")
      else []))

/-- The key an entry is held under. -/
def identityKey (write : Number φ → Text) (entry : Entry φ) : Text :=
  units (if entry.fact then "fact" else "reading") ++ 0x1F :: seriesKey write entry

/-! ## Batches -/

/-- What is held: the entries, and the histories of readings. -/
structure Held (φ : Type) where
  entries : Table (Entry φ)
  history : Table (List (Point φ))

/-- The points of a history with one added, in order and held to the window. -/
def pushed (points : List (Point φ)) (point : Point φ) : List (Point φ) :=
  let sorted := (points ++ [point]).mergeSort fun a b => a.at_ ≤ b.at_
  let newest := (sorted.getLast?.map (·.at_)).getD 0
  sorted.filter fun point => newest - point.at_ ≤ WINDOW_MS

/-- The histories with a reading added. -/
def pushHistory (write : Number φ → Text) (history : Table (List (Point φ))) (entry : Entry φ) :
    Table (List (Point φ)) :=
  if entry.fact then history
  else
    ((numberOf entry).map fun number =>
      let key := seriesKey write entry
      set history key (pushed ((get history key).getD []) ⟨entry.at_, number⟩)).getD history

/-- The histories without that of an entry that has ended. -/
def forgetHistory (write : Number φ → Text) (history : Table (List (Point φ))) (entry : Entry φ) :
    Table (List (Point φ)) :=
  delete history (seriesKey write entry)

/-- What is held once one entry of a batch is applied. -/
def applyEntry (write : Number φ → Text) (held : Held φ) (entry : Entry φ) : Held φ :=
  if isEnded entry then
    ⟨delete held.entries (identityKey write entry), forgetHistory write held.history entry⟩
  else
    ⟨set held.entries (identityKey write entry) entry, pushHistory write held.history entry⟩

/-- What is held once some of a batch is applied. -/
def applied (write : Number φ → Text) (held : Held φ) (first : Bool) (batch : List (Entry φ)) :
    Held φ :=
  batch.foldl (applyEntry write) ⟨if first then [] else held.entries, held.history⟩

/-- The keys of the readings held. -/
def seriesOf (write : Number φ → Text) (entries : Table (Entry φ)) : List Text :=
  ((entries.map Prod.snd).filter fun entry => !entry.fact).map (seriesKey write)

/-- What is held once a batch is applied, where applying it throws nothing. -/
def applyBatch (write : Number φ → Text) (held : Held φ) (batch : List (Entry φ)) (first : Bool) :
    Option (Held φ) :=
  if batch.any throws then none
  else
    let next := applied write held first batch
    if first then
      some ⟨next.entries, next.history.filter fun series =>
        (seriesOf write next.entries).contains series.1⟩
    else some next

/-- The page, holding nothing to begin with, as it applies batches, each of them the first of its
feed or not. -/
def system (write : Number φ → Text) : Transition.System (Held φ) (List (Entry φ) × Bool) :=
  .ofTake (· = ⟨[], []⟩) fun held batch => applyBatch write held batch.1 batch.2

section

variable {write : Number φ → Text}

/-! ## Points -/

/-- Points sorted are in order. -/
theorem pairwise_sorted (points : List (Point φ)) :
    (points.mergeSort fun a b => a.at_ ≤ b.at_).Pairwise fun a b => a.at_ ≤ b.at_ := by
  have hpairwise := @List.pairwise_mergeSort _ (fun a b : Point φ => decide (a.at_ ≤ b.at_))
    (fun a b c hab hbc => by simp only [decide_eq_true_eq] at *; omega)
    (fun a b => by simp only [Bool.or_eq_true, decide_eq_true_eq]; omega) points
  exact hpairwise.imp fun hab => by simpa using hab

/-- The newest of a history's points with one added. -/
theorem exists_newest (points : List (Point φ)) (point : Point φ) :
    ∃ newest ∈ points ++ [point], (∀ p ∈ points ++ [point], p.at_ ≤ newest.at_) ∧
      ((((points ++ [point]).mergeSort fun a b => a.at_ ≤ b.at_).getLast?).map (·.at_)).getD 0 =
        newest.at_ := by
  have hperm := List.mergeSort_perm (points ++ [point]) fun a b => decide (a.at_ ≤ b.at_)
  have hsorted := pairwise_sorted (points ++ [point])
  generalize ((points ++ [point]).mergeSort fun a b => decide (a.at_ ≤ b.at_)) = sorted at *
  rcases List.eq_nil_or_concat' sorted with hnil | ⟨older, newest, hsplit⟩
  · rw [hnil] at hperm
    have hlength := hperm.length_eq
    simp at hlength
  · rw [hsplit] at hperm hsorted ⊢
    refine ⟨newest, hperm.mem_iff.mp (by simp), fun p hp => ?_, by simp⟩
    have hin := hperm.mem_iff.mpr hp
    rw [List.pairwise_append] at hsorted
    rcases List.mem_append.mp hin with holder | hnewest
    · exact hsorted.2.2 p holder newest (List.mem_singleton.mpr rfl)
    · rw [List.mem_singleton.mp hnewest]

/-- Points in order, all within the window of each other. -/
def InOrder (points : List (Point φ)) : Prop :=
  points.Pairwise (fun a b => a.at_ ≤ b.at_) ∧
    ∀ p ∈ points, ∀ q ∈ points, q.at_ ≤ p.at_ + WINDOW_MS

/-- A history's points are in order once one is added. -/
theorem inOrder_pushed (points : List (Point φ)) (point : Point φ) :
    InOrder (pushed points point) := by
  obtain ⟨newest, -, hmost, hat⟩ := exists_newest points point
  have hsorted := pairwise_sorted (points ++ [point])
  constructor
  · exact hsorted.filter _
  · intro p hp q hq
    simp only [pushed, hat, List.mem_filter, List.mem_mergeSort, decide_eq_true_eq] at hp hq
    have hnewest := hmost q hq.1
    omega

/-- The point added stays, where none of a history's is newer by more than the window. -/
theorem mem_pushed {points : List (Point φ)} {point : Point φ}
    (hrecent : ∀ p ∈ points, p.at_ ≤ point.at_ + WINDOW_MS) : point ∈ pushed points point := by
  obtain ⟨newest, hin, -, hat⟩ := exists_newest points point
  simp only [pushed, hat, List.mem_filter, List.mem_mergeSort, decide_eq_true_eq]
  refine ⟨by simp, ?_⟩
  rcases List.mem_append.mp hin with hheld | hpoint
  · have hnear := hrecent newest hheld
    omega
  · rw [List.mem_singleton.mp hpoint]
    omega

/-- The point added is lost, where one of a history's is newer by more than the window. -/
theorem lost_of_pushed {points : List (Point φ)} {point p q : Point φ} (hp : p ∈ points)
    (hlate : point.at_ + WINDOW_MS < p.at_) (hq : q ∈ pushed points point) :
    q.at_ ≠ point.at_ := by
  obtain ⟨newest, -, hmost, hat⟩ := exists_newest points point
  simp only [pushed, hat, List.mem_filter, decide_eq_true_eq] at hq
  have hnewest := hmost p (List.mem_append_left _ hp)
  omega

/-! ## Keys of entries -/

/-- Entries under one key are both facts or both readings, and of one series. -/
theorem identityKey_inj {entry other : Entry φ} :
    identityKey write entry = identityKey write other ↔
      entry.fact = other.fact ∧ seriesKey write entry = seriesKey write other := by
  have hfact : units "fact" = [0x66, 0x61, 0x63, 0x74] := by decide
  have hreading : units "reading" = [0x72, 0x65, 0x61, 0x64, 0x69, 0x6E, 0x67] := by decide
  cases hentry : entry.fact <;> cases hother : other.fact <;>
    simp [identityKey, hentry, hother, hfact, hreading]

/-! ## Entries applied -/

/-- What is held under a key once an entry is applied. -/
theorem get_entries (s : Held φ) (entry : Entry φ) (key : Text) :
    get (applyEntry write s entry).entries key =
      if key = identityKey write entry then (if isEnded entry then none else some entry)
      else get s.entries key := by
  by_cases hended : isEnded entry = true
  · simp [applyEntry, hended]
  · by_cases hkey : key = identityKey write entry
    · simp [applyEntry, hended, hkey]
    · simp [applyEntry, hended, hkey, Ne.symm hkey]

/-- An entry that ends no fact of a reading's key, and was not taken longer than the window before
the points of its reading. -/
structure Spared (write : Number φ → Text) (s : Held φ) (entry : Entry φ) : Prop where
  fact : entry.fact = true → isEnded entry = true → get s.history (seriesKey write entry) = none
  reading : entry.fact = false → isEnded entry = false → (numberOf entry).isSome = true →
    ∀ points, get s.history (seriesKey write entry) = some points →
      ∀ p ∈ points, p.at_ ≤ entry.at_ + WINDOW_MS

/-- A history of another key is as it was. -/
theorem get_history_of_ne {s : Held φ} {entry : Entry φ} {key : Text}
    (hkey : key ≠ seriesKey write entry) :
    get (applyEntry write s entry).history key = get s.history key := by
  by_cases hended : isEnded entry = true
  · simp [applyEntry, hended, forgetHistory, hkey]
  · cases hfact : entry.fact with
    | true => simp [applyEntry, hended, pushHistory, hfact]
    | false =>
        cases hnumber : numberOf entry with
        | none => simp [applyEntry, hended, pushHistory, hfact, hnumber]
        | some number =>
            simp [applyEntry, hended, pushHistory, hfact, hnumber, hkey.symm]

/-- A fact leaves the histories as they were. -/
theorem get_history_of_fact {s : Held φ} {entry : Entry φ} (hspared : Spared write s entry)
    (hfact : entry.fact = true) (key : Text) :
    get (applyEntry write s entry).history key = get s.history key := by
  by_cases hkey : key = seriesKey write entry
  · by_cases hended : isEnded entry = true
    · simp [applyEntry, hended, forgetHistory, hkey, hspared.fact hfact hended]
    · simp [applyEntry, hended, pushHistory, hfact]
  · exact get_history_of_ne hkey

/-- A reading that ends has no history. -/
theorem get_history_of_ended {s : Held φ} {entry : Entry φ} (hended : isEnded entry = true) :
    get (applyEntry write s entry).history (seriesKey write entry) = none := by
  simp [applyEntry, hended, forgetHistory]

/-- A reading with a number has it as a point of its history. -/
theorem get_history_of_number {s : Held φ} {entry : Entry φ} {number : Number φ}
    (hended : isEnded entry = false) (hfact : entry.fact = false)
    (hnumber : numberOf entry = some number) :
    get (applyEntry write s entry).history (seriesKey write entry) =
      some (pushed ((get s.history (seriesKey write entry)).getD []) ⟨entry.at_, number⟩) := by
  simp [applyEntry, hended, pushHistory, hfact, hnumber]

/-- A reading without a number leaves the histories as they were. -/
theorem get_history_of_none {s : Held φ} {entry : Entry φ} (hended : isEnded entry = false)
    (hfact : entry.fact = false) (hnumber : numberOf entry = none) (key : Text) :
    get (applyEntry write s entry).history key = get s.history key := by
  simp [applyEntry, hended, pushHistory, hfact, hnumber]

/-- A history after an entry, of a key with one before: gone where the entry is its reading's and
ends it, and still there otherwise. -/
theorem get_history_eq_none_iff {s : Held φ} {entry : Entry φ} (hspared : Spared write s entry)
    {key : Text} {points : List (Point φ)} (hpoints : get s.history key = some points) :
    get (applyEntry write s entry).history key = none ↔
      entry.fact = false ∧ isEnded entry = true ∧ seriesKey write entry = key := by
  by_cases hkey : key = seriesKey write entry
  · cases hfact : entry.fact with
    | true => simp [get_history_of_fact hspared hfact, hpoints]
    | false =>
        cases hended : isEnded entry with
        | true => simp [hkey, get_history_of_ended hended]
        | false =>
            cases hnumber : numberOf entry with
            | none => simp [get_history_of_none hended hfact hnumber, hpoints]
            | some number => simp [hkey, get_history_of_number hended hfact hnumber]
  · rw [get_history_of_ne hkey, hpoints]
    simp [Ne.symm hkey]

/-! ## Histories kept -/

/-- Each entry is under its own key, each reading with a number has it as a point of its history,
and each history's points are in order and within the window. -/
structure Sound (write : Number φ → Text) (s : Held φ) : Prop where
  filed : ∀ entry ∈ s.entries, entry.1 = identityKey write entry.2
  held : ∀ key entry number, get s.entries key = some entry → entry.fact = false →
    numberOf entry = some number →
      ∃ points, get s.history (seriesKey write entry) = some points ∧ ⟨entry.at_, number⟩ ∈ points
  ordered : ∀ key points, get s.history key = some points → InOrder points

/-- A reading whose history is under a key is held. -/
def Has (write : Number φ → Text) (entries : Table (Entry φ)) (series : Text) : Prop :=
  ∃ key entry, get entries key = some entry ∧ entry.fact = false ∧ seriesKey write entry = series

/-- What is held under a key has that key. -/
theorem Sound.key {s : Held φ} (hsound : Sound write s) {key : Text} {entry : Entry φ}
    (hget : get s.entries key = some entry) : key = identityKey write entry :=
  hsound.filed _ (mem_of_get hget)

/-- What applying one entry keeps. -/
theorem Sound.applyEntry {s : Held φ} {entry : Entry φ} (hsound : Sound write s)
    (hspared : Spared write s entry) : Sound write (applyEntry write s entry) where
  filed := by
    intro held hheld
    by_cases hended : isEnded entry = true
    · simp only [Readings.applyEntry, hended, if_true, delete] at hheld
      exact hsound.filed held (List.mem_filter.mp hheld).1
    · simp only [Readings.applyEntry, hended] at hheld
      rcases mem_set hheld with hnew | hold
      · rw [hnew]
      · exact hsound.filed held hold
  held := by
    intro key other number hget hother hnumber
    rw [get_entries] at hget
    by_cases hkey : key = identityKey write entry
    · rw [if_pos hkey] at hget
      by_cases hended : isEnded entry = true
      · rw [if_pos hended] at hget
        cases hget
      · rw [if_neg hended] at hget
        cases hget
        have hlasts : isEnded entry = false := by simpa using hended
        refine ⟨_, get_history_of_number hlasts hother hnumber, mem_pushed fun p hp => ?_⟩
        cases hpoints : get s.history (seriesKey write entry) with
        | none =>
            rw [hpoints] at hp
            cases hp
        | some points =>
            rw [hpoints] at hp
            exact hspared.reading hother hlasts (by simp [hnumber]) points hpoints p hp
    · rw [if_neg hkey] at hget
      obtain ⟨points, hpoints, hin⟩ := hsound.held key other number hget hother hnumber
      refine ⟨points, ?_, hin⟩
      cases hfact : entry.fact with
      | true => rw [get_history_of_fact hspared hfact, hpoints]
      | false =>
          rw [get_history_of_ne ?_, hpoints]
          intro hseries
          refine hkey ((hsound.key hget).trans ?_)
          exact identityKey_inj.mpr ⟨hother.trans hfact.symm, hseries⟩
  ordered := by
    intro key points hpoints
    by_cases hkey : key = seriesKey write entry
    · cases hfact : entry.fact with
      | true => exact hsound.ordered key points (get_history_of_fact hspared hfact key ▸ hpoints)
      | false =>
          cases hended : isEnded entry with
          | true =>
              rw [hkey, get_history_of_ended hended] at hpoints
              cases hpoints
          | false =>
              cases hnumber : numberOf entry with
              | none =>
                  rw [get_history_of_none hended hfact hnumber] at hpoints
                  exact hsound.ordered key points hpoints
              | some number =>
                  rw [hkey, get_history_of_number hended hfact hnumber] at hpoints
                  cases hpoints
                  exact inOrder_pushed _ _
    · rw [get_history_of_ne hkey] at hpoints
      exact hsound.ordered key points hpoints

/-- A reading that is not ended is held once it is applied. -/
theorem has_self {s : Held φ} {entry : Entry φ} (hfact : entry.fact = false)
    (hended : isEnded entry = false) :
    Has write (Readings.applyEntry write s entry).entries (seriesKey write entry) := by
  refine ⟨identityKey write entry, entry, ?_, hfact, rfl⟩
  rw [get_entries, if_pos rfl, hended]
  rfl

/-- A reading held still is once an entry is applied that does not end it. -/
theorem Sound.has {s : Held φ} {entry : Entry φ} {key : Text} (hsound : Sound write s)
    (hhas : Has write s.entries key)
    (hlasts : ¬ (entry.fact = false ∧ isEnded entry = true ∧ seriesKey write entry = key)) :
    Has write (Readings.applyEntry write s entry).entries key := by
  obtain ⟨under, other, hget, hother, hsame⟩ := hhas
  by_cases hunder : under = identityKey write entry
  · have hids := identityKey_inj.mp ((hsound.key hget).symm.trans hunder)
    have hfact : entry.fact = false := hids.1.symm.trans hother
    have hkey : seriesKey write entry = key := hids.2.symm.trans hsame
    have hended : isEnded entry = false := by
      by_contra hended
      exact hlasts ⟨hfact, by simpa using hended, hkey⟩
    exact hkey ▸ has_self hfact hended
  · refine ⟨under, other, ?_, hother, hsame⟩
    rw [get_entries, if_neg hunder, hget]

/-- A history new to its key is of the reading applied. -/
theorem reading_of_new {s : Held φ} {entry : Entry φ} {key : Text} {points : List (Point φ)}
    (hspared : Spared write s entry) (hbefore : get s.history key = none)
    (hpoints : get (Readings.applyEntry write s entry).history key = some points) :
    entry.fact = false ∧ isEnded entry = false ∧ seriesKey write entry = key := by
  have hkey : key = seriesKey write entry := by
    by_contra hne
    rw [get_history_of_ne hne, hbefore] at hpoints
    cases hpoints
  refine ⟨?_, ?_, hkey.symm⟩
  · by_contra hfact
    rw [get_history_of_fact hspared (by simpa using hfact), hbefore] at hpoints
    cases hpoints
  · by_contra hended
    rw [hkey, get_history_of_ended (by simpa using hended)] at hpoints
    cases hpoints

/-- A history's reading is held once an entry is applied, where it was before. -/
theorem Sound.has_of_history {s : Held φ} {entry : Entry φ} {key : Text} {points : List (Point φ)}
    (hsound : Sound write s) (hspared : Spared write s entry)
    (hhas : ∀ points, get s.history key = some points → Has write s.entries key)
    (hpoints : get (Readings.applyEntry write s entry).history key = some points) :
    Has write (Readings.applyEntry write s entry).entries key := by
  cases hbefore : get s.history key with
  | none =>
      obtain ⟨hfact, hended, hkey⟩ := reading_of_new hspared hbefore hpoints
      exact hkey ▸ has_self hfact hended
  | some before =>
      refine hsound.has (hhas before hbefore) fun hgone => ?_
      rw [(get_history_eq_none_iff hspared hbefore).mpr hgone] at hpoints
      cases hpoints

/-! ## Batches applied -/

/-- A batch whose every entry is spared as it comes to be applied. -/
def Meets (write : Number φ → Text) (s : Held φ) (batch : List (Entry φ)) (first : Bool) : Prop :=
  ∀ before entry after, batch = before ++ entry :: after →
    Spared write (applied write s first before) entry

/-- Applying a batch and one entry more. -/
theorem applied_concat (s : Held φ) (first : Bool) (batch : List (Entry φ)) (entry : Entry φ) :
    applied write s first (batch ++ [entry]) =
      applyEntry write (applied write s first batch) entry := by
  simp [applied]

theorem applied_singleton (s : Held φ) (first : Bool) (entry : Entry φ) :
    applied write s first [entry] =
      applyEntry write ⟨if first then [] else s.entries, s.history⟩ entry :=
  rfl

/-- What a batch meets, it meets without its last entry. -/
theorem Meets.concat {s : Held φ} {batch : List (Entry φ)} {entry : Entry φ} {first : Bool}
    (hmeets : Meets write s (batch ++ [entry]) first) :
    Meets write s batch first ∧ Spared write (applied write s first batch) entry := by
  refine ⟨fun before other after hsplit => ?_, hmeets batch entry [] rfl⟩
  exact hmeets before other (after ++ [entry]) (by simp [hsplit])

/-- What applying a batch keeps. -/
theorem Sound.applied {s : Held φ} {batch : List (Entry φ)} {first : Bool}
    (hsound : Sound write s) (hmeets : Meets write s batch first) :
    Sound write (applied write s first batch) := by
  induction batch using List.reverseRecOn with
  | nil =>
      cases first with
      | true =>
          refine ⟨fun _ hnil => (List.not_mem_nil hnil).elim, ?_, hsound.ordered⟩
          intro key entry number hnil
          cases hnil
      | false => exact hsound
  | append_singleton batch entry ih =>
      rw [applied_concat]
      exact (ih hmeets.concat.1).applyEntry hmeets.concat.2

/-- Histories stay those of readings held as a batch that is no feed's first is applied. -/
theorem Sound.has_applied {s : Held φ} {batch : List (Entry φ)} {key : Text}
    {points : List (Point φ)} (hsound : Sound write s) (hmeets : Meets write s batch false)
    (hhas : ∀ points, get s.history key = some points → Has write s.entries key)
    (hpoints : get (Readings.applied write s false batch).history key = some points) :
    Has write (Readings.applied write s false batch).entries key := by
  induction batch using List.reverseRecOn generalizing points with
  | nil => exact hhas points hpoints
  | append_singleton batch entry ih =>
      obtain ⟨hrest, hspared⟩ := hmeets.concat
      rw [applied_concat] at hpoints ⊢
      exact (hsound.applied hrest).has_of_history hspared (fun _ => ih hrest) hpoints

/-- A history left by a batch is of a reading held, where the batch has its reading. -/
theorem Sound.has_of_mem {s : Held φ} {batch : List (Entry φ)} {first : Bool} {reading : Entry φ}
    {points : List (Point φ)} (hsound : Sound write s) (hmeets : Meets write s batch first)
    (hin : reading ∈ batch) (hfact : reading.fact = false)
    (hpoints : get (Readings.applied write s first batch).history (seriesKey write reading) =
      some points) :
    Has write (Readings.applied write s first batch).entries (seriesKey write reading) := by
  induction batch using List.reverseRecOn generalizing points with
  | nil => cases hin
  | append_singleton batch entry ih =>
      obtain ⟨hrest, hspared⟩ := hmeets.concat
      rw [applied_concat] at hpoints ⊢
      rcases List.mem_append.mp hin with hbefore | hlast
      · exact (hsound.applied hrest).has_of_history hspared (fun _ => ih hrest hbefore) hpoints
      · rw [← List.mem_singleton.mp hlast] at hpoints ⊢
        refine has_self hfact ?_
        by_contra hended
        rw [get_history_of_ended (by simpa using hended)] at hpoints
        cases hpoints

/-- What a feed's first batch leaves held, it has. -/
theorem mem_of_applied {s : Held φ} {batch : List (Entry φ)} {entry : Text × Entry φ}
    (hmem : entry ∈ (applied write s true batch).entries) : entry.2 ∈ batch := by
  induction batch using List.reverseRecOn with
  | nil => cases hmem
  | append_singleton batch last ih =>
      rw [applied_concat] at hmem
      by_cases hended : isEnded last = true
      · simp only [applyEntry, hended, if_true, delete] at hmem
        exact List.mem_append_left _ (ih (List.mem_filter.mp hmem).1)
      · simp only [applyEntry, hended] at hmem
        rcases mem_set hmem with hnew | hold
        · rw [hnew]
          exact List.mem_append_right _ List.mem_cons_self
        · exact List.mem_append_left _ (ih hold)

/-- The keys of the readings held. -/
theorem mem_seriesOf {s : Held φ} (hsound : Sound write s) {key : Text} :
    key ∈ seriesOf write s.entries ↔ Has write s.entries key := by
  simp only [seriesOf, List.mem_map, List.mem_filter, Bool.not_eq_true']
  constructor
  · intro hin
    obtain ⟨entry, ⟨⟨held, hheld, hsame⟩, hfact⟩, hkey⟩ := hin
    obtain ⟨other, hget⟩ := exists_get_of_mem hheld
    have hids := identityKey_inj.mp ((hsound.key hget).symm.trans (hsound.filed held hheld))
    rw [hsame] at hids
    exact ⟨held.1, other, hget, hids.1.trans hfact, hids.2.trans hkey⟩
  · intro hhas
    obtain ⟨under, entry, hget, hfact, hkey⟩ := hhas
    exact ⟨entry, ⟨⟨(under, entry), mem_of_get hget, rfl⟩, hfact⟩, hkey⟩

/-- What is held under a key is left by entries of other keys. -/
theorem get_entries_of_foldl {s : Held φ} {batch : List (Entry φ)} {key : Text}
    (hkey : ∀ entry ∈ batch, identityKey write entry ≠ key) :
    get (batch.foldl (applyEntry write) s).entries key = get s.entries key := by
  induction batch generalizing s with
  | nil => rfl
  | cons entry rest ih =>
      rw [List.foldl_cons, ih fun other hother => hkey other (List.mem_cons_of_mem _ hother),
        get_entries, if_neg (hkey entry List.mem_cons_self).symm]

/-- What applying a whole batch leaves. -/
theorem applyBatch_eq {s next : Held φ} {batch : List (Entry φ)} {first : Bool}
    (hnext : applyBatch write s batch first = some next) :
    next.entries = (applied write s first batch).entries ∧
      ∀ key, get next.history key =
        if first = true ∧ key ∉ seriesOf write (applied write s first batch).entries then none
        else get (applied write s first batch).history key := by
  rw [applyBatch] at hnext
  split at hnext
  · cases hnext
  · cases first with
    | false =>
        cases hnext
        exact ⟨rfl, fun key => by simp⟩
    | true =>
        cases hnext
        refine ⟨rfl, fun key => ?_⟩
        have hfilter := get_filter
          (fun held => (seriesOf write (applied write s true batch).entries).contains held)
          (applied write s true batch).history key
        rw [hfilter]
        by_cases hin : key ∈ seriesOf write (applied write s true batch).entries <;> simp [hin]

/-- What is held is sound, and each history is of a reading held. -/
structure Kept (write : Number φ → Text) (s : Held φ) : Prop where
  sound : Sound write s
  series : ∀ key points, get s.history key = some points → Has write s.entries key

/-- How a batch moves what is held: an entry that lasts is held until one of its key comes, no fact
changes a history, and a history goes exactly where its reading is ended or a feed's first batch has
no such reading. -/
structure Follows (write : Number φ → Text) (s : Held φ) (batch : List (Entry φ)) (first : Bool)
    (next : Held φ) : Prop where
  last : ∀ before entry after, batch = before ++ entry :: after → isEnded entry = false →
    (∀ other ∈ after, identityKey write other ≠ identityKey write entry) →
      get next.entries (identityKey write entry) = some entry
  facts : ∀ before entry after, batch = before ++ entry :: after → entry.fact = true →
    ∀ key, get (applied write s first (before ++ [entry])).history key =
      get (applied write s first before).history key
  ended : ∀ before entry after key points, batch = before ++ entry :: after →
    get (applied write s first before).history key = some points →
      (get (applied write s first (before ++ [entry])).history key = none ↔
        entry.fact = false ∧ isEnded entry = true ∧ seriesKey write entry = key)
  missing : ∀ key points, get (applied write s first batch).history key = some points →
    (get next.history key = none ↔
      first = true ∧ ∀ entry ∈ batch, entry.fact = false → seriesKey write entry ≠ key)
  same : ∀ key points, get next.history key = some points →
    get (applied write s first batch).history key = some points

/-- What is held is kept by a batch. -/
theorem Kept.applyBatch {s next : Held φ} {batch : List (Entry φ)} {first : Bool}
    (hkept : Kept write s) (hmeets : Meets write s batch first)
    (hnext : applyBatch write s batch first = some next) : Kept write next := by
  obtain ⟨hentries, hhistory⟩ := applyBatch_eq hnext
  have hsound := hkept.sound.applied hmeets
  have hwas : ∀ key points, get next.history key = some points →
      ¬ (first = true ∧ key ∉ seriesOf write (Readings.applied write s first batch).entries) ∧
        get (Readings.applied write s first batch).history key = some points := by
    intro key points hpoints
    rw [hhistory] at hpoints
    split at hpoints
    · cases hpoints
    · exact ⟨‹_›, hpoints⟩
  refine ⟨⟨?_, ?_, fun key points hpoints => hsound.ordered key points (hwas key points hpoints).2⟩,
    ?_⟩
  · rw [hentries]
    exact hsound.filed
  · intro key entry number hget hfact hnumber
    rw [hentries] at hget
    have hin := (mem_seriesOf hsound).mpr ⟨key, entry, hget, hfact, rfl⟩
    rw [hhistory, if_neg fun hgone => hgone.2 hin]
    exact hsound.held key entry number hget hfact hnumber
  · intro key points hpoints
    obtain ⟨hstays, hleft⟩ := hwas key points hpoints
    rw [hentries]
    cases first with
    | true =>
        refine (mem_seriesOf hsound).mp ?_
        by_contra hout
        exact hstays ⟨rfl, hout⟩
    | false => exact hkept.sound.has_applied hmeets (hkept.series key) hleft

/-- How a batch of entries that are spared moves what is held. -/
theorem Kept.follows {s next : Held φ} {batch : List (Entry φ)} {first : Bool}
    (hkept : Kept write s) (hmeets : Meets write s batch first)
    (hnext : Readings.applyBatch write s batch first = some next) :
    Follows write s batch first next where
  last := by
    intro before entry after hsplit hended hothers
    rw [(applyBatch_eq hnext).1, hsplit, Readings.applied, List.foldl_append, List.foldl_cons,
      get_entries_of_foldl hothers, get_entries, if_pos rfl, hended]
    rfl
  facts := by
    intro before entry after hsplit hfact key
    rw [applied_concat]
    exact get_history_of_fact (hmeets before entry after hsplit) hfact key
  ended := by
    intro before entry after key points hsplit hpoints
    rw [applied_concat]
    exact get_history_eq_none_iff (hmeets before entry after hsplit) hpoints
  missing := by
    intro key points hpoints
    rw [(applyBatch_eq hnext).2 key, hpoints]
    have hsound := hkept.sound.applied hmeets
    constructor
    · intro hgone
      by_cases hout : first = true ∧
          key ∉ seriesOf write (Readings.applied write s first batch).entries
      · refine ⟨hout.1, fun entry hin hfact hkey => hout.2 ?_⟩
        rw [mem_seriesOf hsound, ← hkey]
        exact hkept.sound.has_of_mem hmeets hin hfact (hkey.symm ▸ hpoints)
      · rw [if_neg hout] at hgone
        cases hgone
    · intro hgone
      obtain ⟨hfirst, hnone⟩ := hgone
      refine if_pos ⟨hfirst, fun hin => ?_⟩
      obtain ⟨under, entry, hget, hfact, hkey⟩ := (mem_seriesOf hsound).mp hin
      subst hfirst
      exact hnone entry (mem_of_applied (mem_of_get hget)) hfact hkey
  same := by
    intro key points hpoints
    rw [(applyBatch_eq hnext).2 key] at hpoints
    split at hpoints
    · cases hpoints
    · exact hpoints

end

/-- Nothing held is kept. -/
theorem kept_nil (write : Number φ → Text) : Kept write ⟨[], []⟩ := by
  refine ⟨⟨fun _ hnil => (List.not_mem_nil hnil).elim, ?_, ?_⟩, ?_⟩
  · intro key entry number hnil
    cases hnil
  · intro key points hnil
    cases hnil
  · intro key points hnil
    cases hnil

/-- Over every run of batches whose entries are spared, each reading held with a number has it in
its history, each history is in order and within the window, and is of a reading held; and so is
what each such batch leaves, which drops a history exactly where its reading is ended or missing. -/
theorem histories_kept (write : Number φ → Text) (s : Held φ)
    (hreach : ((system write).guarded fun s batch => Meets write s batch.1 batch.2).Reachable s) :
    Kept write s ∧ ∀ batch first next, Meets write s batch first →
      applyBatch write s batch first = some next →
        Kept write next ∧ Follows write s batch first next := by
  have hkept : Kept write s := by
    refine hreach.invariant ?_ ?_
    · intro start hstart
      rw [show start = ⟨[], []⟩ from hstart]
      exact kept_nil write
    · intro before batch after _ hbefore hstep
      exact hbefore.applyBatch hstep.1 hstep.2
  refine ⟨hkept, fun batch first next hmeets hnext => ?_⟩
  exact ⟨hkept.applyBatch hmeets hnext, hkept.follows hmeets hnext⟩

/-! ## Runs -/

/-- A reading of a fan, taken at some moment. -/
def spin (moment : ℕ) : Entry ℕ where
  fact := false
  name := "fan-speed"
  at_ := moment
  traits := []
  kind := "quantity"
  value := some (.number (.int 1200))

/-- A fact of the same name and kind that has ended. -/
def stopped : Entry ℕ where
  fact := true
  name := "fan-speed"
  at_ := 0
  traits := [("status", .object [("is", .string "ended")])]
  kind := "quantity"
  value := none

/-- A feed's first reading is spared where nothing is held. -/
theorem meets_spin (write : Number ℕ → Text) (moment : ℕ) :
    Meets write ⟨[], []⟩ [spin moment] true := by
  intro before entry after hsplit
  cases before with
  | nil =>
      cases hsplit
      constructor
      · intro hfact
        cases hfact
      · intro _ _ _ points hnil
        cases hnil
  | cons head rest =>
      have hlength := congrArg List.length hsplit
      simp at hlength

/-- What a fan's reading leaves, the first of a feed. -/
theorem histories_kept_fan : ∃ next, applyBatch (fun _ => []) ⟨[], []⟩ [spin 0] true = some next ∧
    Kept (fun _ => []) next := by
  obtain ⟨-, hmoves⟩ := histories_kept (fun _ : Number ℕ => []) ⟨[], []⟩ (.start rfl)
  exact ⟨_, rfl, (hmoves [spin 0] true _ (meets_spin _ 0) rfl).1⟩

/-- The fact and the reading are of one series. -/
theorem seriesKey_stopped (write : Number ℕ → Text) (moment : ℕ) :
    seriesKey write stopped = seriesKey write (spin moment) := by
  have htraits : distinguishing stopped.traits = distinguishing (spin moment).traits := by
    simp [distinguishing, stopped, spin, DESCRIPTIVE]
  have htold : "fan-speed" ∉ TOLD_APART_BY_VALUE := by decide
  rw [seriesKey, seriesKey, htraits]
  simp [stopped, spin, htold]

/-- A fan's reading is held once it is applied, the first of a feed. -/
theorem exists_spin (write : Number ℕ → Text) (moment : ℕ) :
    ∃ s, applyBatch write ⟨[], []⟩ [spin moment] true = some s ∧
      get s.entries (identityKey write (spin moment)) = some (spin moment) ∧
        ∃ points, get s.history (seriesKey write (spin moment)) = some points ∧
          ⟨moment, .int 1200⟩ ∈ points := by
  obtain ⟨s, hnext⟩ : ∃ s, applyBatch write ⟨[], []⟩ [spin moment] true = some s := ⟨_, rfl⟩
  have hget : get s.entries (identityKey write (spin moment)) = some (spin moment) := by
    rw [(applyBatch_eq hnext).1, applied_singleton, get_entries, if_pos rfl]
    rfl
  have hkept := (kept_nil write).applyBatch (meets_spin write moment) hnext
  exact ⟨s, hnext, hget, hkept.sound.held _ _ (.int 1200) hget rfl rfl⟩

/-- A fact that ends drops the history of the reading of its key; and after a reboot, a reading
whose history holds a point later by more than the window is not in that history. -/
theorem not_kept :
    (∃ s, Transition.System.run (fun s batch => applyBatch (fun _ => []) s batch.1 batch.2)
      ⟨[], []⟩ [([spin 0], true), ([stopped], false)] = some s ∧ ¬ Kept (fun _ => []) s) ∧
    ∃ s, Transition.System.run (fun s batch => applyBatch (fun _ => []) s batch.1 batch.2)
      ⟨[], []⟩ [([spin 400000], true), ([spin 0], true)] = some s ∧ ¬ Kept (fun _ => []) s := by
  constructor
  · obtain ⟨s, hfirst, hget, -⟩ := exists_spin (fun _ => []) 0
    refine ⟨applyEntry (fun _ => []) s stopped, ?_, fun hkept => ?_⟩
    · rw [Transition.System.run_cons _ hfirst]
      rfl
    · have hended : isEnded stopped = true := by decide
      have hother : identityKey (fun _ => []) (spin 0) ≠ identityKey (fun _ => []) stopped := by
        intro hsame
        cases (identityKey_inj.mp hsame).1
      have hstill := @get_entries _ (fun _ => []) s stopped
        (identityKey (fun _ => []) (spin 0))
      rw [if_neg hother, hget] at hstill
      obtain ⟨points, hpoints, -⟩ := hkept.sound.held _ _ (.int 1200) hstill rfl rfl
      rw [← seriesKey_stopped, get_history_of_ended hended] at hpoints
      cases hpoints
  · obtain ⟨s, hfirst, -, before, hbefore, hin⟩ := exists_spin (fun _ => []) 400000
    obtain ⟨next, hnext⟩ : ∃ next, applyBatch (fun _ => []) s [spin 0] true = some next :=
      ⟨_, rfl⟩
    refine ⟨next, ?_, fun hkept => ?_⟩
    · rw [Transition.System.run_cons _ hfirst, Transition.System.run_cons _ hnext]
      rfl
    · obtain ⟨hentries, hhistory⟩ := applyBatch_eq hnext
      have hget : get next.entries (identityKey (fun _ => []) (spin 0)) = some (spin 0) := by
        rw [hentries, applied_singleton, get_entries, if_pos rfl]
        rfl
      obtain ⟨points, hpoints, hpoint⟩ := hkept.sound.held _ _ (.int 1200) hget rfl rfl
      have hseries : seriesKey (fun _ : Number ℕ => []) (spin 0) = seriesKey _ (spin 400000) := rfl
      have hpushed : get (applied (fun _ => []) s true [spin 0]).history
          (seriesKey (fun _ => []) (spin 0)) = some (pushed before ⟨0, .int 1200⟩) := by
        have hlasts : isEnded (spin 0) = false := by decide
        rw [applied_singleton, get_history_of_number hlasts rfl rfl, hseries, hbefore]
        rfl
      rw [hhistory] at hpoints
      split at hpoints
      · cases hpoints
      · rw [hpushed] at hpoints
        cases hpoints
        exact lost_of_pushed hin (by decide) hpoint rfl

end Bliti.App.Readings
