import Bliti.Library.Roster
import Bliti.Library.Transition

/-!
# The device's transmit slots

Which client holds which device transmit slot.  An allocation that finds no slot free asks of
each holder in turn whether it is still connected, and frees those that are not; it may be cut
off while it waits for an answer, the table left as far as it had come.  Whether a client is
connected is left to whatever answers.

Main results:

- Theorem `slots_belong`: over every run, who holds a slot, keeps it, and is turned away; and
  of which slots `holds` tells.
-/

namespace Bliti.Slots

variable {α : Type}

/-! ## Slots -/

/-- How many slots a device offers, and so how many clients it serves at once. -/
def COUNT : ℕ := 8

/-- One of the device transmit characteristics a device notifies on. -/
structure Slot where
  number : ℕ
  offered : number < COUNT
deriving DecidableEq

/-- The slot of a number. -/
def Slot.new (number : ℕ) : Option Slot :=
  if h : number < COUNT then some ⟨number, h⟩ else none

/-- Every slot a device offers, in order: those it registers a characteristic for. -/
def Slot.all : List Slot :=
  (List.range COUNT).filterMap Slot.new

/-- The device's decision on a client reading the allocation characteristic. -/
inductive Allocation where
  | given (slot : Slot)
  | full
deriving DecidableEq

/-- A slot is found by its number. -/
theorem Slot.new_number (slot : Slot) : new slot.number = some slot :=
  dif_pos slot.offered

theorem Slot.mem_all (slot : Slot) : slot ∈ all :=
  List.mem_filterMap.mpr ⟨slot.number, List.mem_range.mpr slot.offered, slot.new_number⟩

/-! ## The table -/

/-- The client holding each slot given out: the first `count` a device offers, and no more. -/
def new (count : UInt8) : List (Option α) :=
  List.replicate (min count.toNat COUNT) none

/-- What asking the holders came to: the table, what each asked answered, and whether it was let
run to its end. -/
structure Sweep (α : Type) where
  held : List (Option α)
  asked : List (α × Bool)
  finished : Bool

/-- Free each slot whose holder is told not to be connected, the answers coming in turn; where
they run out, the call is cut off waiting for one. -/
def sweep : List (Option α) → List Bool → Sweep α
  | [], _ => ⟨[], [], true⟩
  | none :: rest, answers =>
      let swept := sweep rest answers
      ⟨none :: swept.held, swept.asked, swept.finished⟩
  | some address :: rest, [] => ⟨some address :: rest, [], false⟩
  | some address :: rest, connected :: answers =>
      let swept := sweep rest answers
      ⟨(if connected then some address else none) :: swept.held, (address, connected) :: swept.asked,
        swept.finished⟩

/-! ## Sweeping -/

/-- No client holds two slots. -/
def Distinct (held : List (Option α)) : Prop :=
  ∀ (i j : ℕ) (a : α), held[i]? = some (some a) → held[j]? = some (some a) → i = j

theorem mem_iff_getElem? {held : List (Option α)} {holder : Option α} :
    holder ∈ held ↔ ∃ i : ℕ, held[i]? = some holder :=
  List.mem_iff_getElem?

/-- A sweep leaves as many slots. -/
@[simp]
theorem length_sweep (held : List (Option α)) (answers : List Bool) :
    (sweep held answers).held.length = held.length := by
  induction held generalizing answers with
  | nil => rfl
  | cons holder rest ih =>
      cases holder with
      | none => simp [sweep, ih]
      | some address =>
          cases answers with
          | nil => rfl
          | cons connected answers => simp [sweep, ih]

/-- A slot is left as it was, or freed of a holder told not to be connected. -/
theorem getElem?_sweep (held : List (Option α)) (answers : List Bool) (i : ℕ) :
    (sweep held answers).held[i]? = held[i]? ∨ ∃ a, held[i]? = some (some a) ∧
      (sweep held answers).held[i]? = some none ∧ (a, false) ∈ (sweep held answers).asked := by
  induction held generalizing answers i with
  | nil => exact .inl rfl
  | cons holder rest ih =>
      cases holder with
      | none =>
          cases i with
          | zero => exact .inl rfl
          | succ i => exact ih answers i
      | some address =>
          cases answers with
          | nil => exact .inl rfl
          | cons connected answers =>
              cases i with
              | zero =>
                  cases connected with
                  | true => exact .inl rfl
                  | false => exact .inr ⟨address, rfl, rfl, List.mem_cons_self⟩
              | succ i =>
                  rcases ih answers i with hsame | ⟨a, hheld, hfreed, hasked⟩
                  · exact .inl hsame
                  · exact .inr ⟨a, hheld, hfreed, List.mem_cons_of_mem _ hasked⟩

/-- Who holds a slot after a sweep held it before. -/
theorem holder_of_sweep {held : List (Option α)} {answers : List Bool} {i : ℕ} {a : α}
    (hheld : (sweep held answers).held[i]? = some (some a)) : held[i]? = some (some a) := by
  rcases getElem?_sweep held answers i with hsame | ⟨-, -, hfreed, -⟩
  · rwa [← hsame]
  · rw [hfreed] at hheld
    cases hheld

/-- Only holders are asked. -/
theorem mem_of_asked {held : List (Option α)} {answers : List Bool} {a : α} {connected : Bool}
    (hasked : (a, connected) ∈ (sweep held answers).asked) : some a ∈ held := by
  induction held generalizing answers with
  | nil => cases hasked
  | cons holder rest ih =>
      cases holder with
      | none => exact List.mem_cons_of_mem _ (ih hasked)
      | some address =>
          cases answers with
          | nil => cases hasked
          | cons answer answers =>
              rcases List.mem_cons.mp hasked with hsame | hlater
              · cases hsame
                exact List.mem_cons_self
              · exact List.mem_cons_of_mem _ (ih hlater)

/-- A sweep runs to its end and leaves every slot held exactly where each holder answered that it is
connected. -/
theorem sweep_full {held : List (Option α)} {answers : List Bool} (hdistinct : Distinct held)
    (hnone : none ∉ held) :
    ((sweep held answers).finished = true ∧ none ∉ (sweep held answers).held) ↔
      ∀ holder ∈ held, ∃ a, holder = some a ∧ (a, true) ∈ (sweep held answers).asked := by
  induction held generalizing answers with
  | nil => simp [sweep]
  | cons holder rest ih =>
      cases holder with
      | none => exact absurd List.mem_cons_self hnone
      | some address =>
          have hrest : Distinct rest := fun i j a hi hj =>
            Nat.succ.inj (hdistinct (i + 1) (j + 1) a hi hj)
          have hother : some address ∉ rest := by
            intro hmem
            obtain ⟨j, hj⟩ := mem_iff_getElem?.mp hmem
            have hsame := hdistinct 0 (j + 1) address rfl hj
            cases hsame
          have hless : none ∉ rest := fun hmem => hnone (List.mem_cons_of_mem _ hmem)
          cases answers with
          | nil =>
              refine iff_of_false (by simp [sweep]) fun hall => ?_
              obtain ⟨a, -, hasked⟩ := hall _ List.mem_cons_self
              cases hasked
          | cons connected answers =>
              have hasked : ∀ answer, (address, answer) ∉ (sweep rest answers).asked :=
                fun answer hin => hother (mem_of_asked hin)
              rw [List.forall_mem_cons]
              cases connected with
              | false => simp [sweep, hasked]
              | true =>
                  have hone : ∃ a, some address = some a ∧
                      (a, true) ∈ (sweep (some address :: rest) (true :: answers)).asked :=
                    ⟨address, rfl, List.mem_cons_self⟩
                  have hothers : (∀ holder ∈ rest, ∃ a, holder = some a ∧
                        (a, true) ∈ (sweep (some address :: rest) (true :: answers)).asked) ↔
                      ∀ holder ∈ rest, ∃ a, holder = some a ∧
                        (a, true) ∈ (sweep rest answers).asked := by
                    refine forall₂_congr fun holder hholder => exists_congr fun a => ?_
                    refine and_congr_right fun hsame => ?_
                    have hne : a ≠ address := by
                      rintro rfl
                      exact hother (hsame ▸ hholder)
                    simp [sweep, hne]
                  rw [and_iff_right hone, hothers, ← ih hrest hless]
                  simp [sweep]

section

variable [DecidableEq α]

/-- The first slot held so. -/
def find (held : List (Option α)) (holder : Option α) : Option Slot :=
  (held.findIdx? (· == holder)).bind Slot.new

/-- What an allocation came to: the table, what each holder asked answered, and the decision where
it was not cut off. -/
structure Call (α : Type) where
  held : List (Option α)
  asked : List (α × Bool)
  decision : Option Allocation

/-- The table an allocation decides on: swept only where no slot is free. -/
def freed (held : List (Option α)) (answers : List Bool) : Sweep α :=
  match find held none with
  | some _ => ⟨held, [], true⟩
  | none => sweep held answers

/-- Give a client a slot, the one it already holds where it holds one. -/
def allocate (held : List (Option α)) (client : α) (answers : List Bool) : Call α :=
  match find held (some client) with
  | some slot => ⟨held, [], some (.given slot)⟩
  | none =>
      let swept := freed held answers
      if swept.finished then
        match find swept.held none with
        | some slot =>
            ⟨swept.held.set slot.number (some client), swept.asked, some (.given slot)⟩
        | none => ⟨swept.held, swept.asked, some .full⟩
      else ⟨swept.held, swept.asked, none⟩

/-- Whether a slot was given to a client; nothing where the table does not reach the slot and the
call panics. -/
def holds (held : List (Option α)) (slot : Slot) (client : α) : Option Bool :=
  held[slot.number]?.map fun holder => holder == some client

/-! ## Calls one after another -/

/-- A call on the table. -/
inductive Op (α : Type) where
  | allocate (client : α) (answers : List Bool)
  | holds (slot : Slot) (client : α)

/-- The table after a call. -/
def take (held : List (Option α)) : Op α → List (Option α)
  | .allocate client answers => (Slots.allocate held client answers).held
  | .holds _ _ => held

/-- What each holder asked in a call answered. -/
def told (held : List (Option α)) : Op α → List (α × Bool)
  | .allocate client answers => (Slots.allocate held client answers).asked
  | .holds _ _ => []

/-- A table of some slots, under any calls. -/
def system (α : Type) [DecidableEq α] (count : UInt8) : Transition.System (List (Option α)) (Op α) where
  init := fun held => held = new count
  step := fun held op next => next = take held op

/-! ## Finding -/

/-- A slot found is held so. -/
theorem getElem?_of_find {held : List (Option α)} {holder : Option α} {slot : Slot}
    (hfind : find held holder = some slot) : held[slot.number]? = some holder := by
  obtain ⟨number, hnumber, hslot⟩ := Option.bind_eq_some_iff.mp hfind
  unfold Slot.new at hslot
  split at hslot
  · cases hslot
    obtain ⟨hlt, hsame, -⟩ := List.findIdx?_eq_some_iff_getElem.mp hnumber
    rw [List.getElem?_eq_getElem hlt, beq_iff_eq.mp hsame]
  · cases hslot

/-- Nothing is found exactly where no slot is held so. -/
theorem find_eq_none {held : List (Option α)} {holder : Option α} (hsize : held.length ≤ COUNT) :
    find held holder = none ↔ holder ∉ held := by
  constructor
  · intro hfind hmem
    unfold find at hfind
    cases hnumber : held.findIdx? (· == holder) with
    | none =>
        have hnot := List.findIdx?_eq_none_iff.mp hnumber holder hmem
        simp at hnot
    | some number =>
        obtain ⟨hlt, -, -⟩ := List.findIdx?_eq_some_iff_getElem.mp hnumber
        have hoffered : number < COUNT := by omega
        simp [hnumber, Slot.new, hoffered] at hfind
  · intro hnot
    have hnumber : held.findIdx? (· == holder) = none := by
      refine List.findIdx?_eq_none_iff.mpr fun other hother => ?_
      simpa using fun hsame : other = holder => hnot (hsame ▸ hother)
    rw [find, hnumber, Option.bind_none]

/-- The one slot a client holds is found. -/
theorem Distinct.find {held : List (Option α)} (hdistinct : Distinct held)
    (hsize : held.length ≤ COUNT) {client : α} {slot : Slot}
    (hheld : held[slot.number]? = some (some client)) : find held (some client) = some slot := by
  cases hfind : Slots.find held (some client) with
  | none => exact absurd (mem_iff_getElem?.mpr ⟨_, hheld⟩) ((find_eq_none hsize).mp hfind)
  | some found =>
      have hsame := hdistinct _ _ _ (getElem?_of_find hfind) hheld
      obtain ⟨number, hoffered⟩ := found
      obtain ⟨other, hother⟩ := slot
      cases hsame
      rfl

/-! ## Allocating -/

/-- A table is swept where no slot is free, and left as it is where one is. -/
theorem freed_eq {held : List (Option α)} (hsize : held.length ≤ COUNT) (answers : List Bool) :
    (freed held answers = ⟨held, [], true⟩ ∧ none ∈ held) ∨
      (freed held answers = sweep held answers ∧ none ∉ held) := by
  unfold freed
  cases hfind : find held none with
  | some slot => exact .inl ⟨rfl, mem_iff_getElem?.mpr ⟨_, getElem?_of_find hfind⟩⟩
  | none => exact .inr ⟨rfl, (find_eq_none hsize).mp hfind⟩

/-- A slot a table freed has no holder it had not. -/
theorem holder_of_freed {held : List (Option α)} {answers : List Bool} {i : ℕ} {a : α}
    (hheld : (freed held answers).held[i]? = some (some a)) : held[i]? = some (some a) := by
  unfold freed at hheld
  split at hheld
  · exact hheld
  · exact holder_of_sweep hheld

/-- A table freed has as many slots. -/
@[simp]
theorem length_freed (held : List (Option α)) (answers : List Bool) :
    (freed held answers).held.length = held.length := by
  unfold freed
  split
  · rfl
  · exact length_sweep held answers

/-- A holder stays where a table is freed, or was told not to be connected, no slot being free. -/
theorem kept_of_freed {held : List (Option α)} (hsize : held.length ≤ COUNT) {answers : List Bool}
    {i : ℕ} {a : α} (hheld : held[i]? = some (some a)) :
    (freed held answers).held[i]? = some (some a) ∨
      none ∉ held ∧ (a, false) ∈ (freed held answers).asked := by
  rcases freed_eq hsize answers with ⟨hsame, -⟩ | ⟨hsame, hnone⟩
  · rw [hsame]
    exact .inl hheld
  · rw [hsame]
    rcases getElem?_sweep held answers i with hsame | ⟨b, hb, -, hasked⟩
    · exact .inl (hsame.trans hheld)
    · rw [hheld] at hb
      cases hb
      exact .inr ⟨hnone, hasked⟩

/-- How an allocation goes: its caller holds a slot already; it is cut off; it is given a slot that
is free, or freed; or none is. -/
inductive Allocates (held : List (Option α)) (client : α) (answers : List Bool) : Call α → Prop
  | again {slot : Slot} (hheld : held[slot.number]? = some (some client)) :
      Allocates held client answers ⟨held, [], some (.given slot)⟩
  | cut (hnew : some client ∉ held) (hcut : (freed held answers).finished = false) :
      Allocates held client answers ⟨(freed held answers).held, (freed held answers).asked, none⟩
  | given {slot : Slot} (hnew : some client ∉ held)
      (hended : (freed held answers).finished = true)
      (hfree : (freed held answers).held[slot.number]? = some none) :
      Allocates held client answers ⟨(freed held answers).held.set slot.number (some client),
        (freed held answers).asked, some (.given slot)⟩
  | full (hnew : some client ∉ held) (hended : (freed held answers).finished = true)
      (hfull : none ∉ (freed held answers).held) :
      Allocates held client answers
        ⟨(freed held answers).held, (freed held answers).asked, some .full⟩

/-- An allocation goes in one of these ways. -/
theorem allocate_allocates {held : List (Option α)} (hsize : held.length ≤ COUNT) (client : α)
    (answers : List Bool) : Allocates held client answers (allocate held client answers) := by
  have hsizeFreed : (freed held answers).held.length ≤ COUNT := by
    rwa [length_freed]
  unfold allocate
  split
  · rename_i slot hfind
    exact .again (getElem?_of_find hfind)
  · rename_i hnone
    have hnew := (find_eq_none hsize).mp hnone
    simp only
    split
    · rename_i hended
      split
      · rename_i slot hfind
        exact .given hnew hended (getElem?_of_find hfind)
      · rename_i hfull
        exact .full hnew hended ((find_eq_none hsizeFreed).mp hfull)
    · rename_i hcut
      exact .cut hnew (Bool.not_eq_true _ ▸ hcut)

/-! ## What is kept -/

/-- What is kept of a table: as many slots as were given out, and no client holding two. -/
structure Kept (count : UInt8) (held : List (Option α)) : Prop where
  length : held.length = min count.toNat COUNT
  distinct : Distinct held

omit [DecidableEq α] in
/-- No table has more slots than a device offers. -/
theorem Kept.size {count : UInt8} {held : List (Option α)} (hkept : Kept count held) :
    held.length ≤ COUNT :=
  hkept.length ▸ Nat.min_le_right _ _

/-- Whoever holds a slot after an allocation held it before, or is its caller given it. -/
theorem holder_of_allocates {held : List (Option α)} {client : α} {answers : List Bool}
    {call : Call α} (hcall : Allocates held client answers call) {i : ℕ} {a : α}
    (hheld : call.held[i]? = some (some a)) :
    held[i]? = some (some a) ∨ a = client ∧ some client ∉ held ∧
      ∃ slot, slot.number = i ∧ call.decision = some (.given slot) := by
  cases hcall with
  | again => exact .inl hheld
  | cut => exact .inl (holder_of_freed hheld)
  | full => exact .inl (holder_of_freed hheld)
  | given hnew hended hfree =>
      rename_i slot
      rcases Roster.getElem?_set_cases hheld with ⟨rfl, hsame⟩ | ⟨-, hbefore⟩
      · exact .inr ⟨Option.some.inj hsame, hnew, slot, rfl, rfl⟩
      · exact .inl (holder_of_freed hbefore)

/-- No client comes to hold two slots. -/
theorem Distinct.allocates {held : List (Option α)} (hdistinct : Distinct held) {client : α}
    {answers : List Bool} {call : Call α} (hcall : Allocates held client answers call) :
    Distinct call.held := by
  intro i j a hi hj
  rcases holder_of_allocates hcall hi with hwas | ⟨rfl, hnew, slot, rfl, hgiven⟩
  · rcases holder_of_allocates hcall hj with hwas' | ⟨rfl, hnew, -⟩
    · exact hdistinct i j a hwas hwas'
    · exact absurd (mem_iff_getElem?.mpr ⟨i, hwas⟩) hnew
  · rcases holder_of_allocates hcall hj with hwas' | ⟨-, -, other, rfl, hother⟩
    · exact absurd (mem_iff_getElem?.mpr ⟨j, hwas'⟩) hnew
    · rw [hgiven] at hother
      cases hother
      rfl

/-- A call keeps a table as it is to be. -/
theorem Kept.take {count : UInt8} {held : List (Option α)} (hkept : Kept count held) (op : Op α) :
    Kept count (take held op) := by
  cases op with
  | holds slot client => exact hkept
  | allocate client answers =>
      have hcall := allocate_allocates hkept.size client answers
      refine ⟨?_, hkept.distinct.allocates hcall⟩
      rw [← hkept.length, Slots.take]
      generalize Slots.allocate held client answers = call at hcall
      cases hcall with
      | again => rfl
      | cut => simp
      | full => simp
      | given => simp

omit [DecidableEq α] in
/-- A table starts as it is to be. -/
theorem kept_new (count : UInt8) : Kept (α := α) count (new count) where
  length := List.length_replicate
  distinct := by
    intro i j a hi
    cases List.eq_of_mem_replicate (List.mem_of_getElem? hi)

/-- Every run keeps it so. -/
theorem kept_of_reachable {count : UInt8} {held : List (Option α)}
    (hreach : (system α count).Reachable held) : Kept count held := by
  induction hreach with
  | start hstart =>
      rw [show _ = new count from hstart]
      exact kept_new count
  | next _ hnext ih =>
      rw [show _ = Slots.take _ _ from hnext]
      exact ih.take _

/-- A client that holds a slot keeps it through a call, or was asked of in it and told not to be
connected, no slot being free. -/
theorem Kept.keeps {count : UInt8} {held : List (Option α)} (hkept : Kept count held) (op : Op α)
    {i : ℕ} {a : α} (hheld : held[i]? = some (some a)) :
    (Slots.take held op)[i]? = some (some a) ∨ none ∉ held ∧ (a, false) ∈ told held op := by
  cases op with
  | holds slot client => exact .inl hheld
  | allocate client answers =>
      have hfreed : (freed held answers).held[i]? = some (some a) ∨
          none ∉ held ∧ (a, false) ∈ (freed held answers).asked := kept_of_freed hkept.size hheld
      have hcall := allocate_allocates hkept.size client answers
      rw [Slots.take, told]
      generalize Slots.allocate held client answers = call at hcall ⊢
      cases hcall with
      | again => exact .inl hheld
      | cut => exact hfreed
      | full => exact hfreed
      | given hnew hended hfree =>
          rename_i slot
          refine hfreed.imp_left fun hstays => ?_
          have hother : slot.number ≠ i := by
            rintro rfl
            rw [hfree] at hstays
            cases hstays
          rw [List.getElem?_set_ne hother]
          exact hstays

/-- A client that holds a slot keeps it through calls, or was told not to be connected in one of
them. -/
theorem Kept.keeps_over {count : UInt8} {held : List (Option α)} (hkept : Kept count held)
    (ops : List (Op α)) {i : ℕ} {a : α} (hheld : held[i]? = some (some a)) :
    (ops.foldl Slots.take held)[i]? = some (some a) ∨ ∃ before op after, ops = before ++ op :: after ∧
      (a, false) ∈ told (before.foldl Slots.take held) op := by
  induction ops generalizing held with
  | nil => exact .inl hheld
  | cons op rest ih =>
      rcases hkept.keeps op hheld with hstays | ⟨-, htold⟩
      · rcases ih (hkept.take op) hstays with hlater | ⟨before, later, after, rfl, htold⟩
        · exact .inl hlater
        · exact .inr ⟨op :: before, later, after, rfl, htold⟩
      · exact .inr ⟨[], op, rest, rfl, htold⟩

/-- A slot is told of where the table reaches it. -/
theorem holds_eq_some_iff {held : List (Option α)} {slot : Slot} {client : α} :
    holds held slot client = some (decide (held[slot.number]? = some (some client))) ↔
      slot.number < held.length := by
  unfold holds
  constructor
  · intro htold
    by_contra hout
    rw [List.getElem?_eq_none (Nat.not_lt.mp hout)] at htold
    cases htold
  · intro hin
    rw [List.getElem?_eq_getElem hin]
    simp [Bool.beq_eq_decide_eq]

/-! ## Slots over a run -/

/-- What slots are to be of clients: each has one at most, is given that again, and keeps it until an
allocation that found none free asked of it and was told no; and only a client with none, where every
holder is asked and is connected, is turned away. -/
structure Belong (held : List (Option α)) : Prop where
  one : Distinct held
  again : ∀ (slot : Slot) (client : α) (answers : List Bool),
    held[slot.number]? = some (some client) →
    allocate held client answers = ⟨held, [], some (.given slot)⟩
  given : ∀ (client : α) (answers : List Bool) (slot : Slot),
    (allocate held client answers).decision = some (.given slot) →
    (allocate held client answers).held[slot.number]? = some (some client)
  kept : ∀ (ops : List (Op α)) (i : ℕ) (a : α), held[i]? = some (some a) →
    (ops.foldl Slots.take held)[i]? = some (some a) ∨ ∃ before op after,
      ops = before ++ op :: after ∧ (a, false) ∈ told (before.foldl Slots.take held) op
  free : ∀ (op : Op α) (i : ℕ) (a : α), held[i]? = some (some a) → none ∈ held →
    (Slots.take held op)[i]? = some (some a)
  full : ∀ (client : α) (answers : List Bool),
    (allocate held client answers).decision = some .full ↔ some client ∉ held ∧
      ∀ holder ∈ held, ∃ a, holder = some a ∧ (a, true) ∈ (allocate held client answers).asked

/-- A client is turned away exactly where it holds no slot, and each slot's holder was asked and is
connected. -/
theorem Kept.full {count : UInt8} {held : List (Option α)} (hkept : Kept count held) (client : α)
    (answers : List Bool) :
    (allocate held client answers).decision = some .full ↔ some client ∉ held ∧
      ∀ holder ∈ held, ∃ a, holder = some a ∧ (a, true) ∈ (allocate held client answers).asked := by
  have hfreed : ∀ holder, (freed held answers).finished = true →
      none ∉ (freed held answers).held → holder ∈ held →
      ∃ a, holder = some a ∧ (a, true) ∈ (freed held answers).asked := by
    intro holder hended hfull hholder
    rcases freed_eq hkept.size answers with ⟨hsame, hnone⟩ | ⟨hsame, hless⟩
    · rw [hsame] at hfull
      exact absurd hnone hfull
    · rw [hsame] at hended hfull ⊢
      exact (sweep_full hkept.distinct hless).mp ⟨hended, hfull⟩ holder hholder
  have hswept : (∀ holder ∈ held, ∃ a, holder = some a ∧
        (a, true) ∈ (freed held answers).asked) →
      (freed held answers).finished = true ∧ none ∉ (freed held answers).held := by
    intro hall
    have hless : none ∉ held := by
      intro hnone
      obtain ⟨a, hsame, -⟩ := hall none hnone
      cases hsame
    rcases freed_eq hkept.size answers with ⟨-, hnone⟩ | ⟨hsame, -⟩
    · exact absurd hnone hless
    · rw [hsame] at hall ⊢
      exact (sweep_full hkept.distinct hless).mpr hall
  have hcall := allocate_allocates hkept.size client answers
  generalize Slots.allocate held client answers = call at hcall ⊢
  cases hcall with
  | again hheld =>
      refine iff_of_false (by simp) fun hfull => hfull.1 ?_
      exact mem_iff_getElem?.mpr ⟨_, hheld⟩
  | cut hnew hcut =>
      refine iff_of_false (by simp) fun hfull => ?_
      rw [(hswept hfull.2).1] at hcut
      cases hcut
  | given hnew hended hfree =>
      refine iff_of_false (by simp) fun hfull => ?_
      exact (hswept hfull.2).2 (mem_iff_getElem?.mpr ⟨_, hfree⟩)
  | full hnew hended hfull =>
      exact iff_of_true rfl ⟨hnew, fun holder hholder => hfreed holder hended hfull hholder⟩

/-- A table as it is to be belongs to its clients. -/
theorem Kept.belong {count : UInt8} {held : List (Option α)} (hkept : Kept count held) :
    Belong held where
  one := hkept.distinct
  again slot client answers hheld := by
    rw [allocate, hkept.distinct.find hkept.size hheld]
  given client answers slot hgiven := by
    have hcall := allocate_allocates hkept.size client answers
    generalize Slots.allocate held client answers = call at hcall hgiven ⊢
    cases hcall with
    | again hheld =>
        cases hgiven
        exact hheld
    | cut => cases hgiven
    | full => cases hgiven
    | given hnew hended hfree =>
        cases hgiven
        exact List.getElem?_set_self (List.getElem?_eq_some_iff.mp hfree).1
  kept ops i a hheld := hkept.keeps_over ops hheld
  free op i a hheld hnone :=
    (hkept.keeps op hheld).resolve_right fun htold => htold.1 hnone
  full := hkept.full

/-- In every run slots belong to their clients; and of a slot a device registers, whether a client
holds it is told, and rightly, exactly where the slot is one given out. -/
theorem slots_belong {count : UInt8} {held : List (Option α)}
    (hreach : (system α count).Reachable held) :
    Belong held ∧ ∀ slot ∈ Slot.all, ∀ client,
      holds held slot client = some (decide (held[slot.number]? = some (some client))) ↔
        slot.number < min count.toNat COUNT := by
  have hkept := kept_of_reachable hreach
  refine ⟨hkept.belong, fun slot _ client => ?_⟩
  rw [holds_eq_some_iff, hkept.length]

end

/-- A device that gives out one slot, after a client is given it. -/
theorem slots_belong_one : Belong [some (7 : ℕ)] ∧ ∀ slot ∈ Slot.all, ∀ client,
    holds [some (7 : ℕ)] slot client =
        some (decide ([some (7 : ℕ)][slot.number]? = some (some client))) ↔
      slot.number < min (1 : UInt8).toNat COUNT :=
  slots_belong (.next (.start rfl) (show _ = take _ (.allocate 7 []) from rfl))

/-- Of a slot a device registers but does not give out it is not told whether a client holds it: the
call panics. -/
theorem not_holds_told : ¬ ∀ (count : UInt8) (held : List (Option ℕ)),
    (system ℕ count).Reachable held → ∀ slot ∈ Slot.all, ∀ client,
      holds held slot client = some (decide (held[slot.number]? = some (some client))) := by
  intro hall
  have hreach : (system ℕ 1).Reachable (new 1) := .start rfl
  have htold := hall 1 _ hreach ⟨1, by decide⟩ (Slot.mem_all _) 7
  revert htold
  decide

end Bliti.Slots
