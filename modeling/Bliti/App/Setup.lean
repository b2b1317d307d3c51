import Bliti.Channel.Capabilities.Radios
import Mathlib.Data.List.Forall2

/-!
# App - the simple network screens

A simple screen never edits a document field by field.  Each thing the operator does is a move: it
takes the configuration the device holds and gives the one to propose, within the simple states.

Main results:

- Theorem `moves_taken`: a run of moves stays simple, and the rules on radios admit what it proposes.
-/

namespace Bliti.App.Setup

open Json (Map)
open Channel.Capabilities (placement ownChannel enabledHotspot wireless)

variable {φ : Type}

/-! ## Values of the page -/

/-- What is thrown instead of giving a value. -/
inductive Thrown where
  | typeError
deriving DecidableEq

/-- An object with a member set, in place of the one of its name or after the others. -/
def assign : Map φ → String → Json φ → Map φ
  | [], name, value => [(name, value)]
  | (held, old) :: rest, name, value =>
      if held = name then (held, value) :: rest else (held, old) :: assign rest name value

@[simp] theorem get_assign (object : Map φ) (name other : String) (value : Json φ) :
    Json.get (assign object name value) other =
      if name = other then some value else Json.get object other := by
  induction object with
  | nil => simp [assign, Json.get]
  | cons member rest ih =>
      obtain ⟨held, old⟩ := member
      by_cases hheld : held = name
      · by_cases hname : name = other <;> simp [assign, Json.get, hheld, hname]
      · by_cases hother : held = other
        · have hname : ¬ name = other := fun hname => hheld (hother.trans hname.symm)
          rw [assign, if_neg hheld, Json.get, if_pos hother, if_neg hname, Json.get, if_pos hother]
        · simp [assign, Json.get, hheld, hother, ih]

/-- The text of each unit of a character, as a page indexes it.  Half of a pair has no text of its
own. -/
def units (c : Char) : List String :=
  if c.toNat < 65536 then [String.singleton c] else ["\uFFFD", "\uFFFD"]

/-- The members that spreading a value into an object gives it. -/
def spread : Json φ → Map φ
  | .object members => members
  | .array items => items.zipIdx.map fun (item, i) => (toString i, item)
  | .string text =>
      (text.toList.flatMap units).zipIdx.map fun (unit, i) => (toString i, .string unit)
  | _ => []

/-- Whether a value counts as true. -/
def truthy (isZero : φ → Bool) : Json φ → Bool
  | .null => false
  | .bool b => b
  | .number (.int i) => i != 0
  | .number (.float f) => !isZero f
  | .string text => text != ""
  | .array _ => true
  | .object _ => true

/-- A value, or another where it is absent or null. -/
def orElse (value : Option (Json φ)) (other : Json φ) : Json φ :=
  match value with
  | none => other
  | some .null => other
  | some value => value

/-- A member of a value, which only an object has. -/
def member (thing : Json φ) (name : String) : Option (Json φ) :=
  thing.asObject.bind fun object => Json.get object name

/-- Whether a value is a boolean. -/
def isBool (value : Option (Json φ)) (b : Bool) : Bool :=
  match value with
  | some (.bool held) => held == b
  | _ => false

theorem isBool_iff {value : Option (Json φ)} {b : Bool} :
    isBool value b = true ↔ value = some (.bool b) := by
  cases value with
  | none => simp [isBool]
  | some value => cases value <;> simp [isBool]

/-! ## The simple states -/

/-- Whether a thing is on. -/
def isOn (thing : Option (Json φ)) : Bool :=
  isBool (thing.bind fun thing => member thing "enabled") true

/-- The kind of a candidate. -/
def kindOf (each : Json φ) : Option String :=
  (member each "kind").bind Json.asStr

/-- Whether a candidate is wired. -/
def isWired (each : Json φ) : Bool :=
  kindOf each == some "wired-dynamic" || kindOf each == some "wired-static"

/-- Whether a candidate is wireless. -/
def isWireless (each : Json φ) : Bool :=
  kindOf each == some "wireless"

/-- The candidates of a document. -/
def attachmentsOf (document : Map φ) : Except Thrown (List (Json φ)) :=
  match Json.get document "attachments" with
  | none => .ok []
  | some .null => .ok []
  | some (.array items) => .ok items
  | some _ => .error .typeError

/-- Which of the cable, wifi and the hotspot are on. -/
structure Ways where
  cable : Bool
  wifi : Bool
  hotspot : Bool
deriving DecidableEq

/-- Which ways are on in a document, where it is within the simple states. -/
def waysOn (document : Map φ) : Except Thrown (Option Ways) := do
  let attachments ← attachmentsOf document
  if attachments.any fun each => !isWired each && !isWireless each then return none
  let wired := attachments.filter isWired
  let wireless := attachments.filter isWireless
  if wired.length = 0 ∨ 1 < wireless.length then return none
  let on := (wired.filter fun each => isOn (some each)).length
  if on ≠ 0 ∧ on ≠ wired.length then return none
  let ways : Ways := {
    cable := 0 < on
    wifi := isOn wireless.head?
    hotspot := isOn (Json.get document "hotspot") }
  return if ways.wifi && ways.hotspot then none else some ways

/-! ## The moves -/

/-- A thing on or off, kept where it is already.  It is never null. -/
def turned (thing : Json φ) (enabled : Bool) : Json φ :=
  if isBool (member thing "enabled") enabled then thing
  else .object (assign (spread thing) "enabled" (.bool enabled))

/-- A candidate with the ways that are given turned on or off. -/
def turnedWay (cable wifi : Option Bool) (each : Json φ) : Json φ :=
  match cable.filter fun _ => isWired each, wifi.filter fun _ => isWireless each with
  | some on, _ => turned each on
  | none, some on => turned each on
  | none, none => each

/-- A document with the ways that are given turned on or off.  The kind of a candidate that is null
is asked for only where a way of that sort is given, and throws. -/
def withWays (isZero : φ → Bool) (document : Map φ) (cable wifi hotspot : Option Bool) :
    Except Thrown (Map φ) := do
  let attachments ← attachmentsOf document
  if (cable.isSome || wifi.isSome) && attachments.any Json.isNull then throw .typeError
  let next := assign document "attachments" (.array (attachments.map (turnedWay cable wifi)))
  match hotspot, Json.get document "hotspot" with
  | some on, some held =>
      return if truthy isZero held then assign next "hotspot" (turned held on) else next
  | _, _ => return next

/-- Where the wireless candidate sits. -/
def wifiIndex : List (Json φ) → Except Thrown (Option ℕ)
  | [] => .ok none
  | .null :: _ => .error .typeError
  | each :: rest =>
      if isWireless each then .ok (some 0)
      else (wifiIndex rest).map fun index => index.map (· + 1)

/-- Join a wireless network: the hotspot off, the cable as it is, and a candidate in wifi's place, or
at the end where there is no wifi. -/
def joinWifi (isZero : φ → Bool) (document : Map φ) (candidate : Json φ) :
    Except Thrown (Map φ) := do
  let next ← withWays isZero document none none (some false)
  let attachments ← attachmentsOf next
  match ← wifiIndex attachments with
  | none => return assign next "attachments" (.array (attachments ++ [candidate]))
  | some index => return assign next "attachments" (.array (attachments.set index candidate))

/-- Use the cable: the cable on, wifi and the hotspot as they are. -/
def useCable (isZero : φ → Bool) (document : Map φ) : Except Thrown (Map φ) :=
  withWays isZero document (some true) none none

/-- Turn the hotspot on, from a fresh one where the configuration carries none: the cable on and wifi
off. -/
def startHotspot (isZero : φ → Bool) (document fresh : Map φ) : Except Thrown (Map φ) := do
  let next ← withWays isZero document (some true) (some false) none
  return assign next "hotspot" (turned (orElse (Json.get next "hotspot") (.object fresh)) true)

/-- Turn the hotspot off. -/
def stopHotspot (isZero : φ → Bool) (document : Map φ) : Except Thrown (Map φ) :=
  withWays isZero document none none (some false)

/-- The hotspot with a new passphrase, on or off as it is, set up from a fresh one and off where the
configuration carries none. -/
def setHotspotPassphrase (document : Map φ) (passphrase : Json φ) (fresh : Map φ) : Map φ :=
  let hotspot := orElse (Json.get document "hotspot") (turned (.object fresh) false)
  assign document "hotspot" (.object (assign (spread hotspot) "passphrase" passphrase))

/-- A wireless candidate that is on. -/
structure Joined (φ : Type) where
  object : Map φ
  wireless : Json.get object "kind" = some (.string "wireless")
  enabled : Json.get object "enabled" = some (.bool true)

/-- Something the operator does. -/
inductive Move (φ : Type) where
  | joinWifi (candidate : Joined φ)
  | useCable
  | startHotspot (fresh : Map φ)
  | stopHotspot
  | setHotspotPassphrase (passphrase : Json φ) (fresh : Map φ)

/-- What a move proposes in place of a document. -/
def Move.take (isZero : φ → Bool) (document : Map φ) : Move φ → Except Thrown (Map φ)
  | joinWifi candidate => Setup.joinWifi isZero document (.object candidate.object)
  | useCable => Setup.useCable isZero document
  | startHotspot fresh => Setup.startHotspot isZero document fresh
  | stopHotspot => Setup.stopHotspot isZero document
  | setHotspotPassphrase passphrase fresh =>
      .ok (Setup.setHotspotPassphrase document passphrase fresh)

/-- The ways on after a move, by the table of moves. -/
def Move.ways (ways : Ways) : Move φ → Ways
  | joinWifi _ => { ways with wifi := true, hotspot := false }
  | useCable => { ways with cable := true }
  | startHotspot _ => { cable := true, wifi := false, hotspot := true }
  | stopHotspot => { ways with hotspot := false }
  | setHotspotPassphrase _ _ => ways

/-! ## Things turned on or off -/

/-- A wired or wireless candidate is an object. -/
theorem object_of_kind {each : Json φ} (h : isWired each ∨ isWireless each) :
    ∃ object, each = .object object := by
  cases each with
  | object members => exact ⟨members, rfl⟩
  | null | bool | number | string | array => simp [isWired, isWireless, kindOf, member, Json.asObject] at h

/-- No candidate is both wired and wireless. -/
theorem not_wireless_of_wired {each : Json φ} (h : isWired each) : isWireless each = false := by
  rw [isWired, Bool.or_eq_true, beq_iff_eq, beq_iff_eq] at h
  rw [isWireless]
  rcases h with hkind | hkind
  · rw [hkind]
    decide
  · rw [hkind]
    decide

/-- What turning an object on or off keeps, and what it sets. -/
theorem turned_object (object : Map φ) (enabled : Bool) :
    ∃ after, turned (.object object) enabled = .object after ∧
      ∀ name, Json.get after name =
        if name = "enabled" then some (.bool enabled) else Json.get object name := by
  by_cases hheld : isBool (member (.object object) "enabled") enabled = true
  · refine ⟨object, by rw [turned, if_pos hheld], fun name => ?_⟩
    split
    · rename_i hname
      rw [hname]
      exact isBool_iff.mp hheld
    · rfl
  · refine ⟨_, by rw [turned, if_neg hheld], fun name => ?_⟩
    rw [spread, get_assign]
    simp only [eq_comm]

/-- A candidate turned on or off keeps its kind, and is on or off. -/
theorem turned_candidate {each : Json φ} (enabled : Bool) (h : isWired each ∨ isWireless each) :
    kindOf (turned each enabled) = kindOf each ∧ isOn (some (turned each enabled)) = enabled := by
  obtain ⟨object, rfl⟩ := object_of_kind h
  obtain ⟨after, hafter, hget⟩ := turned_object object enabled
  rw [hafter]
  constructor
  · simp [kindOf, member, Json.asObject, hget]
  · simp only [isOn, Option.bind_some, member, Json.asObject, hget, if_pos]
    cases enabled <;> rfl

/-- A candidate with the ways that are given turned keeps its kind. -/
theorem kindOf_turnedWay (cable wifi : Option Bool) (each : Json φ) :
    kindOf (turnedWay cable wifi each) = kindOf each := by
  unfold turnedWay
  split
  · rename_i on hcable
    exact (turned_candidate on (.inl (Option.filter_eq_some_iff.mp hcable).2)).1
  · rename_i on _ hwifi
    exact (turned_candidate on (.inr (Option.filter_eq_some_iff.mp hwifi).2)).1
  · rfl

@[simp] theorem isWired_turnedWay (cable wifi : Option Bool) (each : Json φ) :
    isWired (turnedWay cable wifi each) = isWired each := by
  rw [isWired, isWired, kindOf_turnedWay]

@[simp] theorem isWireless_turnedWay (cable wifi : Option Bool) (each : Json φ) :
    isWireless (turnedWay cable wifi each) = isWireless each := by
  rw [isWireless, isWireless, kindOf_turnedWay]

/-- A wired candidate is turned as the cable is. -/
theorem turnedWay_wired (cable wifi : Option Bool) {each : Json φ} (h : isWired each) :
    turnedWay cable wifi each = match cable with
      | some on => turned each on
      | none => each := by
  rw [turnedWay, not_wireless_of_wired h, h]
  cases cable <;> cases wifi <;> rfl

/-- A wireless candidate is turned as wifi is. -/
theorem turnedWay_wireless (cable wifi : Option Bool) {each : Json φ} (h : isWireless each) :
    turnedWay cable wifi each = match wifi with
      | some on => turned each on
      | none => each := by
  have hwired : isWired each = false :=
    Bool.eq_false_iff.mpr fun hwired => by simp [not_wireless_of_wired hwired] at h
  rw [turnedWay, hwired, h]
  cases cable <;> cases wifi <;> rfl

/-! ## What a simple state is -/

/-- A document within the simple states, with its candidates and the ways that are on. -/
structure Simple (document : Map φ) (items : List (Json φ)) (ways : Ways) : Prop where
  attachments : Json.get document "attachments" = some (.array items)
  kinds : ∀ each ∈ items, isWired each ∨ isWireless each
  wired : ∃ each ∈ items, isWired each
  one : (items.filter isWireless).length ≤ 1
  cable : ∀ each ∈ items, isWired each → isOn (some each) = ways.cable
  wifi : isOn (items.filter isWireless).head? = ways.wifi
  hotspot : isOn (Json.get document "hotspot") = ways.hotspot
  apart : (ways.wifi && ways.hotspot) = false

/-- The candidates a document names are those it carries, where there is one. -/
theorem attachmentsOf_eq_ok {document : Map φ} {items : List (Json φ)} (hne : items ≠ []) :
    attachmentsOf document = .ok items ↔
      Json.get document "attachments" = some (.array items) := by
  unfold attachmentsOf
  cases Json.get document "attachments" with
  | none => simp [eq_comm, hne]
  | some value =>
      cases value with
      | array held => simp
      | null => simp [eq_comm, hne]
      | bool | number | string | object => simp

variable {document : Map φ} {items : List (Json φ)} {ways : Ways}

/-- A document is within the simple states exactly where it is read to be. -/
theorem waysOn_eq_some_iff :
    waysOn document = .ok (some ways) ↔ ∃ items, Simple document items ways := by
  constructor
  · intro h
    cases hitems : attachmentsOf document with
    | error thrown =>
        rw [waysOn, hitems] at h
        cases h
    | ok items =>
        rw [waysOn, hitems] at h
        simp only [bind, Except.bind, pure, Except.pure] at h
        split at h
        · cases h
        · rename_i hkinds
          split at h
          · cases h
          · rename_i hcount
            split at h
            · cases h
            · rename_i hall
              split at h
              · cases h
              · rename_i hapart
                obtain rfl := Option.some.inj (Except.ok.inj h)
                have hwired : items.filter isWired ≠ [] :=
                  fun hnone => hcount (.inl (by rw [hnone]; rfl))
                obtain ⟨first, hfirst⟩ := List.exists_mem_of_ne_nil _ hwired
                rw [List.mem_filter] at hfirst
                refine ⟨items, ⟨(attachmentsOf_eq_ok (List.ne_nil_of_mem hfirst.1)).mp hitems,
                  ?_, ⟨first, hfirst⟩, by omega, ?_, rfl, rfl, Bool.eq_false_iff.mpr hapart⟩⟩
                · simpa [or_iff_not_imp_left] using hkinds
                · intro each hmem his
                  have hin := List.mem_filter.mpr ⟨hmem, his⟩
                  dsimp only
                  by_cases hnone :
                      ((items.filter isWired).filter fun each => isOn (some each)).length = 0
                  · have hoff := List.filter_eq_nil_iff.mp (List.length_eq_zero_iff.mp hnone) each hin
                    rw [Bool.eq_false_iff.mpr hoff, hnone]
                    rfl
                  · have hon := List.length_filter_eq_length_iff.mp
                      (not_not.mp (not_and.mp hall hnone)) each hin
                    rw [hon]
                    exact (decide_eq_true (Nat.pos_of_ne_zero hnone)).symm
  · rintro ⟨items, h⟩
    obtain ⟨first, hfirst, hwired⟩ := h.wired
    have hitems := (attachmentsOf_eq_ok (List.ne_nil_of_mem hfirst)).mpr h.attachments
    have hin := List.mem_filter.mpr ⟨hfirst, hwired⟩
    have hcount : ¬ ((items.filter isWired).length = 0 ∨ 1 < (items.filter isWireless).length) := by
      have hpos := List.length_pos_of_mem hin
      have hone := h.one
      omega
    -- The cable's candidates are all on, or all off.
    have hon : ((items.filter isWired).filter fun each => isOn (some each)).length =
        if ways.cable then (items.filter isWired).length else 0 := by
      cases hcable : ways.cable with
      | true =>
          refine List.length_filter_eq_length_iff.mpr fun each hmem => ?_
          rw [List.mem_filter] at hmem
          rw [h.cable each hmem.1 hmem.2, hcable]
      | false =>
          refine List.length_eq_zero_iff.mpr (List.filter_eq_nil_iff.mpr fun each hmem => ?_)
          rw [List.mem_filter] at hmem
          rw [h.cable each hmem.1 hmem.2, hcable]
          exact Bool.false_ne_true
    have hkinds : ¬ items.any fun each => !isWired each && !isWireless each := by
      simpa [or_iff_not_imp_left] using h.kinds
    have hpos : 0 < (items.filter isWired).length := List.length_pos_of_mem hin
    rw [waysOn, hitems]
    simp only [bind, Except.bind, pure, Except.pure]
    rw [if_neg hkinds, if_neg hcount, hon, h.wifi, h.hotspot]
    have hcable : (decide (0 < if ways.cable then (items.filter isWired).length else 0)) =
        ways.cable := by
      cases ways.cable with
      | true => exact decide_eq_true hpos
      | false => rfl
    rw [hcable, if_neg (by cases ways.cable <;> simp), h.apart]
    rfl

/-! ## What a move keeps -/

/-- A thing turned on or off is on or off. -/
@[simp] theorem isOn_turned (thing : Json φ) (enabled : Bool) :
    isOn (some (turned thing enabled)) = enabled := by
  by_cases hheld : isBool (member thing "enabled") enabled = true
  · rw [turned, if_pos hheld, isOn, Option.bind_some, isBool_iff.mp hheld]
    cases enabled <;> rfl
  · rw [turned, if_neg hheld, isOn, Option.bind_some, member, Json.asObject, Option.bind_some,
      get_assign, if_pos rfl]
    cases enabled <;> rfl

/-- The hotspot once it is turned, where it is to be. -/
def turnedHotspot (isZero : φ → Bool) (hotspot : Option Bool) (held : Option (Json φ)) :
    Option (Json φ) :=
  match hotspot, held with
  | some on, some held => some (if truthy isZero held then turned held on else held)
  | _, held => held

/-- A hotspot turned off is off. -/
theorem isOn_turnedHotspot_off (isZero : φ → Bool) (held : Option (Json φ)) :
    isOn (turnedHotspot isZero (some false) held) = false := by
  cases held with
  | none => rfl
  | some held =>
      rw [turnedHotspot]
      split
      · exact isOn_turned held false
      · rename_i hfalsy
        cases held with
        | object members => exact absurd rfl hfalsy
        | null | bool | number | string | array => rfl

/-- A document of candidates that are objects has the ways that are given turned. -/
theorem withWays_eq (isZero : φ → Bool) (hitems : Json.get document "attachments" = some (.array items))
    (hkinds : ∀ each ∈ items, isWired each ∨ isWireless each) (cable wifi hotspot : Option Bool) :
    ∃ next, withWays isZero document cable wifi hotspot = .ok next ∧
      Json.get next "attachments" = some (.array (items.map (turnedWay cable wifi))) ∧
      Json.get next "hotspot" = turnedHotspot isZero hotspot (Json.get document "hotspot") ∧
      ∀ name, name ≠ "attachments" → name ≠ "hotspot" →
        Json.get next name = Json.get document name := by
  have hnull : items.any Json.isNull = false := by
    rw [List.any_eq_false]
    intro each hmem
    obtain ⟨object, rfl⟩ := object_of_kind (hkinds each hmem)
    exact Bool.false_ne_true
  have hheld : attachmentsOf document = .ok items := by
    rw [attachmentsOf, hitems]
  rw [withWays, hheld]
  simp only [bind, Except.bind, pure, Except.pure, hnull, Bool.and_false]
  rw [if_neg Bool.false_ne_true]
  cases hhotspot : Json.get document "hotspot" with
  | none =>
      cases hotspot <;> exact ⟨_, rfl, by simp, by simp [turnedHotspot, hhotspot],
        fun name hname _ => by simp [Ne.symm hname]⟩
  | some held =>
      cases hotspot with
      | none =>
          exact ⟨_, rfl, by simp, by simp [turnedHotspot, hhotspot],
            fun name hname _ => by simp [Ne.symm hname]⟩
      | some on =>
          by_cases htrue : truthy isZero held = true
          · refine ⟨_, rfl, ?_, ?_, fun name hname hother => ?_⟩
            · simp [htrue]
            · simp [htrue, turnedHotspot]
            · simp [htrue, Ne.symm hname, Ne.symm hother]
          · refine ⟨_, rfl, ?_, ?_, fun name hname hother => ?_⟩
            · simp [htrue]
            · simp [htrue, turnedHotspot, hhotspot]
            · simp [htrue, Ne.symm hname]

/-- The candidates with ways turned are of the kinds they were, and on or off as they are turned. -/
theorem candidates_turned (h : Simple document items ways) (cable : Option Bool)
    {wifi : Option Bool} (hwifi : wifi ≠ some true) :
    (∀ each ∈ items.map (turnedWay cable wifi), isWired each ∨ isWireless each) ∧
      (∃ each ∈ items.map (turnedWay cable wifi), isWired each) ∧
      ((items.map (turnedWay cable wifi)).filter isWireless).length ≤ 1 ∧
      (∀ each ∈ items.map (turnedWay cable wifi), isWired each →
        isOn (some each) = cable.getD ways.cable) ∧
      isOn ((items.map (turnedWay cable wifi)).filter isWireless).head? =
        (ways.wifi && wifi.isNone) := by
  have hfilter : (items.map (turnedWay cable wifi)).filter isWireless =
      (items.filter isWireless).map (turnedWay cable wifi) := by
    rw [List.filter_map]
    congr 2
    funext each
    exact isWireless_turnedWay cable wifi each
  refine ⟨?_, ?_, ?_, ?_, ?_⟩
  · intro after hmem
    obtain ⟨each, hin, rfl⟩ := List.mem_map.mp hmem
    rw [isWired_turnedWay, isWireless_turnedWay]
    exact h.kinds each hin
  · obtain ⟨each, hin, hwired⟩ := h.wired
    exact ⟨_, List.mem_map_of_mem hin, by rw [isWired_turnedWay]; exact hwired⟩
  · rw [hfilter, List.length_map]
    exact h.one
  · intro after hmem hwired
    obtain ⟨each, hin, rfl⟩ := List.mem_map.mp hmem
    rw [isWired_turnedWay] at hwired
    rw [turnedWay_wired cable wifi hwired]
    cases cable with
    | none => exact h.cable each hin hwired
    | some on => exact isOn_turned each on
  · rw [hfilter, List.head?_map, ← h.wifi]
    cases hfirst : (items.filter isWireless).head? with
    | none => rfl
    | some each =>
        have hin := List.mem_of_mem_head? hfirst
        rw [List.mem_filter] at hin
        rw [Option.map_some, turnedWay_wireless cable wifi hin.2]
        match wifi with
        | none => rw [Option.isNone_none, Bool.and_true]
        | some false => rw [isOn_turned, Option.isNone_some, Bool.and_false]
        | some true => exact absurd rfl hwifi

/-- Where the wireless candidate sits among candidates that are objects. -/
theorem wifiIndex_cases (hkinds : ∀ each ∈ items, isWired each ∨ isWireless each) :
    (wifiIndex items = .ok none ∧ ∀ each ∈ items, isWireless each = false) ∨
      ∃ before wifi after, items = before ++ wifi :: after ∧
        (∀ each ∈ before, isWireless each = false) ∧ isWireless wifi = true ∧
        wifiIndex items = .ok (some before.length) := by
  induction items with
  | nil => exact .inl ⟨rfl, by simp⟩
  | cons each rest ih =>
      obtain ⟨object, rfl⟩ := object_of_kind (hkinds each List.mem_cons_self)
      by_cases his : isWireless (.object object) = true
      · exact .inr ⟨[], _, rest, rfl, by simp, his, by rw [wifiIndex, if_pos his]; rfl; simp⟩
      · have hnot := Bool.eq_false_iff.mpr his
        rcases ih fun other hmem => hkinds other (List.mem_cons_of_mem _ hmem) with
          ⟨hnone, hall⟩ | ⟨before, wifi, after, rfl, hall, hwifi, hindex⟩
        · refine .inl ⟨by rw [wifiIndex, if_neg his, hnone]; rfl; simp, ?_⟩
          exact List.forall_mem_cons.mpr ⟨hnot, hall⟩
        · refine .inr ⟨.object object :: before, wifi, after, rfl,
            List.forall_mem_cons.mpr ⟨hnot, hall⟩, hwifi, ?_⟩
          rw [wifiIndex, if_neg his, hindex]
          · rfl
          · simp

/-- A value that is another one but for members of some names. -/
def SameBut (names : List String) (each after : Json φ) : Prop :=
  after = each ∨ ∃ object object', each = .object object ∧ after = .object object' ∧
    ∀ name ∉ names, Json.get object' name = Json.get object name

/-- A candidate turned differs at most in whether it is on. -/
theorem sameBut_turned (object : Map φ) (enabled : Bool) :
    SameBut ["enabled"] (.object object) (turned (.object object) enabled) := by
  obtain ⟨after, hafter, hget⟩ := turned_object object enabled
  refine .inr ⟨object, after, rfl, hafter, fun name hname => ?_⟩
  rw [hget, if_neg fun hsame => hname (List.mem_singleton.mpr hsame)]

/-- Candidates with ways turned differ one by one at most in whether they are on. -/
theorem forall₂_turned (hkinds : ∀ each ∈ items, isWired each ∨ isWireless each)
    (cable wifi : Option Bool) :
    List.Forall₂ (SameBut ["enabled"]) items (items.map (turnedWay cable wifi)) := by
  rw [List.forall₂_map_right_iff, List.forall₂_same]
  intro each hmem
  obtain ⟨object, rfl⟩ := object_of_kind (hkinds each hmem)
  rw [turnedWay]
  split
  · exact sameBut_turned object _
  · exact sameBut_turned object _
  · exact .inl rfl

/-- How a move turns the cable, where it does. -/
def Move.cable : Move φ → Option Bool
  | useCable => some true
  | startHotspot _ => some true
  | _ => none

/-- How a move turns wifi, where it does. -/
def Move.wifi : Move φ → Option Bool
  | startHotspot _ => some false
  | _ => none

/-- How a move turns the hotspot, where it does. -/
def Move.hotspot : Move φ → Option Bool
  | joinWifi _ => some false
  | startHotspot _ => some true
  | stopHotspot => some false
  | _ => none

/-- Whether a hotspot is on after it is turned, where it is to be. -/
def enabledAfter (way : Option Bool) (held : Option (Json φ)) : Option (Json φ) :=
  match way with
  | some on => some (.bool on)
  | none => held

/-- The candidates after a move: those before it in their order, each at most turned on or off as the
move has it, but for the one that a joined network takes the place of, or is put after. -/
def Candidates (items items' : List (Json φ)) : Move φ → Prop
  | .joinWifi candidate =>
      (∃ before wifi after, items = before ++ wifi :: after ∧ isWireless wifi ∧
          items' = before ++ .object candidate.object :: after) ∨
        (∀ each ∈ items, isWireless each = false) ∧ items' = items ++ [.object candidate.object]
  | move => items' = items.map (turnedWay move.cable move.wifi) ∧
      List.Forall₂ (SameBut ["enabled"]) items items'

/-- What a hotspot that a document carries may differ in after a move. -/
def Move.sets : Move φ → List String
  | setHotspotPassphrase _ _ => ["passphrase"]
  | _ => ["enabled"]

/-- What the hotspot is set up from, where the document carries none. -/
def Move.fresh : Move φ → Option (Map φ)
  | startHotspot fresh => some fresh
  | setHotspotPassphrase _ fresh => some fresh
  | _ => none

/-- What the passphrase is set to. -/
def Move.passphrase : Move φ → Option (Json φ)
  | setHotspotPassphrase passphrase _ => some passphrase
  | _ => none

/-- What a move comes to: the ways of its table, each candidate and the hotspot kept but for what the
move changes, and every other member of the document as it was. -/
structure Moved (move : Move φ) (document next : Map φ) (items items' : List (Json φ))
    (ways : Ways) : Prop where
  simple : Simple next items' (move.ways ways)
  candidates : Candidates items items' move
  hotspot : ∀ held, Json.get document "hotspot" = some (.object held) →
    ∃ after, Json.get next "hotspot" = some (.object after) ∧
      Json.get after "enabled" = enabledAfter move.hotspot (Json.get held "enabled") ∧
      (∀ name ∉ move.sets, Json.get after name = Json.get held name) ∧
      ∀ passphrase, move.passphrase = some passphrase →
        Json.get after "passphrase" = some passphrase
  absent : Json.get document "hotspot" = none ∨ Json.get document "hotspot" = some .null →
    match move.fresh with
    | none => Json.get next "hotspot" = Json.get document "hotspot"
    | some fresh => ∃ after, Json.get next "hotspot" = some (.object after) ∧
        Json.get after "enabled" = some (.bool (move.hotspot.getD false)) ∧
        (∀ name, name ≠ "enabled" → name ≠ "passphrase" →
          Json.get after name = Json.get fresh name) ∧
        ∀ passphrase, move.passphrase = some passphrase →
          Json.get after "passphrase" = some passphrase
  others : ∀ name, name ≠ "attachments" → name ≠ "hotspot" →
    Json.get next name = Json.get document name

/-- A hotspot that is an object stays one, turned where it is to be. -/
theorem turnedHotspot_object (isZero : φ → Bool) (hotspot : Option Bool) (held : Map φ) :
    ∃ after, turnedHotspot isZero hotspot (some (.object held)) = some (.object after) ∧
      Json.get after "enabled" = enabledAfter hotspot (Json.get held "enabled") ∧
      (∀ name ∉ ["enabled"], Json.get after name = Json.get held name) := by
  cases hotspot with
  | none => exact ⟨held, rfl, rfl, fun _ _ => rfl⟩
  | some on =>
      obtain ⟨after, hafter, hget⟩ := turned_object held on
      refine ⟨after, by rw [turnedHotspot, truthy, if_pos rfl, hafter], ?_, fun name hname => ?_⟩
      · rw [hget, if_pos rfl, enabledAfter]
      · rw [hget, if_neg fun hsame => hname (List.mem_singleton.mpr hsame)]

/-- A hotspot that is absent or null stays so. -/
theorem turnedHotspot_absent (isZero : φ → Bool) (hotspot : Option Bool) {held : Option (Json φ)}
    (habsent : held = none ∨ held = some .null) : turnedHotspot isZero hotspot held = held := by
  rcases habsent with rfl | rfl <;> cases hotspot <;> rfl

/-- Turning ways comes to what a move of that sort is to, where the ways are its table's. -/
theorem withWays_moved (isZero : φ → Bool) (h : Simple document items ways) (move : Move φ)
    (hwifi : move.wifi ≠ some true) (hhotspot : move.hotspot ≠ some true)
    (hways : move.ways ways = {
      cable := move.cable.getD ways.cable
      wifi := ways.wifi && move.wifi.isNone
      hotspot := ways.hotspot && move.hotspot.isNone })
    (hcandidates : Candidates items (items.map (turnedWay move.cable move.wifi)) move)
    (hsets : move.sets = ["enabled"]) (hfresh : move.fresh = none)
    (hpassphrase : move.passphrase = none) :
    ∃ next, withWays isZero document move.cable move.wifi move.hotspot = .ok next ∧
      Moved move document next items (items.map (turnedWay move.cable move.wifi)) ways := by
  obtain ⟨next, hnext, hitems, hafter, hothers⟩ :=
    withWays_eq isZero h.attachments h.kinds move.cable move.wifi move.hotspot
  obtain ⟨hkinds, hwired, hone, hcable, hway⟩ := candidates_turned h move.cable hwifi
  refine ⟨next, hnext, ⟨⟨hitems, hkinds, hwired, hone, ?_, ?_, ?_, ?_⟩, hcandidates, ?_, ?_,
    hothers⟩⟩
  · rw [hways]
    exact hcable
  · rw [hways]
    exact hway
  · rw [hways, hafter]
    match hway : move.hotspot with
    | none =>
        rw [Option.isNone_none, Bool.and_true]
        exact h.hotspot
    | some false => rw [isOn_turnedHotspot_off, Option.isNone_some, Bool.and_false]
    | some true => exact absurd hway hhotspot
  · rw [hways]
    have hapart := h.apart
    revert hapart
    cases ways.wifi <;> cases ways.hotspot <;> simp
  · intro held hheld
    rw [hafter, hheld, hsets, hpassphrase]
    obtain ⟨after, hobject, hon, hsame⟩ := turnedHotspot_object isZero move.hotspot held
    exact ⟨after, hobject, hon, hsame, by simp⟩
  · intro habsent
    rw [hfresh, hafter]
    exact turnedHotspot_absent isZero move.hotspot habsent

/-- Joining a network comes to what it is to. -/
theorem joinWifi_moved (isZero : φ → Bool) (h : Simple document items ways)
    (candidate : Joined φ) :
    ∃ next items', (Move.joinWifi candidate).take isZero document = .ok next ∧
      Moved (.joinWifi candidate) document next items items' ways := by
  obtain ⟨off, hoff, hitems, hafter, hothers⟩ :=
    withWays_eq isZero h.attachments h.kinds none none (some false)
  have hsame : items.map (turnedWay none none) = items := List.map_id' items
  rw [hsame] at hitems
  have hheld : attachmentsOf off = .ok items := by
    rw [attachmentsOf, hitems]
  have hwireless : isWireless (.object candidate.object) = true := by
    rw [isWireless, kindOf, member, Json.asObject, Option.bind_some, candidate.wireless]
    rfl
  have hon : isOn (some (.object candidate.object)) = true := by
    rw [isOn, Option.bind_some, member, Json.asObject, Option.bind_some, candidate.enabled]
    rfl
  have hnotWired : isWired (.object candidate.object) = true → False := by
    intro hwired
    rw [not_wireless_of_wired hwired] at hwireless
    cases hwireless
  -- Whatever takes its place or is put after, the rest of the document is as it is turned.
  have hrest : ∀ items', (∀ each ∈ items', isWired each ∨ isWireless each) →
      (∃ each ∈ items', isWired each) → items'.filter isWireless = [.object candidate.object] →
      (∀ each ∈ items', isWired each → isOn (some each) = ways.cable) →
      Candidates items items' (.joinWifi candidate) →
      Moved (.joinWifi candidate) document (assign off "attachments" (.array items')) items items'
        ways := by
    intro items' hkinds hwired hfilter hcable hcandidates
    have hhotspot : Json.get (assign off "attachments" (.array items')) "hotspot" =
        turnedHotspot isZero (some false) (Json.get document "hotspot") := by
      rw [get_assign, if_neg (by decide), hafter]
    refine ⟨⟨by rw [get_assign, if_pos rfl], hkinds, hwired, by rw [hfilter]; exact le_rfl, hcable,
      ?_, ?_, Bool.and_false _⟩, hcandidates, fun held hobject => ?_, fun habsent => ?_,
      fun name hname hother => ?_⟩
    · rw [hfilter]
      exact hon
    · rw [hhotspot]
      exact isOn_turnedHotspot_off isZero _
    · rw [hhotspot, hobject]
      obtain ⟨after, hobject', hoff, hkept⟩ := turnedHotspot_object isZero (some false) held
      exact ⟨after, hobject', hoff, hkept, fun _ hnone => by cases hnone⟩
    · exact hhotspot.trans (turnedHotspot_absent isZero _ habsent)
    · rw [get_assign, if_neg hname.symm, hothers name hname hother]
  have htake : (Move.joinWifi candidate).take isZero document =
      (wifiIndex items).bind fun index => .ok (assign off "attachments" (.array (match index with
        | none => items ++ [.object candidate.object]
        | some index => items.set index (.object candidate.object)))) := by
    rw [Move.take, Setup.joinWifi, hoff]
    simp only [bind, Except.bind, pure, Except.pure, hheld]
    cases wifiIndex items with
    | error thrown => rfl
    | ok index => cases index <;> rfl
  obtain ⟨first, hfirst, hwired⟩ := h.wired
  rcases wifiIndex_cases h.kinds with
    ⟨hindex, hnone⟩ | ⟨before, wifi, after, rfl, hbefore, hwifi, hindex⟩
  · refine ⟨_, items ++ [.object candidate.object], by rw [htake, hindex]; rfl,
      hrest _ ?_ ⟨first, List.mem_append_left _ hfirst, hwired⟩ ?_ ?_ (.inr ⟨hnone, rfl⟩)⟩
    · intro each hmem
      rcases List.mem_append.mp hmem with hin | hin
      · exact h.kinds each hin
      · rw [List.mem_singleton.mp hin]
        exact .inr hwireless
    · rw [List.filter_append, List.filter_eq_nil_iff.mpr fun each hmem => by simp [hnone each hmem]]
      simp [hwireless]
    · intro each hmem his
      rcases List.mem_append.mp hmem with hin | hin
      · exact h.cable each hin his
      · rw [List.mem_singleton.mp hin] at his
        exact (hnotWired his).elim
  · have hset : (before ++ wifi :: after).set before.length (.object candidate.object) =
        before ++ .object candidate.object :: after := by simp
    have hfilter : after.filter isWireless = [] := by
      have hone := h.one
      rw [List.filter_append, List.filter_cons_of_pos hwifi, List.length_append,
        List.length_cons] at hone
      exact List.length_eq_zero_iff.mp (by omega)
    have hin : ∀ each ∈ before ++ .object candidate.object :: after,
        each ∈ before ++ wifi :: after ∨ each = .object candidate.object := by
      intro each hmem
      rcases List.mem_append.mp hmem with hmem | hmem
      · exact .inl (List.mem_append_left _ hmem)
      · rcases List.mem_cons.mp hmem with rfl | hmem
        · exact .inr rfl
        · exact .inl (List.mem_append_right _ (List.mem_cons_of_mem _ hmem))
    refine ⟨_, before ++ .object candidate.object :: after, by rw [htake, hindex]; rw [← hset]; rfl,
      hrest _ (fun each hmem => ?_) ⟨first, ?_, hwired⟩ ?_ (fun each hmem his => ?_)
      (.inl ⟨before, wifi, after, rfl, hwifi, rfl⟩)⟩
    · rcases hin each hmem with hmem | rfl
      · exact h.kinds each hmem
      · exact .inr hwireless
    · rcases List.mem_append.mp hfirst with hmem | hmem
      · exact List.mem_append_left _ hmem
      · rcases List.mem_cons.mp hmem with rfl | hmem
        · rw [not_wireless_of_wired hwired] at hwifi
          cases hwifi
        · exact List.mem_append_right _ (List.mem_cons_of_mem _ hmem)
    · rw [List.filter_append, List.filter_cons_of_pos hwireless, hfilter,
        List.filter_eq_nil_iff.mpr fun each hmem => by simp [hbefore each hmem]]
      rfl
    · rcases hin each hmem with hmem | rfl
      · exact h.cable each hmem his
      · exact (hnotWired his).elim

theorem orElse_object (members : Map φ) (other : Json φ) :
    orElse (some (.object members)) other = .object members :=
  rfl

/-- Members named by their places say nothing of being on. -/
theorem indexed_off {α : Type} (items : List α) (value : α → Json φ) :
    Json.get (items.zipIdx.map fun (item, i) => (toString i, value item)) "enabled" = none := by
  refine Json.get_eq_none fun hmem => ?_
  simp only [List.map_map, List.mem_map, Function.comp_apply] at hmem
  obtain ⟨⟨item, i⟩, -, hname⟩ := hmem
  have hdigits : Nat.toDigits 10 i = "enabled".toList := by
    rw [← hname, Nat.toString_eq_ofList_toDigits, String.toList_ofList]
  have hdigit := Nat.isDigit_of_mem_toDigits (b := 10) (n := i) (c := 'e') (by decide) (by decide)
    (by rw [hdigits]; decide)
  exact absurd hdigit (by decide)

/-- Spreading a value keeps whether it is on. -/
theorem get_spread_enabled (thing : Json φ) :
    Json.get (spread thing) "enabled" = member thing "enabled" := by
  cases thing with
  | array items => exact indexed_off items fun item => item
  | string text => exact indexed_off _ Json.string
  | null | bool | number | object => rfl

/-- Turning the hotspot on comes to what it is to. -/
theorem startHotspot_moved (isZero : φ → Bool) (h : Simple document items ways) (fresh : Map φ) :
    ∃ next items', (Move.startHotspot fresh).take isZero document = .ok next ∧
      Moved (.startHotspot fresh) document next items items' ways := by
  obtain ⟨off, hoff, hitems, hafter, hothers⟩ :=
    withWays_eq isZero h.attachments h.kinds (some true) (some false) none
  obtain ⟨hkinds, hwired, hone, hcable, hway⟩ :=
    candidates_turned h (some true) (show some false ≠ some true by decide)
  have hkept : Json.get off "hotspot" = Json.get document "hotspot" := by
    rw [hafter]
    cases Json.get document "hotspot" <;> rfl
  refine ⟨assign off "hotspot" (turned (orElse (Json.get off "hotspot") (.object fresh)) true), _,
    ?_, ⟨⟨?_, hkinds, hwired, hone, hcable, ?_, ?_, rfl⟩, ⟨rfl, forall₂_turned h.kinds _ _⟩, ?_, ?_,
    ?_⟩⟩
  · rw [Move.take, Setup.startHotspot, hoff]
    rfl
  · rw [get_assign, if_neg (by decide)]
    exact hitems
  · rw [hway]
    exact Bool.and_false _
  · rw [get_assign, if_pos rfl, isOn_turned]
    rfl
  · intro held hheld
    rw [get_assign, if_pos rfl, hkept, hheld, orElse_object]
    obtain ⟨after, hobject, hget⟩ := turned_object held true
    refine ⟨after, by rw [hobject], ?_, fun name hname => ?_, fun _ hnone => by cases hnone⟩
    · rw [hget, if_pos rfl]
      rfl
    · rw [hget, if_neg fun hsame => hname (List.mem_singleton.mpr hsame)]
  · intro habsent
    obtain ⟨after, hobject, hget⟩ := turned_object fresh true
    refine ⟨after, ?_, by rw [hget, if_pos rfl]; rfl, fun name hname _ => ?_,
      fun _ hnone => by cases hnone⟩
    · rw [get_assign, if_pos rfl, hkept]
      rcases habsent with hnone | hnull
      · rw [hnone, orElse, hobject]
      · rw [hnull, orElse, hobject]
    · rw [hget, if_neg hname]
  · intro name hname hother
    rw [get_assign, if_neg hother.symm, hothers name hname hother]

/-- Setting the hotspot's passphrase comes to what it is to. -/
theorem setHotspotPassphrase_moved (isZero : φ → Bool) (h : Simple document items ways)
    (passphrase : Json φ) (fresh : Map φ) :
    ∃ next items', (Move.setHotspotPassphrase passphrase fresh).take isZero document = .ok next ∧
      Moved (.setHotspotPassphrase passphrase fresh) document next items items' ways := by
  have hheld : Json.get (setHotspotPassphrase document passphrase fresh) "hotspot" =
      some (.object (assign (spread (orElse (Json.get document "hotspot")
        (turned (.object fresh) false))) "passphrase" passphrase)) := by
    rw [setHotspotPassphrase, get_assign, if_pos rfl]
  have hothers : ∀ name, name ≠ "hotspot" →
      Json.get (setHotspotPassphrase document passphrase fresh) name = Json.get document name := by
    intro name hname
    rw [setHotspotPassphrase, get_assign, if_neg hname.symm]
  obtain ⟨after, hobject, hget⟩ := turned_object fresh false
  -- A hotspot that is set up is off, and one that is there is as it was.
  have hon : isOn (Json.get (setHotspotPassphrase document passphrase fresh) "hotspot") =
      ways.hotspot := by
    rw [hheld, ← h.hotspot, isOn, Option.bind_some, member, Json.asObject, Option.bind_some,
      get_assign, if_neg (by decide), get_spread_enabled]
    have hfresh : isOn (some (turned (.object fresh) false)) = false := isOn_turned _ false
    cases hhotspot : Json.get document "hotspot" with
    | none => exact hfresh
    | some held =>
        cases held with
        | null => exact hfresh
        | bool | number | string | array | object => rfl
  refine ⟨_, items, rfl, ⟨⟨?_, h.kinds, h.wired, h.one, h.cable, h.wifi, hon, h.apart⟩, ?_, ?_, ?_,
    fun name _ hname => hothers name hname⟩⟩
  · rw [hothers _ (by decide)]
    exact h.attachments
  · exact ⟨(List.map_id' items).symm, List.forall₂_same.mpr fun each _ => .inl rfl⟩
  · intro held hobject
    rw [hheld, hobject, orElse_object, spread]
    refine ⟨_, rfl, ?_, fun name hname => ?_, ?_⟩
    · rw [get_assign, if_neg (by decide)]
      rfl
    · rw [get_assign, if_neg fun hsame => hname (List.mem_singleton.mpr hsame.symm)]
    · rintro value ⟨⟩
      rw [get_assign, if_pos rfl]
  · intro habsent
    refine ⟨_, hheld, ?_, fun name hname hother => ?_, ?_⟩
    · rw [get_assign, if_neg (by decide)]
      rcases habsent with hnone | hnull
      · rw [hnone, orElse, hobject, spread, hget, if_pos rfl]
        rfl
      · rw [hnull, orElse, hobject, spread, hget, if_pos rfl]
        rfl
    · rw [get_assign, if_neg hother.symm]
      rcases habsent with hnone | hnull
      · rw [hnone, orElse, hobject, spread, hget, if_neg hname]
      · rw [hnull, orElse, hobject, spread, hget, if_neg hname]
    · rintro value ⟨⟩
      rw [get_assign, if_pos rfl]

/-- A move from a simple state comes to what it is to. -/
theorem take_moved (isZero : φ → Bool) (h : Simple document items ways) (move : Move φ) :
    ∃ next items', move.take isZero document = .ok next ∧
      Moved move document next items items' ways := by
  cases move with
  | joinWifi candidate => exact joinWifi_moved isZero h candidate
  | useCable =>
      obtain ⟨next, hnext, hmoved⟩ := withWays_moved isZero h .useCable nofun nofun
        (by simp [Move.ways, Move.cable, Move.wifi, Move.hotspot])
        ⟨rfl, forall₂_turned h.kinds _ _⟩ rfl rfl rfl
      exact ⟨next, _, hnext, hmoved⟩
  | startHotspot fresh => exact startHotspot_moved isZero h fresh
  | stopHotspot =>
      obtain ⟨next, hnext, hmoved⟩ := withWays_moved isZero h .stopHotspot nofun nofun
        (by simp [Move.ways, Move.cable, Move.wifi, Move.hotspot])
        ⟨rfl, forall₂_turned h.kinds _ _⟩ rfl rfl rfl
      exact ⟨next, _, hnext, hmoved⟩
  | setHotspotPassphrase passphrase fresh => exact setHotspotPassphrase_moved isZero h passphrase fresh

/-! ## The rules on radios -/

/-- Whether a thing is turned off outright. -/
def isOff (thing : Json φ) : Prop :=
  member thing "enabled" = some (.bool false)

/-- A document in which the wireless candidates or the hotspot are turned off outright, and whose
hotspot is absent, null or an object. -/
structure Clear (document : Map φ) (items : List (Json φ)) : Prop where
  object : Json.get document "hotspot" = none ∨ Json.get document "hotspot" = some .null ∨
    ∃ held, Json.get document "hotspot" = some (.object held)
  off : (∀ each ∈ items, isWireless each → isOff each) ∨
    ∀ held, Json.get document "hotspot" = some (.object held) → isOff (.object held)

section Rules

variable [BEq φ]

/-- Wireless candidates that are turned off outright are none that a radio could carry. -/
theorem wireless_eq_nil (hitems : Json.get document "attachments" = some (.array items))
    (hoff : ∀ each ∈ items, isWireless each → isOff each) : wireless document = [] := by
  rw [wireless, hitems]
  refine List.filterMap_eq_nil_iff.mpr fun object hmem => ?_
  obtain ⟨each, hin, hobject⟩ := List.mem_filterMap.mp hmem
  cases each with
  | object members =>
      obtain rfl := Option.some.inj hobject
      rw [if_neg]
      intro hboth
      rw [Bool.and_eq_true, decide_eq_true_iff] at hboth
      have hwireless : isWireless (.object members) = true := beq_iff_eq.mpr hboth.1
      have hheld : Json.get members "enabled" = some (.bool false) := hoff _ hin hwireless
      rw [hheld] at hboth
      exact absurd hboth.2 (by simp [BEq.beq, Json.beq])
  | null | bool | number | string | array => cases hobject

/-- A hotspot that is turned off outright is none that a radio runs. -/
theorem enabledHotspot_eq_none
    (hoff : ∀ held, Json.get document "hotspot" = some (.object held) → isOff (.object held)) :
    enabledHotspot document = none := by
  rw [enabledHotspot, Option.filter_eq_none_iff]
  intro held hheld hon
  obtain ⟨value, hvalue, hobject⟩ := Option.bind_eq_some_iff.mp hheld
  cases value with
  | object members =>
      obtain rfl := Option.some.inj hobject
      have hfalse : Json.get members "enabled" = some (.bool false) := hoff members hvalue
      rw [hfalse] at hon
      exact absurd hon (by simp [BEq.beq, Json.beq])
  | null | bool | number | string | array => cases hobject

variable [ToString φ]

/-- The rules on radios admit a document with wifi or the hotspot turned off outright. -/
theorem rules_admit (hitems : Json.get document "attachments" = some (.array items))
    (hclear : Clear document items) (capabilities : Map φ) :
    placement document capabilities = .ok () ∧ ownChannel document capabilities = .ok () := by
  rcases hclear.off with hwifi | hhotspot
  · have hnone := wireless_eq_nil hitems hwifi
    constructor
    · unfold placement
      cases enabledHotspot document with
      | none => rfl
      | some hotspot =>
          dsimp only
          cases (Channel.Capabilities.Radios.of capabilities).hotspot hotspot with
          | nil => rfl
          | cons first others =>
              dsimp only
              rw [hnone]
              split <;> rfl
    · unfold ownChannel
      cases enabledHotspot document with
      | none => rfl
      | some hotspot =>
          dsimp only
          split
          · rfl
          · have hfollows : (Channel.Capabilities.channelChoice document capabilities).follows = [] := by
              simp [Channel.Capabilities.channelChoice, hnone]
            rw [hfollows]
  · have hnone := enabledHotspot_eq_none hhotspot
    rw [placement, ownChannel, hnone]
    exact ⟨rfl, rfl⟩

end Rules

/-! ## A run of moves -/

/-- A hotspot that a move turns off, or that was off and is not turned, is off after it. -/
theorem Moved.hotspot_off {move : Move φ} {next : Map φ} {items' : List (Json φ)}
    (hmoved : Moved move document next items items' ways) (hclear : Clear document items)
    (hway : move.hotspot = some false ∨ move.hotspot = none ∧
      ∀ held, Json.get document "hotspot" = some (.object held) → isOff (.object held)) :
    ∀ held, Json.get next "hotspot" = some (.object held) → isOff (.object held) := by
  intro held hheld
  have habsent : (Json.get document "hotspot" = none ∨ Json.get document "hotspot" = some .null) →
      isOff (.object held) := by
    intro habsent
    have hfresh := hmoved.absent habsent
    cases hsome : move.fresh with
    | none =>
        rw [hsome] at hfresh
        rw [hfresh] at hheld
        rcases habsent with hnone | hnull
        · rw [hnone] at hheld
          cases hheld
        · rw [hnull] at hheld
          cases hheld
    | some fresh =>
        rw [hsome] at hfresh
        obtain ⟨after, hafter, hon, -⟩ := hfresh
        rw [hafter] at hheld
        obtain rfl := Json.object.inj (Option.some.inj hheld)
        rw [isOff, member, Json.asObject, Option.bind_some, hon]
        rcases hway with hoff | ⟨hnone, -⟩
        · rw [hoff]
          rfl
        · rw [hnone]
          rfl
  rcases hclear.object with hnone | hnull | ⟨before, hbefore⟩
  · exact habsent (.inl hnone)
  · exact habsent (.inr hnull)
  · obtain ⟨after, hafter, hon, -⟩ := hmoved.hotspot before hbefore
    rw [hafter] at hheld
    obtain rfl := Json.object.inj (Option.some.inj hheld)
    rw [isOff, member, Json.asObject, Option.bind_some, hon]
    rcases hway with hoff | ⟨hnone, hbeforeOff⟩
    · rw [hoff]
      rfl
    · rw [hnone]
      exact hbeforeOff before hbefore

/-- The hotspot after a move is absent, null or an object where it was. -/
theorem Moved.object {move : Move φ} {next : Map φ} {items' : List (Json φ)}
    (hmoved : Moved move document next items items' ways) (hclear : Clear document items) :
    Json.get next "hotspot" = none ∨ Json.get next "hotspot" = some .null ∨
      ∃ held, Json.get next "hotspot" = some (.object held) := by
  have habsent : (Json.get document "hotspot" = none ∨ Json.get document "hotspot" = some .null) →
      Json.get next "hotspot" = none ∨ Json.get next "hotspot" = some .null ∨
        ∃ held, Json.get next "hotspot" = some (.object held) := by
    intro habsent
    have hfresh := hmoved.absent habsent
    cases hsome : move.fresh with
    | none =>
        rw [hsome] at hfresh
        rw [hfresh]
        exact habsent.imp_right .inl
    | some fresh =>
        rw [hsome] at hfresh
        obtain ⟨after, hafter, -⟩ := hfresh
        exact .inr (.inr ⟨after, hafter⟩)
  rcases hclear.object with hnone | hnull | ⟨before, hbefore⟩
  · exact habsent (.inl hnone)
  · exact habsent (.inr hnull)
  · obtain ⟨after, hafter, -⟩ := hmoved.hotspot before hbefore
    exact .inr (.inr ⟨after, hafter⟩)

/-- The candidates after a move that replaces none are those before it, turned as the move has it. -/
theorem wireless_off_turned {cable wifi : Option Bool} (h : Simple document items ways)
    (hoff : wifi = some false ∨ wifi = none ∧ ∀ each ∈ items, isWireless each → isOff each) :
    ∀ each ∈ items.map (turnedWay cable wifi), isWireless each → isOff each := by
  intro after hmem hwireless
  obtain ⟨each, hin, rfl⟩ := List.mem_map.mp hmem
  rw [isWireless_turnedWay] at hwireless
  rw [turnedWay_wireless cable wifi hwireless]
  rcases hoff with rfl | ⟨rfl, hoff⟩
  · obtain ⟨object, rfl⟩ := object_of_kind (h.kinds each hin)
    obtain ⟨turned, hturned, hget⟩ := turned_object object false
    dsimp only
    rw [hturned, isOff, member, Json.asObject, Option.bind_some, hget, if_pos rfl]
  · exact hoff each hin hwireless

/-- A move keeps wifi or the hotspot turned off outright. -/
theorem Moved.clear {move : Move φ} {next : Map φ} {items' : List (Json φ)}
    (h : Simple document items ways) (hmoved : Moved move document next items items' ways)
    (hclear : Clear document items) : Clear next items' := by
  refine ⟨hmoved.object hclear, ?_⟩
  have hcandidates := hmoved.candidates
  cases move with
  | joinWifi candidate => exact .inr (hmoved.hotspot_off hclear (.inl rfl))
  | stopHotspot => exact .inr (hmoved.hotspot_off hclear (.inl rfl))
  | startHotspot fresh =>
      rw [hcandidates.1]
      exact .inl (wireless_off_turned h (.inl rfl))
  | useCable =>
      rw [hcandidates.1]
      exact hclear.off.imp (fun hwifi => wireless_off_turned h (.inr ⟨rfl, hwifi⟩))
        fun hhotspot => hmoved.hotspot_off hclear (.inr ⟨rfl, hhotspot⟩)
  | setHotspotPassphrase passphrase fresh =>
      rw [hcandidates.1]
      exact hclear.off.imp (fun hwifi => wireless_off_turned h (.inr ⟨rfl, hwifi⟩))
        fun hhotspot => hmoved.hotspot_off hclear (.inr ⟨rfl, hhotspot⟩)

/-- Each move of a run proposes a document: it is within the simple states with the ways of the
move's table, it keeps what the move does not change, and the rules on radios admit it. -/
def Taken [BEq φ] [ToString φ] (isZero : φ → Bool) :
    List (Move φ) → Map φ → List (Json φ) → Ways → Prop
  | [], _, _, _ => True
  | move :: rest, document, items, ways => ∃ next items',
      move.take isZero document = .ok next ∧ waysOn next = .ok (some (move.ways ways)) ∧
      Moved move document next items items' ways ∧
      (∀ capabilities, placement next capabilities = .ok () ∧
        ownChannel next capabilities = .ok ()) ∧
      Taken isZero rest next items' (move.ways ways)

/-- Every run of moves is taken, from a simple state with wifi or the hotspot turned off outright. -/
theorem taken_of_clear [BEq φ] [ToString φ] (isZero : φ → Bool) (moves : List (Move φ))
    (h : Simple document items ways) (hclear : Clear document items) :
    Taken isZero moves document items ways := by
  induction moves generalizing document items ways with
  | nil => trivial
  | cons move rest ih =>
      obtain ⟨next, items', htake, hmoved⟩ := take_moved isZero h move
      have hnext := hmoved.clear h hclear
      exact ⟨next, items', htake, waysOn_eq_some_iff.mpr ⟨items', hmoved.simple⟩, hmoved,
        rules_admit hmoved.simple.attachments hnext, ih hmoved.simple hnext⟩

/-- From a simple state whose wifi or hotspot is turned off outright, every run of moves stays simple,
keeps what its moves do not change, and is admitted by the rules on radios. -/
theorem moves_taken [BEq φ] [ToString φ] (isZero : φ → Bool) (moves : List (Move φ))
    (hways : waysOn document = .ok (some ways))
    (hclear : ∀ items, Json.get document "attachments" = some (.array items) →
      Clear document items) :
    ∃ items, Json.get document "attachments" = some (.array items) ∧
      Taken isZero moves document items ways := by
  obtain ⟨items, h⟩ := waysOn_eq_some_iff.mp hways
  exact ⟨items, h.attachments, taken_of_clear isZero moves h (hclear items h.attachments)⟩

/-- A document with the cable and wifi on, and a hotspot that is neither on nor off. -/
def neither : Map ℕ := [
  ("attachments", .array [
    .object [("kind", .string "wired-dynamic"), ("enabled", .bool true)],
    .object [("kind", .string "wireless"), ("enabled", .bool true)]]),
  ("hotspot", .object [("ssid", .string "here")])]

/-- Capabilities of one radio, which joins a network or runs a hotspot. -/
def oneRadio : Map ℕ :=
  [("radios", .object [("wlan0", .object [("alongside", .string "one-at-a-time")])])]

/-- A document with the cable on, and a number for a hotspot. -/
def numbered : Map ℕ := [
  ("attachments", .array [.object [("kind", .string "wired-dynamic"), ("enabled", .bool true)]]),
  ("hotspot", .number (.int 1))]

/-- A hotspot that is neither on nor off is off to the simple screens and on to the rules: using the
cable stays within the simple states, and the rules refuse it.  A hotspot that is no object is not
kept. -/
theorem neither_refused :
    (waysOn neither = .ok (some { cable := true, wifi := true, hotspot := false }) ∧
      Move.useCable.take (· == 0) neither = .ok neither ∧
      placement neither oneRadio ≠ .ok ()) ∧
    waysOn numbered = .ok (some { cable := true, wifi := false, hotspot := false }) ∧
      ∃ next, (Move.startHotspot []).take (· == 0) numbered = .ok next ∧
        Json.get next "hotspot" = some (.object [("enabled", .bool true)]) := by
  refine ⟨⟨rfl, rfl, ?_⟩, rfl, _, rfl, rfl⟩
  decide

/-- A document with the cable on, and neither wifi nor a hotspot. -/
def cabled : Map ℕ := [
  ("attachments", .array [.object [("kind", .string "wired-dynamic"), ("enabled", .bool true)]])]

/-- A run that starts a hotspot and stops it again is taken. -/
theorem moves_taken_cabled : ∃ items, Json.get cabled "attachments" = some (.array items) ∧
    Taken (· == 0) [.startHotspot [], .stopHotspot] cabled items
      { cable := true, wifi := false, hotspot := false } :=
  moves_taken (· == 0) _ rfl fun _ _ => {
    object := .inl rfl
    off := .inr nofun }

end Bliti.App.Setup
