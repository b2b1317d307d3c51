import Bliti.Facts.Power.Curve.Parse

/-!
# The rules for a curve document - what loads, and where a fault is

What the rules for a curve document ask of a JSON value, said of the value itself, and where in it
they are broken.  The numbers of a document are rounded as it is loaded, before the rules: a
document loads where its numbers keep the rules once rounded, whatever they did as they were sent.

Main results:

- Theorem `Document.loads_onceRounded`: what loads, where what does not is at fault, and reading
  back.
-/

namespace Bliti.Facts.Power

open Channel.Config (Segment path)
open Interpolation (Before Rising)

/-! ## What a value is -/

/-- A JSON value is a number. -/
inductive IsNumber : Json ℚ → ℚ → Prop where
  | int (i : ℤ) : IsNumber (.number (.int i)) i
  | float (f : ℚ) : IsNumber (.number (.float f)) f

/-- A JSON value is a point: an array of its voltage and its charge. -/
def IsPoint (value : Json ℚ) (point : ℚ × ℚ) : Prop :=
  ∃ volts charge, value = .array [volts, charge] ∧ IsNumber volts point.1 ∧
    IsNumber charge point.2

/-- An object has a number as a member. -/
def HasNumber (members : Json.Map ℚ) (key : String) (number : ℚ) : Prop :=
  ∃ value, Json.get members key = some value ∧ IsNumber value number

/-- An object has a curve's members, with what it was learnt from a whole number of a word. -/
structure HasCurve (members : Json.Map ℚ) (curve : Curve) : Prop where
  points : ∃ listed, Json.get members "points" = some (.array listed) ∧
    List.Forall₂ IsPoint listed curve.points
  learntFrom : HasNumber members "learnt-from" curve.learntFrom.toNat
  error : HasNumber members "error" curve.error
  duration : HasNumber members "duration" curve.duration

/-- A JSON value is a curve. -/
def IsCurve (value : Json ℚ) (curve : Curve) : Prop :=
  ∃ members, value = .object members ∧ HasCurve members curve

/-- An object's charging curve, `null` taken as none. -/
inductive IsCharging (members : Json.Map ℚ) : Option Curve → Prop where
  | missing (hget : Json.get members "charging" = none) : IsCharging members none
  | null (hget : Json.get members "charging" = some .null) : IsCharging members none
  | held {value : Json ℚ} {curve : Curve} (hget : Json.get members "charging" = some value)
      (hcurve : IsCurve value curve) : IsCharging members (some curve)

/-- A JSON value is an object of a discharging curve and at most a charging curve, each of which
keeps some rules. -/
def Obeys (rules : Direction → Curve → Prop) (value : Json ℚ) : Prop :=
  ∃ members, value = .object members ∧
    (∃ curve discharging, Json.get members "discharging" = some curve ∧
      IsCurve curve discharging ∧ rules .discharging discharging) ∧
    ∃ charging, IsCharging members charging ∧ ∀ curve ∈ charging, rules .charging curve

/-- A number has at most four decimal places. -/
def FourPlaces (number : ℚ) : Prop :=
  ∃ n : ℤ, number * 10 ^ places = n

/-- The rules for a curve as it was sent: every number of at most four decimal places. -/
def AsSent (direction : Direction) (curve : Curve) : Prop :=
  curve.Valid direction ∧ (∀ p ∈ curve.points, FourPlaces p.1 ∧ FourPlaces p.2) ∧
    FourPlaces curve.error ∧ FourPlaces curve.duration

/-- The rules for a curve once every number is rounded to four decimal places. -/
def OnceRounded (direction : Direction) (curve : Curve) : Prop :=
  curve.rounded.Valid direction

/-! ## Where a value is at fault -/

/-- The members of a curve that break its rules. -/
inductive Broken (direction : Direction) (curve : Curve) : List Segment → Prop where
  | few (hfew : curve.points.length < 2) : Broken direction curve [.name "points"]
  | charge {i : ℕ} {p : ℚ × ℚ} (hp : curve.points[i]? = some p)
      (hcharge : ¬(0 ≤ p.2 ∧ p.2 ≤ 1)) : Broken direction curve [.name "points", .index i]
  | order {i : ℕ} {p q : ℚ × ℚ} (hp : curve.points[i]? = some p)
      (hq : curve.points[i + 1]? = some q) (horder : ¬Before p q) :
      Broken direction curve [.name "points", .index (i + 1)]
  | first {p : ℚ × ℚ} (hdirection : direction = .discharging)
      (hp : curve.points.head? = some p) (hfirst : ¬(p.2 = 0 ∧ p.1 ≤ floorVolts)) :
      Broken direction curve [.name "points", .index 0]
  | last {p : ℚ × ℚ} (hdirection : direction = .discharging)
      (hp : curve.points.getLast? = some p) (hlast : p.2 ≠ 1) :
      Broken direction curve [.name "points", .index (curve.points.length - 1)]
  | error (herror : ¬(0 ≤ curve.error ∧ curve.error ≤ 1)) : Broken direction curve [.name "error"]
  | duration (hduration : curve.duration ≤ 0) : Broken direction curve [.name "duration"]

/-- The members of a JSON value that keep it from being a curve whose rules hold once it is
rounded. -/
inductive CurveFault (direction : Direction) : Json ℚ → List Segment → Prop where
  | notObject {value : Json ℚ} (hvalue : ∀ members, value ≠ .object members) :
      CurveFault direction value []
  | noPoints {members : Json.Map ℚ}
      (hpoints : ∀ listed, Json.get members "points" ≠ some (.array listed)) :
      CurveFault direction (.object members) [.name "points"]
  | notPoint {members : Json.Map ℚ} {listed : List (Json ℚ)} {i : ℕ} {item : Json ℚ}
      (hpoints : Json.get members "points" = some (.array listed)) (hitem : listed[i]? = some item)
      (hpoint : ∀ p, ¬IsPoint item p) :
      CurveFault direction (.object members) [.name "points", .index i]
  | notWhole {members : Json.Map ℚ}
      (hlearnt : ∀ learntFrom : UInt32, ¬HasNumber members "learnt-from" learntFrom.toNat) :
      CurveFault direction (.object members) [.name "learnt-from"]
  | notNumber {members : Json.Map ℚ} {key : String} (hkey : key = "error" ∨ key = "duration")
      (hnumber : ∀ number, ¬HasNumber members key number) :
      CurveFault direction (.object members) [.name key]
  | broken {value : Json ℚ} {curve : Curve} {member : List Segment} (hcurve : IsCurve value curve)
      (hbroken : Broken direction curve.rounded member) : CurveFault direction value member

/-- The members of a JSON value that keep it from loading. -/
inductive Fault : Json ℚ → List Segment → Prop where
  | notObject {value : Json ℚ} (hvalue : ∀ members, value ≠ .object members) : Fault value []
  | noDischarging {members : Json.Map ℚ}
      (hget : Json.get members "discharging" = none ∨
        Json.get members "discharging" = some .null) :
      Fault (.object members) [.name "discharging"]
  | discharging {members : Json.Map ℚ} {value : Json ℚ} {member : List Segment}
      (hget : Json.get members "discharging" = some value)
      (hfault : CurveFault .discharging value member) :
      Fault (.object members) (.name "discharging" :: member)
  | charging {members : Json.Map ℚ} {value : Json ℚ} {member : List Segment}
      (hget : Json.get members "charging" = some value) (hheld : value ≠ .null)
      (hfault : CurveFault .charging value member) :
      Fault (.object members) (.name "charging" :: member)

/-! ## Reading a curve -/

section Read

variable {doubles : Doubles} {direction : Direction}

/-- A value is read as the number it is. -/
theorem asF64_eq_some {value : Json ℚ} {number : ℚ} :
    asF64 value = some number ↔ IsNumber value number := by
  constructor
  · intro hread
    unfold asF64 at hread
    split at hread
    · rw [← Option.some.inj hread]
      exact .int _
    · rw [← Option.some.inj hread]
      exact .float _
    · cases hread
  · intro hnumber
    cases hnumber <;> rfl

/-- A value is read as the point it is. -/
theorem pointFromJson_eq_some {value : Json ℚ} {point : ℚ × ℚ} :
    pointFromJson value = some point ↔ IsPoint value point := by
  constructor
  · intro hread
    unfold pointFromJson at hread
    split at hread
    · rename_i volts charge
      obtain ⟨v, hv, hread⟩ := Option.bind_eq_some_iff.mp hread
      obtain ⟨c, hc, hread⟩ := Option.bind_eq_some_iff.mp hread
      obtain rfl : (v, c) = point := Option.some.inj hread
      exact ⟨volts, charge, rfl, asF64_eq_some.mp hv, asF64_eq_some.mp hc⟩
    · cases hread
  · intro hpoint
    obtain ⟨volts, charge, rfl, hvolts, hcharge⟩ := hpoint
    simp [pointFromJson, asF64_eq_some.mpr hvolts, asF64_eq_some.mpr hcharge]

/-- A list is read as the points it is. -/
theorem pointsFromJson_ok {i : ℕ} {listed : List (Json ℚ)} {points : List (ℚ × ℚ)} :
    pointsFromJson direction i listed = .ok points ↔ List.Forall₂ IsPoint listed points := by
  induction listed generalizing i points with
  | nil =>
      rw [pointsFromJson, List.forall₂_nil_left_iff, Except.ok.injEq]
      exact eq_comm
  | cons item rest ih =>
      rw [pointsFromJson, List.forall₂_cons_left_iff]
      cases hitem : pointFromJson item with
      | none =>
          refine iff_of_false (by simp) fun h => ?_
          obtain ⟨point, -, hpoint, -⟩ := h
          rw [pointFromJson_eq_some.mpr hpoint] at hitem
          cases hitem
      | some point =>
          dsimp only
          rw [Fallible.bind_ok]
          constructor
          · intro h
            obtain ⟨others, hothers, hpoints⟩ := h
            exact ⟨point, others, pointFromJson_eq_some.mp hitem, ih.mp hothers,
              (Fallible.pure_ok.mp hpoints).symm⟩
          · intro h
            obtain ⟨other, others, hother, hothers, rfl⟩ := h
            rw [pointFromJson_eq_some.mpr hother] at hitem
            obtain rfl := Option.some.inj hitem
            exact ⟨others, ih.mpr hothers, rfl⟩

/-- A list that is not all points is refused at one that is not. -/
theorem pointsFromJson_error {i : ℕ} {listed : List (Json ℚ)} {fault : Invalid}
    (hfault : pointsFromJson direction i listed = .error fault) :
    ∃ j item, listed[j]? = some item ∧ (∀ p, ¬IsPoint item p) ∧
      fault.atPath = pointAt direction (i + j) := by
  induction listed generalizing i with
  | nil => cases hfault
  | cons item rest ih =>
      rw [pointsFromJson] at hfault
      cases hitem : pointFromJson item with
      | none =>
          rw [hitem] at hfault
          cases hfault
          refine ⟨0, item, rfl, fun p hp => ?_, rfl⟩
          rw [pointFromJson_eq_some.mpr hp] at hitem
          cases hitem
      | some point =>
          rw [hitem] at hfault
          rcases Fallible.bind_error.mp hfault with hrest | ⟨others, -, hpure⟩
          · obtain ⟨j, other, hother, hpoint, hat⟩ := ih hrest
            refine ⟨j + 1, other, hother, hpoint, ?_⟩
            rw [hat, Nat.add_right_comm, Nat.add_assoc]
          · cases hpure

/-- A member is read as the number it is. -/
theorem curveNumber_ok {members : Json.Map ℚ} {key : String} {number : ℚ} :
    curveNumber direction members key = .ok number ↔ HasNumber members key number := by
  unfold curveNumber curveMember HasNumber
  cases hget : Json.get members key with
  | none => simp
  | some value =>
      rw [Fallible.ok_bind]
      cases hread : asF64 value with
      | none =>
          refine iff_of_false (by simp) fun h => ?_
          obtain ⟨other, hother, hnumber⟩ := h
          obtain rfl := Option.some.inj hother
          rw [asF64_eq_some.mpr hnumber] at hread
          cases hread
      | some read =>
          simp only [Except.ok.injEq, Option.some.injEq, exists_eq_left']
          rw [← asF64_eq_some, hread, Option.some.injEq]

/-- A member that is no number is refused there. -/
theorem curveNumber_error {members : Json.Map ℚ} {key : String} {fault : Invalid}
    (hfault : curveNumber direction members key = .error fault) :
    fault.atPath = pathIn direction [.name key] ∧ ∀ number, ¬HasNumber members key number := by
  constructor
  · unfold curveNumber curveMember at hfault
    cases hget : Json.get members key with
    | none =>
        rw [hget] at hfault
        cases hfault
        rfl
    | some value =>
        rw [hget, Fallible.ok_bind] at hfault
        cases hread : asF64 value with
        | none =>
            rw [hread] at hfault
            cases hfault
            rfl
        | some read =>
            rw [hread] at hfault
            cases hfault
  · intro number hnumber
    rw [curveNumber_ok.mpr hnumber] at hfault
    cases hfault

/-- A number is read as the word it is. -/
theorem learntFromNumber_ok {learnt : ℚ} {learntFrom : UInt32} :
    learntFromNumber doubles direction learnt = .ok learntFrom ↔ learnt = learntFrom.toNat := by
  constructor
  · intro hread
    unfold learntFromNumber at hread
    dsimp only at hread
    split_ifs at hread with hwhole hnegative hlarge
    obtain rfl := Except.ok.inj hread
    rw [not_not] at hwhole
    have hnonneg : 0 ≤ ⌊learnt⌋ := Int.floor_nonneg.mpr (not_lt.mp hnegative)
    have hfits : ⌊learnt⌋ < 2 ^ 32 := by
      have hle : (⌊learnt⌋ : ℚ) ≤ 4294967295 := hwhole ▸ not_lt.mp hlarge
      have hint : ⌊learnt⌋ ≤ 4294967295 := by exact_mod_cast hle
      omega
    rw [UInt32.toNat_ofNat', Nat.mod_eq_of_lt (by omega)]
    calc learnt = (⌊learnt⌋ : ℚ) := hwhole
      _ = ((⌊learnt⌋.toNat : ℤ) : ℚ) := by rw [Int.toNat_of_nonneg hnonneg]
      _ = (⌊learnt⌋.toNat : ℚ) := Int.cast_natCast _
  · rintro rfl
    exact learntFromNumber_toNat learntFrom

/-- A number that is no word is refused as what a curve was learnt from. -/
theorem learntFromNumber_error {learnt : ℚ} {fault : Invalid}
    (hfault : learntFromNumber doubles direction learnt = .error fault) :
    fault.atPath = pathIn direction [.name "learnt-from"] ∧
      ∀ learntFrom : UInt32, learnt ≠ learntFrom.toNat := by
  constructor
  · unfold learntFromNumber at hfault
    dsimp only at hfault
    split_ifs at hfault <;> · cases hfault; rfl
  · intro learntFrom hlearnt
    rw [learntFromNumber_ok.mpr hlearnt] at hfault
    cases hfault

/-- A number is the only one a value is. -/
theorem HasNumber.unique {members : Json.Map ℚ} {key : String} {one other : ℚ}
    (hone : HasNumber members key one) (hother : HasNumber members key other) : one = other := by
  have hread : curveNumber .discharging members key = .ok one := curveNumber_ok.mpr hone
  rw [curveNumber_ok.mpr hother] at hread
  exact (Except.ok.inj hread).symm

/-- A value is read as the curve it is. -/
theorem curveFromJson_ok {value : Json ℚ} {curve : Curve} :
    curveFromJson doubles direction value = .ok curve ↔ IsCurve value curve := by
  constructor
  · intro hread
    unfold curveFromJson at hread
    split at hread
    · rename_i members
      obtain ⟨listed, hlisted, hread⟩ := Fallible.bind_ok.mp hread
      split at hread
      · rename_i listed
        obtain ⟨points, hpoints, hread⟩ := Fallible.bind_ok.mp hread
        obtain ⟨learnt, hlearnt, hread⟩ := Fallible.bind_ok.mp hread
        obtain ⟨learntFrom, hword, hread⟩ := Fallible.bind_ok.mp hread
        obtain ⟨error, herror, hread⟩ := Fallible.bind_ok.mp hread
        obtain ⟨duration, hduration, hread⟩ := Fallible.bind_ok.mp hread
        obtain rfl := Fallible.pure_ok.mp hread
        rw [learntFromNumber_ok.mp hword] at hlearnt
        have hget : Json.get members "points" = some (.array listed) := by
          unfold curveMember at hlisted
          split at hlisted
          · rename_i held hheld
            rw [hheld, Except.ok.inj hlisted]
          · cases hlisted
        exact ⟨members, rfl, ⟨listed, hget, pointsFromJson_ok.mp hpoints⟩,
          curveNumber_ok.mp hlearnt, curveNumber_ok.mp herror, curveNumber_ok.mp hduration⟩
      · cases hread
    · cases hread
  · intro hcurve
    obtain ⟨members, rfl, ⟨listed, hget, hpoints⟩, hlearnt, herror, hduration⟩ := hcurve
    simp only [curveFromJson, curveMember, hget, Fallible.ok_bind, pointsFromJson_ok.mpr hpoints,
      curveNumber_ok.mpr hlearnt, learntFromNumber_toNat, curveNumber_ok.mpr herror,
      curveNumber_ok.mpr hduration]
    rfl

/-- A value is one curve at most. -/
theorem IsCurve.unique {value : Json ℚ} {one other : Curve} (hone : IsCurve value one)
    (hother : IsCurve value other) : one = other := by
  have hread : curveFromJson ⟨id, fun _ => ""⟩ .charging value = .ok one :=
    curveFromJson_ok.mpr hone
  rw [curveFromJson_ok.mpr hother] at hread
  exact (Except.ok.inj hread).symm

/-- A value that is no curve is refused at a member of it that is at fault. -/
theorem curveFromJson_error {value : Json ℚ} {fault : Invalid}
    (hfault : curveFromJson doubles direction value = .error fault) :
    ∃ member, fault.atPath = pathIn direction member ∧ CurveFault direction value member := by
  unfold curveFromJson at hfault
  split at hfault
  · rename_i members
    rcases Fallible.bind_error.mp hfault with hmember | ⟨held, hheld, hfault⟩
    · -- No points at all.
      unfold curveMember at hmember
      split at hmember
      · cases hmember
      · rename_i hget
        cases hmember
        exact ⟨[.name "points"], rfl, .noPoints fun listed hlisted => by simp [hget] at hlisted⟩
    · have hget : Json.get members "points" = some held := by
        unfold curveMember at hheld
        split at hheld
        · rename_i other hother
          rw [hother, Except.ok.inj hheld]
        · cases hheld
      split at hfault
      · rename_i listed
        rcases Fallible.bind_error.mp hfault with hpoints | ⟨points, hpoints, hfault⟩
        · obtain ⟨j, item, hitem, hpoint, hat⟩ := pointsFromJson_error hpoints
          rw [Nat.zero_add] at hat
          exact ⟨_, hat, .notPoint hget hitem hpoint⟩
        · rcases Fallible.bind_error.mp hfault with hlearnt | ⟨learnt, hlearnt, hfault⟩
          · obtain ⟨hat, hnone⟩ := curveNumber_error hlearnt
            exact ⟨_, hat, .notWhole fun learntFrom => hnone _⟩
          · rcases Fallible.bind_error.mp hfault with hword | ⟨learntFrom, hword, hfault⟩
            · obtain ⟨hat, hnone⟩ := learntFromNumber_error hword
              refine ⟨_, hat, .notWhole fun learntFrom hhas => ?_⟩
              exact hnone learntFrom ((curveNumber_ok.mp hlearnt).unique hhas)
            · rcases Fallible.bind_error.mp hfault with herror | ⟨error, herror, hfault⟩
              · obtain ⟨hat, hnone⟩ := curveNumber_error herror
                exact ⟨_, hat, .notNumber (.inl rfl) hnone⟩
              · rcases Fallible.bind_error.mp hfault with hduration | ⟨duration, -, hpure⟩
                · obtain ⟨hat, hnone⟩ := curveNumber_error hduration
                  exact ⟨_, hat, .notNumber (.inr rfl) hnone⟩
                · cases hpure
      · rename_i hlist
        cases hfault
        refine ⟨[.name "points"], rfl, .noPoints fun listed hlisted => ?_⟩
        rw [hget] at hlisted
        exact hlist listed (Option.some.inj hlisted)
  · rename_i hobject
    cases hfault
    exact ⟨[], rfl, .notObject hobject⟩

end Read

/-! ## Keeping the rules -/

section Keep

variable {doubles : Doubles} {direction : Direction} {curve : Curve}

/-- Points that break the rules are refused at one that does. -/
theorem validatePoints_error {i : ℕ} {before : Option (ℚ × ℚ)} {earlier later : List (ℚ × ℚ)}
    {fault : Invalid} (hpoints : curve.points = earlier ++ later) (hi : earlier.length = i)
    (hbefore : before = earlier.getLast?)
    (hfault : validatePoints doubles direction i before later = .error fault) :
    ∃ member, fault.atPath = pathIn direction member ∧ Broken direction curve member := by
  induction later generalizing i before earlier with
  | nil => cases hfault
  | cons point rest ih =>
      obtain ⟨volts, charge⟩ := point
      have hhere : curve.points[i]? = some (volts, charge) := by
        rw [hpoints, ← hi, List.getElem?_append_right le_rfl, Nat.sub_self]
        rfl
      have hlater {before : Option (ℚ × ℚ)} (hbefore : before = some (volts, charge))
          (hfault : validatePoints doubles direction (i + 1) before rest = .error fault) :
          ∃ member, fault.atPath = pathIn direction member ∧ Broken direction curve member := by
        have hsplit : curve.points = (earlier ++ [(volts, charge)]) ++ rest := by
          rw [hpoints, List.append_assoc, List.singleton_append]
        refine ih hsplit ?_ ?_ hfault
        · rw [List.length_append, hi, List.length_singleton]
        · rw [hbefore, List.getLast?_concat]
      unfold validatePoints at hfault
      dsimp only at hfault
      by_cases hcharge : 0 ≤ charge ∧ charge ≤ 1
      swap
      · rw [if_pos hcharge] at hfault
        cases hfault
        exact ⟨_, rfl, .charge hhere hcharge⟩
      · rw [if_neg (not_not.mpr hcharge)] at hfault
        cases hprevious : before with
        | none =>
            rw [hprevious] at hfault
            exact hlater rfl hfault
        | some previous =>
            obtain ⟨beforeVolts, beforeCharge⟩ := previous
            rw [hprevious] at hfault
            obtain ⟨j, rfl⟩ : ∃ j, i = j + 1 := by
              cases i with
              | zero => simp [List.length_eq_zero_iff.mp hi, hprevious] at hbefore
              | succ j => exact ⟨j, rfl⟩
            have hpreceding : curve.points[j]? = some (beforeVolts, beforeCharge) := by
              rw [hpoints, List.getElem?_append_left (by omega), ← hprevious, hbefore,
                List.getLast?_eq_getElem?, hi, Nat.add_sub_cancel]
            dsimp only at hfault
            split_ifs at hfault with hsame hbelow hfalls
            · cases hfault
              exact ⟨_, rfl, .order hpreceding hhere fun h => h.1.ne' hsame⟩
            · cases hfault
              exact ⟨_, rfl, .order hpreceding hhere fun h => hbelow.not_gt h.1⟩
            · cases hfault
              exact ⟨_, rfl, .order hpreceding hhere fun h => hfalls.not_ge h.2⟩
            · exact hlater rfl hfault

/-- Ends that break the rules are refused at the one that does. -/
theorem validateEnds_error {fault : Invalid} (hdirection : direction = .discharging)
    (hfault : validateEnds doubles direction curve.points = .error fault) :
    ∃ member, fault.atPath = pathIn direction member ∧ Broken direction curve member := by
  unfold validateEnds at hfault
  split at hfault
  · rename_i firstVolts firstCharge lastVolts lastCharge hfirst hlast
    dsimp only at hfault
    split_ifs at hfault with hzero habove hone
    · cases hfault
      exact ⟨_, rfl, .first hdirection hfirst fun h => hzero h.1⟩
    · cases hfault
      exact ⟨_, rfl, .first hdirection hfirst fun h => habove.not_ge h.2⟩
    · cases hfault
      exact ⟨_, rfl, .last hdirection hlast hone⟩
  · cases hfault

/-- A figure that breaks the rules is refused there. -/
theorem validateFigures_error {fault : Invalid}
    (hfault : validateFigures doubles direction curve = .error fault) :
    ∃ member, fault.atPath = pathIn direction member ∧ Broken direction curve member := by
  unfold validateFigures at hfault
  dsimp only at hfault
  split_ifs at hfault with herror hduration
  · cases hfault
    exact ⟨_, rfl, .duration hduration⟩
  · cases hfault
    exact ⟨_, rfl, .error herror⟩

/-- A curve that breaks the rules is refused at a member that does. -/
theorem validate_error {fault : Invalid}
    (hfault : validate doubles direction curve = .error fault) :
    ∃ member, fault.atPath = pathIn direction member ∧ Broken direction curve member := by
  unfold validate at hfault
  split at hfault
  · rename_i hfew
    cases hfault
    exact ⟨_, rfl, .few hfew⟩
  · split at hfault
    · rename_i other hpoints
      cases hfault
      exact validatePoints_error (List.nil_append _).symm rfl rfl hpoints
    · split at hfault
      · rename_i other hends
        cases hfault
        split_ifs at hends with hdirection
        exact validateEnds_error hdirection hends
      · exact validateFigures_error hfault

/-- A curve with a member that breaks its rules is not valid. -/
theorem Broken.not_valid {member : List Segment} (hbroken : Broken direction curve member) :
    ¬curve.Valid direction := by
  intro hvalid
  cases hbroken with
  | few hfew => exact absurd hvalid.two (by omega)
  | charge hp hcharge => exact hcharge (hvalid.within _ (List.mem_of_getElem? hp))
  | order hp hq horder => exact horder (Interpolation.before_of_next hvalid.rising hp hq)
  | first hdirection hp hfirst => exact hfirst ((hvalid.spans hdirection).first _ hp)
  | last hdirection hp hlast => exact hlast ((hvalid.spans hdirection).last _ hp)
  | error herror => exact herror hvalid.error
  | duration hduration => exact hduration.not_gt hvalid.duration

/-- A value with a member at fault is no curve that keeps the rules once rounded. -/
theorem CurveFault.not_onceRounded {value : Json ℚ} {member : List Segment}
    (hfault : CurveFault direction value member) (hcurve : IsCurve value curve) :
    ¬OnceRounded direction curve := by
  intro hrounded
  have hparts := hcurve
  obtain ⟨members, hvalue, ⟨listed, hget, hpoints⟩, hlearnt, herror, hduration⟩ := hparts
  cases hfault with
  | notObject hother => exact hother members hvalue
  | noPoints hnone =>
      cases hvalue
      exact hnone listed hget
  | notPoint hother hitem hpoint =>
      cases hvalue
      rw [hget] at hother
      cases hother
      obtain ⟨hi, rfl⟩ := List.getElem?_eq_some_iff.mp hitem
      exact hpoint _ (hpoints.get hi (hpoints.length_eq ▸ hi))
  | notWhole hnone =>
      cases hvalue
      exact hnone _ hlearnt
  | notNumber hkey hnone =>
      cases hvalue
      rcases hkey with rfl | rfl
      · exact hnone _ herror
      · exact hnone _ hduration
  | broken hother hbroken =>
      rw [hother.unique hcurve] at hbroken
      exact hbroken.not_valid hrounded

/-- A number of at most four decimal places is its own when rounded. -/
theorem FourPlaces.round {number : ℚ} (hplaces : FourPlaces number) :
    round number places = number := by
  obtain ⟨n, hn⟩ := hplaces
  exact Rounding.toPlaces_of_scaled hn

/-- A curve that keeps the rules as it was sent keeps them once rounded. -/
theorem AsSent.onceRounded (hsent : AsSent direction curve) : OnceRounded direction curve := by
  obtain ⟨hvalid, hpoints, herror, hduration⟩ := hsent
  have hsame : curve.rounded.points = curve.points := by
    refine (List.map_congr_left fun p hp => ?_).trans (List.map_id _)
    exact Prod.ext (hpoints p hp).1.round (hpoints p hp).2.round
  exact hvalid.of_points hsame herror.round hduration.round

end Keep

/-! ## The document -/

namespace Document

variable {doubles : Doubles} {members : Json.Map ℚ}

/-- An object's charging curve is read as what it is. -/
theorem chargingFromJson_ok {charging : Option Curve} :
    chargingFromJson doubles members = .ok charging ↔ IsCharging members charging := by
  unfold chargingFromJson
  constructor
  · intro hread
    split at hread
    · rename_i hget
      rw [← Except.ok.inj hread]
      exact .missing hget
    · rename_i hget
      rw [← Except.ok.inj hread]
      exact .null hget
    · rename_i value hget hheld
      obtain ⟨curve, hcurve, rfl⟩ := Fallible.map_ok.mp hread
      exact .held hheld (curveFromJson_ok.mp hcurve)
  · intro hcharging
    cases hcharging with
    | missing hget => rw [hget]
    | null hget => rw [hget]
    | held hget hcurve =>
        obtain ⟨inner, rfl, -⟩ := id hcurve
        rw [hget]
        dsimp only
        rw [curveFromJson_ok.mpr hcurve]
        rfl

/-- An object's charging curve that is none is refused at a member that is at fault. -/
theorem chargingFromJson_error {fault : Invalid}
    (hfault : chargingFromJson doubles members = .error fault) :
    ∃ member, fault.atPath = path member ∧ Fault (.object members) member := by
  unfold chargingFromJson at hfault
  split at hfault
  · cases hfault
  · cases hfault
  · rename_i value hnull hget
    cases hread : curveFromJson doubles .charging value with
    | ok curve =>
        rw [hread] at hfault
        cases hfault
    | error other =>
        rw [hread] at hfault
        cases hfault
        obtain ⟨member, hat, hmember⟩ := curveFromJson_error hread
        exact ⟨_, hat, .charging hget (by rintro rfl; exact hnull rfl) hmember⟩

/-- Curves that make no document are refused at a member that breaks their rules. -/
theorem new_error {discharging : Curve} {charging : Option Curve} {fault : Invalid}
    (hfault : new doubles discharging charging = .error fault) :
    (∃ member, fault.atPath = pathIn .discharging member ∧
      Broken .discharging discharging.rounded member) ∨
    ∃ curve ∈ charging, ∃ member, fault.atPath = pathIn .charging member ∧
      Broken .charging curve.rounded member := by
  unfold new at hfault
  split at hfault
  · rename_i other hdischarging
    cases hfault
    exact .inl (validate_error hdischarging)
  · split at hfault
    · rename_i other hcharging
      cases hfault
      cases charging with
      | none => cases hcharging
      | some curve => exact .inr ⟨curve, rfl, validate_error hcharging⟩
    · cases hfault

/-- What a value that loads is, and the document it makes. -/
theorem fromJson_ok_iff {value : Json ℚ} {document : Document} :
    fromJson doubles value = .ok document ↔
      ∃ members curve discharging charging, value = .object members ∧
        Json.get members "discharging" = some curve ∧ IsCurve curve discharging ∧
        IsCharging members charging ∧ new doubles discharging charging = .ok document := by
  constructor
  · intro hread
    unfold fromJson at hread
    split at hread
    · rename_i members
      dsimp only at hread
      split at hread
      · cases hread
      · cases hread
      · rename_i curve hnull hget
        obtain ⟨discharging, hdischarging, hread⟩ := Fallible.bind_ok.mp hread
        obtain ⟨charging, hcharging, hnew⟩ := Fallible.bind_ok.mp hread
        exact ⟨members, curve, discharging, charging, rfl, hget,
          curveFromJson_ok.mp hdischarging, chargingFromJson_ok.mp hcharging, hnew⟩
    · cases hread
  · intro hloads
    obtain ⟨members, curve, discharging, charging, rfl, hget, hcurve, hcharging, hnew⟩ := hloads
    have hread : curveFromJson doubles .discharging curve = .ok discharging :=
      curveFromJson_ok.mpr hcurve
    obtain ⟨inner, rfl, -⟩ := hcurve
    simp only [fromJson, hget, hread, Fallible.ok_bind, chargingFromJson_ok.mpr hcharging, hnew]

/-- A value loads where it keeps the rules once rounded. -/
theorem exists_fromJson_iff {value : Json ℚ} :
    (∃ document, fromJson doubles value = .ok document) ↔ Obeys OnceRounded value := by
  constructor
  · intro hloads
    obtain ⟨document, hloads⟩ := hloads
    obtain ⟨members, curve, discharging, charging, hvalue, hget, hcurve, hcharging, hnew⟩ :=
      fromJson_ok_iff.mp hloads
    obtain ⟨hfirst, hsecond⟩ := exists_new_iff.mp ⟨document, hnew⟩
    exact ⟨members, hvalue, ⟨curve, discharging, hget, hcurve, hfirst⟩, charging, hcharging,
      hsecond⟩
  · intro hobeys
    obtain ⟨members, hvalue, ⟨curve, discharging, hget, hcurve, hfirst⟩, charging, hcharging,
      hsecond⟩ := hobeys
    obtain ⟨document, hnew⟩ : ∃ document, new doubles discharging charging = .ok document :=
      exists_new_iff.mpr ⟨hfirst, hsecond⟩
    exact ⟨document, fromJson_ok_iff.mpr
      ⟨members, curve, discharging, charging, hvalue, hget, hcurve, hcharging, hnew⟩⟩

/-- A value that does not load is refused at a member of it that is at fault. -/
theorem fromJson_error {value : Json ℚ} {fault : Invalid}
    (hfault : fromJson doubles value = .error fault) :
    ∃ member, fault.atPath = path member ∧ Fault value member := by
  unfold fromJson at hfault
  split at hfault
  · rename_i members
    dsimp only at hfault
    split at hfault
    · rename_i hget
      cases hfault
      exact ⟨_, rfl, .noDischarging (.inl hget)⟩
    · rename_i hget
      cases hfault
      exact ⟨_, rfl, .noDischarging (.inr hget)⟩
    · rename_i curve hnull hget
      rcases Fallible.bind_error.mp hfault with hread | ⟨discharging, hread, hfault⟩
      · obtain ⟨member, hat, hmember⟩ := curveFromJson_error hread
        exact ⟨_, hat, .discharging hget hmember⟩
      · rcases Fallible.bind_error.mp hfault with hcharging | ⟨charging, hcharging, hnew⟩
        · exact chargingFromJson_error hcharging
        · rcases new_error hnew with ⟨member, hat, hbroken⟩ | ⟨held, hheld, member, hat, hbroken⟩
          · exact ⟨_, hat, .discharging hget (.broken (curveFromJson_ok.mp hread) hbroken)⟩
          · cases chargingFromJson_ok.mp hcharging with
            | missing hcharging => cases hheld
            | null hcharging => cases hheld
            | held hcharging hcurve =>
                obtain rfl := Option.some.inj hheld
                obtain ⟨inner, rfl, -⟩ := id hcurve
                exact ⟨_, hat, .charging hcharging (by simp) (.broken hcurve hbroken)⟩
  · rename_i hobject
    cases hfault
    exact ⟨[], rfl, .notObject hobject⟩

/-- A value with a member at fault does not keep the rules. -/
theorem not_obeys_of_fault {value : Json ℚ} {member : List Segment} (hfault : Fault value member) :
    ¬Obeys OnceRounded value := by
  intro hobeys
  obtain ⟨members, rfl, ⟨curve, discharging, hget, hcurve, hfirst⟩, charging, hcharging,
    hsecond⟩ := hobeys
  cases hfault with
  | notObject hother => exact hother members rfl
  | noDischarging hnone =>
      rw [hget] at hnone
      rcases hnone with hnone | hnull
      · cases hnone
      · obtain rfl := Option.some.inj hnull
        obtain ⟨inner, hinner, -⟩ := hcurve
        cases hinner
  | discharging hother hmember =>
      rw [hget] at hother
      obtain rfl := Option.some.inj hother
      exact hmember.not_onceRounded hcurve hfirst
  | charging hother hheld hmember =>
      cases hcharging with
      | missing hcharging =>
          rw [hcharging] at hother
          cases hother
      | null hcharging =>
          rw [hcharging] at hother
          exact hheld (Option.some.inj hother).symm
      | held hcharging hcurve =>
          rw [hcharging] at hother
          obtain rfl := Option.some.inj hother
          exact hmember.not_onceRounded hcurve (hsecond _ rfl)

/-- A value that keeps the rules as it was sent keeps them once rounded. -/
theorem obeys_onceRounded {value : Json ℚ} (hsent : Obeys AsSent value) :
    Obeys OnceRounded value := by
  obtain ⟨members, hvalue, ⟨curve, discharging, hget, hcurve, hfirst⟩, charging, hcharging,
    hsecond⟩ := hsent
  exact ⟨members, hvalue, ⟨curve, discharging, hget, hcurve, hfirst.onceRounded⟩, charging,
    hcharging, fun held hheld => (hsecond held hheld).onceRounded⟩

/-- What loads is what keeps the rules once its numbers are rounded, as all does that keeps them as
it was sent; what is refused is refused at a member that is then at fault; and what is held is read
back as it is written. -/
theorem loads_onceRounded (doubles : Doubles) (value : Json ℚ) :
    ((∃ document, fromJson doubles value = .ok document) ↔ Obeys OnceRounded value) ∧
      (Obeys AsSent value → Obeys OnceRounded value) ∧
      (∀ fault, fromJson doubles value = .error fault →
        ∃ member, fault.atPath = path member ∧ Fault value member) ∧
      (∀ member, Fault value member → ¬Obeys OnceRounded value) ∧
      ∀ document : Document, fromJson doubles document.toJson = .ok document :=
  ⟨exists_fromJson_iff, obeys_onceRounded, fun _ => fromJson_error, fun _ => not_obeys_of_fault,
    fromJson_toJson⟩

/-- A discharging curve whose error has five decimal places. -/
def fivePlaces : Curve where
  points := [(26 / 10, 0), (42 / 10, 1)]
  learntFrom := 0
  error := 12345 / 100000
  duration := 1

/-- A value loads that breaks the rules as it was sent. -/
theorem not_loads_asSent :
    ¬∀ (doubles : Doubles) (value : Json ℚ),
      (∃ document, fromJson doubles value = .ok document) ↔ Obeys AsSent value := by
  intro hloads
  have hwritten : IsCurve (curveToJson fivePlaces) fivePlaces :=
    curveFromJson_ok.mp (curveFromJson_curveToJson ⟨id, fun _ => ""⟩ .discharging fivePlaces)
  have hvalid : OnceRounded .discharging fivePlaces :=
    { two := by decide
      within := by decide +kernel
      rising := by decide +kernel
      spans := fun _ => ⟨by decide +kernel, by decide +kernel⟩
      error := by decide +kernel
      duration := by decide +kernel }
  have hrounded : Obeys OnceRounded (.object [("discharging", curveToJson fivePlaces)]) :=
    ⟨_, rfl, ⟨_, _, rfl, hwritten, hvalid⟩, none, .missing rfl, by simp⟩
  obtain ⟨members, hvalue, ⟨curve, discharging, hget, hcurve, hsent⟩, -⟩ :=
    (hloads ⟨id, fun _ => ""⟩ _).mp (exists_fromJson_iff.mpr hrounded)
  cases hvalue
  obtain rfl : curveToJson fivePlaces = curve := Option.some.inj hget
  rw [← hwritten.unique hcurve] at hsent
  obtain ⟨n, hn⟩ := hsent.2.2.1
  have hwhole : (2469 : ℚ) / 2 = n := by
    rw [← hn]
    norm_num [fivePlaces, places]
  have hdouble : (2469 : ℤ) = 2 * n := by
    have hcast : (2469 : ℚ) = 2 * n := by linarith
    exact_mod_cast hcast
  omega

end Document

end Bliti.Facts.Power
