import Bliti.Channel.Config
import Bliti.Library.Interpolation
import Bliti.Library.Rounding

/-!
# Battery curves - cell voltage to charge, and the document of them

The curves a device's charge is read from, one for each direction of travel, and the document they
are read out of a device and loaded into it as.  A double is read as a rational; what doubles do
that rationals do not is a parameter.
-/

namespace Bliti.Facts.Power

open Channel.Config (Segment path)
open Interpolation (Before Rising interpolate)

/-- What a double does that a rational does not: its square root, which few rationals have, and its
shortest text. -/
structure Doubles where
  sqrt : ℚ → ℚ
  display : ℚ → String

/-- The cell voltage under load below which the device does not go on running. -/
def floorVolts : ℚ := 14 / 5

/-- Places every number in a curve document is rounded to. -/
def places : ℕ := 4

/-- A number rounded to decimal places. -/
def round (value : ℚ) (places : ℕ) : ℚ :=
  Rounding.toPlaces places value

/-- One curve, cell voltage to charge: its points, by rising voltage, how many runs or charges
refined it, how far its charge is expected to be off, and the seconds to cover its whole scale. -/
structure Curve where
  points : List (ℚ × ℚ)
  learntFrom : UInt32
  error : ℚ
  duration : ℚ
deriving DecidableEq

/-- Which of the two curves, for saying where a document is wrong. -/
inductive Direction where
  | discharging
  | charging
deriving DecidableEq, Repr

/-- The member a curve is in a document. -/
def Direction.name : Direction → String
  | .discharging => "discharging"
  | .charging => "charging"

/-- Why a curve document cannot be loaded: the first member at fault, and why. -/
structure Invalid where
  atPath : String
  reason : String
deriving DecidableEq, Repr

namespace Curve

/-- How many of a list's first items a predicate holds of. -/
def partitionPoint {α : Type} (p : α → Bool) (items : List α) : ℕ :=
  (items.takeWhile p).length

/-- The charge at a voltage, interpolated between points and clamped to the curve's ends. -/
def chargeAt (curve : Curve) (volts : ℚ) : ℚ :=
  match curve.points.head?, curve.points.getLast? with
  | some (low, bottom), some (high, top) =>
      if volts ≤ low then bottom
      else if high ≤ volts then top
      else
        let above := partitionPoint (fun point => point.1 ≤ volts) curve.points
        match curve.points[above - 1]?, curve.points[above]? with
        | some (v0, c0), some (v1, c1) => c0 + (c1 - c0) * (volts - v0) / (v1 - v0)
        -- Indices out of bounds, which no voltage between the ends gives.
        | _, _ => 0
  | _, _ => 0

/-- Whether a voltage lies within the voltages the curve covers. -/
def covers (curve : Curve) (volts : ℚ) : Bool :=
  match curve.points.head?, curve.points.getLast? with
  | some (low, _), some (high, _) => low ≤ volts && volts ≤ high
  | _, _ => false

/-- The curve with every number rounded. -/
def rounded (curve : Curve) : Curve where
  points := curve.points.map fun point => (round point.1 places, round point.2 places)
  learntFrom := curve.learntFrom
  error := round curve.error places
  duration := round curve.duration places

end Curve

/-! ## The rules for a curve -/

/-- The path of a member of one of the curves, rooted at the document. -/
def pathIn (direction : Direction) (member : List Segment) : String :=
  path (.name direction.name :: member)

/-- The path of a point of one of the curves. -/
def pointAt (direction : Direction) (index : ℕ) : String :=
  pathIn direction [.name "points", .index index]

section Validate

variable (doubles : Doubles) (direction : Direction)

/-- The rules for the points from one on, given the point before it. -/
def validatePoints (i : ℕ) (before : Option (ℚ × ℚ)) : List (ℚ × ℚ) → Except Invalid Unit
  | [] => .ok ()
  | (volts, charge) :: rest =>
      let name := direction.name
      let n := toString (i + 1)
      let fault (reason : String) : Except Invalid Unit :=
        .error { atPath := pointAt direction i, reason := reason }
      if ¬(0 ≤ charge ∧ charge ≤ 1) then
        fault ("the " ++ name ++ " curve's point " ++ n ++ ", at " ++ doubles.display volts ++
          " V, has charge " ++ doubles.display charge ++ ", outside 0 to 1")
      else
        match before with
        | none => validatePoints (i + 1) (some (volts, charge)) rest
        | some (beforeVolts, beforeCharge) =>
            if volts = beforeVolts then
              fault ("the " ++ name ++ " curve's points " ++ toString i ++ " and " ++ n ++
                " are both at " ++ doubles.display volts ++ " V")
            else if volts < beforeVolts then
              fault ("the " ++ name ++ " curve's point " ++ n ++ ", at " ++
                doubles.display volts ++ " V, is below the point before it, at " ++
                doubles.display beforeVolts ++ " V")
            else if charge < beforeCharge then
              fault ("the " ++ name ++ " curve's charge falls from " ++
                doubles.display beforeCharge ++ " at " ++ doubles.display beforeVolts ++
                " V to " ++ doubles.display charge ++ " at " ++ doubles.display volts ++ " V")
            else validatePoints (i + 1) (some (volts, charge)) rest

/-- The rules for the discharging curve's ends. -/
def validateEnds (points : List (ℚ × ℚ)) : Except Invalid Unit :=
  match points.head?, points.getLast? with
  | some (firstVolts, firstCharge), some (lastVolts, lastCharge) =>
      let name := direction.name
      if firstCharge ≠ 0 then
        .error {
          atPath := pointAt direction 0
          reason := "the " ++ name ++ " curve's first point, at " ++ doubles.display firstVolts ++
            " V, has charge " ++ doubles.display firstCharge ++ " rather than 0" }
      else if floorVolts < firstVolts then
        .error {
          atPath := pointAt direction 0
          reason := "the " ++ name ++ " curve's first point, at " ++ doubles.display firstVolts ++
            " V, is above the floor of " ++ doubles.display floorVolts ++ " V" }
      else if lastCharge ≠ 1 then
        .error {
          atPath := pointAt direction (points.length - 1)
          reason := "the " ++ name ++ " curve's last point, at " ++ doubles.display lastVolts ++
            " V, has charge " ++ doubles.display lastCharge ++ " rather than 1" }
      else .ok ()
  | _, _ => .ok ()

/-- The rules for a curve's error and duration. -/
def validateFigures (curve : Curve) : Except Invalid Unit :=
  let name := direction.name
  if ¬(0 ≤ curve.error ∧ curve.error ≤ 1) then
    .error {
      atPath := pathIn direction [.name "error"]
      reason := "the " ++ name ++ " curve's error, " ++ doubles.display curve.error ++
        ", is outside 0 to 1" }
  else if curve.duration ≤ 0 then
    .error {
      atPath := pathIn direction [.name "duration"]
      reason := "the " ++ name ++ " curve's duration, " ++ doubles.display curve.duration ++
        ", is not greater than 0" }
  else .ok ()

/-- The rules for one curve, and for the discharging curve's ends.  No rational is infinite or not
a number, so the rules against those are left out. -/
def validate (curve : Curve) : Except Invalid Unit :=
  if curve.points.length < 2 then
    let count := if curve.points.length = 0 then "no points" else "1 point"
    .error {
      atPath := pathIn direction [.name "points"]
      reason := "the " ++ direction.name ++ " curve has " ++ count ++ ", and needs at least 2" }
  else
    match validatePoints doubles direction 0 none curve.points with
    | .error fault => .error fault
    | .ok () =>
        match (if direction = .discharging then validateEnds doubles direction curve.points
          else .ok ()) with
        | .error fault => .error fault
        | .ok () => validateFigures doubles direction curve

end Validate

/-- What the rules ask of a discharging curve's ends: it begins at nothing, at or below the floor,
and ends at full. -/
structure Curve.Spans (curve : Curve) : Prop where
  first : ∀ p ∈ curve.points.head?, p.2 = 0 ∧ p.1 ≤ floorVolts
  last : ∀ p ∈ curve.points.getLast?, p.2 = 1

/-- What the rules ask of a curve. -/
structure Curve.Valid (curve : Curve) (direction : Direction) : Prop where
  two : 2 ≤ curve.points.length
  within : ∀ p ∈ curve.points, 0 ≤ p.2 ∧ p.2 ≤ 1
  rising : Rising curve.points
  spans : direction = .discharging → curve.Spans
  error : 0 ≤ curve.error ∧ curve.error ≤ 1
  duration : 0 < curve.duration

section Rules

variable {doubles : Doubles} {direction : Direction}

/-- The points from one on keep the rules where each charge is within a cell and each point comes
after the one before. -/
theorem validatePoints_ok_iff {i : ℕ} {before : Option (ℚ × ℚ)} {points : List (ℚ × ℚ)} :
    validatePoints doubles direction i before points = .ok () ↔
      (∀ p ∈ points, 0 ≤ p.2 ∧ p.2 ≤ 1) ∧ Rising (before.toList ++ points) := by
  induction points generalizing i before with
  | nil =>
      have hshort : Rising before.toList := by
        cases before <;> simp [Rising]
      simp [validatePoints, hshort]
  | cons point rest ih =>
      obtain ⟨volts, charge⟩ := point
      rw [List.forall_mem_cons]
      unfold validatePoints
      by_cases hwithin : 0 ≤ charge ∧ charge ≤ 1
      swap
      · rw [if_pos hwithin]
        exact iff_of_false (by simp) fun h => hwithin h.1.1
      · rw [if_neg (not_not.mpr hwithin)]
        cases before with
        | none =>
            rw [ih]
            simp [hwithin]
        | some before =>
            obtain ⟨beforeVolts, beforeCharge⟩ := before
            have hchain : Rising ((some (beforeVolts, beforeCharge)).toList ++
                (volts, charge) :: rest) ↔
                  (beforeVolts < volts ∧ beforeCharge ≤ charge) ∧
                    Rising ((volts, charge) :: rest) :=
              List.isChain_cons_cons
            rw [hchain]
            dsimp only
            split_ifs with hsame hbelow hfalls
            · simp [hsame]
            · simp [hbelow.not_gt]
            · simp [hfalls]
            · rw [ih]
              have habove : beforeVolts < volts :=
                lt_of_le_of_ne (not_lt.mp hbelow) (Ne.symm hsame)
              simp [hwithin, habove, not_lt.mp hfalls]

/-- A curve's ends keep the rules where it spans the scale. -/
theorem validateEnds_ok_iff {curve : Curve} (htwo : 2 ≤ curve.points.length) :
    validateEnds doubles direction curve.points = .ok () ↔ curve.Spans := by
  have hne : curve.points ≠ [] := List.ne_nil_of_length_pos (by omega)
  obtain ⟨⟨firstVolts, firstCharge⟩, hfirst⟩ : ∃ p, curve.points.head? = some p :=
    ⟨_, List.head?_eq_some_head hne⟩
  obtain ⟨⟨lastVolts, lastCharge⟩, hlast⟩ : ∃ p, curve.points.getLast? = some p :=
    ⟨_, List.getLast?_eq_some_getLast hne⟩
  have hspans : curve.Spans ↔ (firstCharge = 0 ∧ firstVolts ≤ floorVolts) ∧ lastCharge = 1 := by
    constructor
    · rintro ⟨hstart, hend⟩
      exact ⟨hstart _ hfirst, hend _ hlast⟩
    · rintro ⟨hstart, hend⟩
      constructor
      · intro p hp
        rw [hfirst, Option.mem_some_iff] at hp
        subst hp
        exact hstart
      · intro p hp
        rw [hlast, Option.mem_some_iff] at hp
        subst hp
        exact hend
  rw [hspans, validateEnds, hfirst, hlast]
  dsimp only
  split_ifs with hzero habove hone
  · simp [hzero]
  · simp [habove]
  · simp [hone]
  · simp only [not_not] at hzero hone
    simp [hzero, hone, not_lt.mp habove]

/-- A curve's error and duration keep the rules where the one is a share and the other is
positive. -/
theorem validateFigures_ok_iff {curve : Curve} :
    validateFigures doubles direction curve = .ok () ↔
      (0 ≤ curve.error ∧ curve.error ≤ 1) ∧ 0 < curve.duration := by
  unfold validateFigures
  dsimp only
  split_ifs with herror hduration
  · exact iff_of_false (by simp) fun h => hduration.not_gt h.2
  · exact iff_of_true rfl ⟨herror, not_le.mp hduration⟩
  · exact iff_of_false (by simp) fun h => herror h.1

/-- A curve keeps the rules where it is valid. -/
theorem validate_ok_iff {curve : Curve} :
    validate doubles direction curve = .ok () ↔ curve.Valid direction := by
  unfold validate
  split
  · rename_i hfew
    exact iff_of_false (by simp) fun h => absurd h.two (by omega)
  · rename_i hfew
    have htwo : 2 ≤ curve.points.length := by omega
    have hpoints : validatePoints doubles direction 0 none curve.points = .ok () ↔ _ :=
      validatePoints_ok_iff
    split
    · rename_i fault hfault
      rw [hfault] at hpoints
      exact iff_of_false (by simp) fun h => absurd (hpoints.mpr ⟨h.within, h.rising⟩) (by simp)
    · rename_i hok
      obtain ⟨hwithin, hrising⟩ := hpoints.mp hok
      split
      · rename_i fault hfault
        refine iff_of_false (by simp) fun h => ?_
        split_ifs at hfault with hdirection
        rw [(validateEnds_ok_iff htwo).mpr (h.spans hdirection)] at hfault
        cases hfault
      · rename_i hends
        have hspans : direction = .discharging → curve.Spans := by
          intro hdirection
          rw [if_pos hdirection] at hends
          exact (validateEnds_ok_iff htwo).mp hends
        rw [validateFigures_ok_iff]
        constructor
        · intro h
          exact ⟨htwo, hwithin, hrising, hspans, h.1, h.2⟩
        · intro h
          exact ⟨h.error, h.duration⟩

end Rules

/-! ## The charge at a voltage -/

namespace Curve

variable {curve : Curve}

/-- Between a curve's ends, the points either side of the partition are those a voltage is
interpolated between. -/
theorem partition_cases {points : List (ℚ × ℚ)} {volts : ℚ} (hrising : Rising points)
    {first last : ℚ × ℚ} (hfirst : points.head? = some first) (hlast : points.getLast? = some last)
    (hlow : first.1 ≤ volts) (hhigh : volts < last.1) :
    ∃ p q, points[partitionPoint (fun point => point.1 ≤ volts) points - 1]? = some p ∧
      points[partitionPoint (fun point => point.1 ≤ volts) points]? = some q ∧
      interpolate points volts = Interpolation.between p q volts := by
  induction points generalizing first with
  | nil => cases hfirst
  | cons p rest ih =>
      obtain rfl : p = first := by simpa using hfirst
      cases rest with
      | nil =>
          obtain rfl : p = last := by simpa using hlast
          exact absurd hhigh hlow.not_gt
      | cons q rest =>
          obtain ⟨hbefore, hrest⟩ := List.isChain_cons_cons.mp hrising
          rw [List.getLast?_cons_cons] at hlast
          have hcount : partitionPoint (fun point => decide (point.1 ≤ volts)) (p :: q :: rest) =
              partitionPoint (fun point => decide (point.1 ≤ volts)) (q :: rest) + 1 := by
            simp [partitionPoint, List.takeWhile_cons, hlow]
          rw [hcount, Nat.add_sub_cancel, List.getElem?_cons_succ]
          rcases lt_or_ge volts q.1 with hbetween | hbeyond
          · have hnone : partitionPoint (fun point => decide (point.1 ≤ volts)) (q :: rest) = 0 := by
              simp [partitionPoint, hbetween.not_ge]
            rw [hnone]
            refine ⟨p, q, rfl, rfl, ?_⟩
            exact Interpolation.interpolate_cons_of_between hbefore hlow hbetween.le
          · obtain ⟨p', q', hp, hq, hinterpolate⟩ := ih hrest rfl hlast hbeyond
            obtain ⟨k, hk⟩ : ∃ k, partitionPoint (fun point => decide (point.1 ≤ volts))
                (q :: rest) = k + 1 := by
              simp [partitionPoint, hbeyond]
            rw [hk, Nat.add_sub_cancel] at hp
            refine ⟨p', q', ?_, hq, ?_⟩
            · rw [hk, List.getElem?_cons_succ, hp]
            · rw [Interpolation.interpolate_cons_of_le hbefore hbeyond, hinterpolate]

/-- The charge at a voltage is interpolated between the points of a curve. -/
theorem chargeAt_eq (hrising : Rising curve.points) :
    curve.chargeAt = interpolate curve.points := by
  funext volts
  unfold chargeAt
  rcases hpoints : curve.points with _ | ⟨first, rest⟩
  · rfl
  · rw [hpoints] at hrising
    obtain ⟨last, hlast⟩ : ∃ p, (first :: rest).getLast? = some p :=
      ⟨_, List.getLast?_eq_some_getLast (List.cons_ne_nil first rest)⟩
    rw [List.head?_cons, hlast]
    dsimp only
    split_ifs with hlow hhigh
    · exact (Interpolation.interpolate_of_le_head hlow).symm
    · exact (Interpolation.interpolate_of_getLast_le hrising hlast hhigh).symm
    · obtain ⟨p, q, hp, hq, hinterpolate⟩ :=
        partition_cases hrising rfl hlast (not_le.mp hlow).le (not_le.mp hhigh)
      rw [hp, hq, hinterpolate]
      rfl

variable {direction : Direction}

namespace Valid

/-- A valid curve's charge does not fall as the voltage rises. -/
theorem chargeAt_mono (hvalid : curve.Valid direction) : Monotone curve.chargeAt := by
  rw [chargeAt_eq hvalid.rising]
  exact Interpolation.interpolate_mono hvalid.rising

/-- A valid curve gives the charge of a point at its voltage. -/
theorem chargeAt_of_mem (hvalid : curve.Valid direction) {p : ℚ × ℚ} (hp : p ∈ curve.points) :
    curve.chargeAt p.1 = p.2 := by
  rw [chargeAt_eq hvalid.rising]
  exact Interpolation.interpolate_of_mem hvalid.rising hp

/-- A valid curve has a first point, and gives its charge up to it. -/
theorem chargeAt_low (hvalid : curve.Valid direction) :
    ∃ p, curve.points.head? = some p ∧ ∀ volts ≤ p.1, curve.chargeAt volts = p.2 := by
  rcases hpoints : curve.points with _ | ⟨first, rest⟩
  · have htwo := hvalid.two
    simp [hpoints] at htwo
  · refine ⟨first, rfl, fun volts hle => ?_⟩
    rw [chargeAt_eq hvalid.rising, hpoints]
    exact Interpolation.interpolate_of_le_head hle

/-- A valid curve has a last point, and gives its charge beyond it. -/
theorem chargeAt_high (hvalid : curve.Valid direction) :
    ∃ p, curve.points.getLast? = some p ∧ ∀ volts, p.1 ≤ volts → curve.chargeAt volts = p.2 := by
  have hne : curve.points ≠ [] := List.ne_nil_of_length_pos (by have := hvalid.two; omega)
  refine ⟨_, List.getLast?_eq_some_getLast hne, fun volts hle => ?_⟩
  rw [chargeAt_eq hvalid.rising]
  exact Interpolation.interpolate_of_getLast_le hvalid.rising
    (List.getLast?_eq_some_getLast hne) hle

/-- A valid curve's charge is within a cell. -/
theorem chargeAt_mem (hvalid : curve.Valid direction) (volts : ℚ) :
    0 ≤ curve.chargeAt volts ∧ curve.chargeAt volts ≤ 1 := by
  obtain ⟨first, hfirst, hlow⟩ := hvalid.chargeAt_low
  obtain ⟨last, hlast, hhigh⟩ := hvalid.chargeAt_high
  constructor
  · calc 0 ≤ first.2 := (hvalid.within first (List.mem_of_head? hfirst)).1
      _ = curve.chargeAt (min volts first.1) := (hlow _ (min_le_right _ _)).symm
      _ ≤ curve.chargeAt volts := hvalid.chargeAt_mono (min_le_left _ _)
  · calc curve.chargeAt volts ≤ curve.chargeAt (max volts last.1) :=
          hvalid.chargeAt_mono (le_max_left _ _)
      _ = last.2 := hhigh _ (le_max_right _ _)
      _ ≤ 1 := (hvalid.within last (List.mem_of_getLast? hlast)).2

/-- A curve of a valid one's points, error and duration is valid, whatever it was learnt from. -/
theorem of_points {other : Curve} (hvalid : curve.Valid direction)
    (hpoints : other.points = curve.points) (herror : other.error = curve.error)
    (hduration : other.duration = curve.duration) : other.Valid direction where
  two := hpoints ▸ hvalid.two
  within := hpoints ▸ hvalid.within
  rising := hpoints ▸ hvalid.rising
  spans := fun hdirection =>
    ⟨hpoints ▸ (hvalid.spans hdirection).first, hpoints ▸ (hvalid.spans hdirection).last⟩
  error := herror ▸ hvalid.error
  duration := hduration ▸ hvalid.duration

end Valid

/-- Rounding a curve again changes nothing. -/
@[simp]
theorem rounded_rounded (curve : Curve) : curve.rounded.rounded = curve.rounded := by
  simp [rounded, round]

/-- A curve's points once rounded are its own, where it is rounded. -/
theorem round_of_mem (hrounded : curve.rounded = curve) {p : ℚ × ℚ} (hp : p ∈ curve.points) :
    round p.1 places = p.1 ∧ round p.2 places = p.2 := by
  have hpoints : curve.rounded.points = curve.points := congrArg Curve.points hrounded
  rw [← hpoints] at hp
  obtain ⟨q, -, rfl⟩ := List.mem_map.mp hp
  exact ⟨Rounding.toPlaces_toPlaces _ _, Rounding.toPlaces_toPlaces _ _⟩

end Curve

/-! ## The document -/

/-- Both of a device's curves, always valid and already rounded, so what is held is exactly what is
saved and sent. -/
structure Document where
  discharging : Curve
  charging : Option Curve
  discharging_valid : discharging.Valid .discharging
  charging_valid : ∀ curve ∈ charging, curve.Valid .charging
  discharging_rounded : discharging.rounded = discharging
  charging_rounded : ∀ curve ∈ charging, curve.rounded = curve

namespace Document

/-- Documents of the same curves are the same. -/
@[ext]
theorem ext {one other : Document} (hdischarging : one.discharging = other.discharging)
    (hcharging : one.charging = other.charging) : one = other := by
  cases one
  cases other
  cases hdischarging
  cases hcharging
  rfl

instance : DecidableEq Document := fun one other =>
  decidable_of_iff (one.discharging = other.discharging ∧ one.charging = other.charging)
    ⟨fun h => Document.ext h.1 h.2, fun h => by rw [h]; exact ⟨rfl, rfl⟩⟩

/-- Whether a charging curve breaks the rules, where there is one. -/
def validateCharging (doubles : Doubles) : Option Curve → Except Invalid Unit
  | none => .ok ()
  | some charging => validate doubles .charging charging

/-- No charging curve breaks the rules where any there is is valid. -/
theorem validateCharging_ok_iff {doubles : Doubles} {charging : Option Curve} :
    validateCharging doubles charging = .ok () ↔ ∀ curve ∈ charging, curve.Valid .charging := by
  cases charging with
  | none => simp [validateCharging]
  | some charging => simpa [validateCharging] using validate_ok_iff

/-- A document of some curves, rounded, or why it breaks the rules. -/
def new (doubles : Doubles) (discharging : Curve) (charging : Option Curve) :
    Except Invalid Document :=
  match hdischarging : validate doubles .discharging discharging.rounded with
  | .error fault => .error fault
  | .ok () =>
      match hcharging : validateCharging doubles (charging.map Curve.rounded) with
      | .error fault => .error fault
      | .ok () =>
          .ok {
            discharging := discharging.rounded
            charging := charging.map Curve.rounded
            discharging_valid := validate_ok_iff.mp hdischarging
            charging_valid := validateCharging_ok_iff.mp hcharging
            discharging_rounded := Curve.rounded_rounded discharging
            charging_rounded := by
              intro curve hcurve
              obtain ⟨held, -, rfl⟩ := Option.mem_map.mp hcurve
              exact Curve.rounded_rounded held }

/-- Curves make a document where they are valid once rounded, and it holds them rounded. -/
theorem new_ok_iff {doubles : Doubles} {discharging : Curve} {charging : Option Curve}
    {document : Document} :
    new doubles discharging charging = .ok document ↔
      (discharging.rounded.Valid .discharging ∧
        ∀ curve ∈ charging, curve.rounded.Valid .charging) ∧
      document.discharging = discharging.rounded ∧
      document.charging = charging.map Curve.rounded := by
  have hmap : (∀ curve ∈ charging.map Curve.rounded, curve.Valid .charging) ↔
      ∀ curve ∈ charging, curve.rounded.Valid .charging := by
    cases charging <;> simp
  unfold new
  split
  · rename_i fault hfault
    refine iff_of_false (by simp) fun h => ?_
    rw [validate_ok_iff.mpr h.1.1] at hfault
    cases hfault
  · rename_i hdischarging
    split
    · rename_i fault hfault
      refine iff_of_false (by simp) fun h => ?_
      rw [validateCharging_ok_iff.mpr (hmap.mpr h.1.2)] at hfault
      cases hfault
    · rename_i hcharging
      rw [Except.ok.injEq]
      constructor
      · rintro rfl
        exact ⟨⟨validate_ok_iff.mp hdischarging,
          hmap.mp (validateCharging_ok_iff.mp hcharging)⟩, rfl, rfl⟩
      · rintro ⟨-, hsame, hcurves⟩
        exact Document.ext hsame.symm hcurves.symm

/-- Curves make some document where they are valid once rounded. -/
theorem exists_new_iff {doubles : Doubles} {discharging : Curve} {charging : Option Curve} :
    (∃ document, new doubles discharging charging = .ok document) ↔
      discharging.rounded.Valid .discharging ∧
        ∀ curve ∈ charging, curve.rounded.Valid .charging := by
  constructor
  · rintro ⟨document, hnew⟩
    exact (new_ok_iff.mp hnew).1
  · rintro ⟨hdischarging, hcharging⟩
    have hcurves : ∀ curve ∈ charging.map Curve.rounded,
        curve.Valid .charging ∧ curve.rounded = curve := by
      intro curve hcurve
      obtain ⟨held, hheld, rfl⟩ := Option.mem_map.mp hcurve
      exact ⟨hcharging held hheld, Curve.rounded_rounded held⟩
    exact ⟨⟨discharging.rounded, charging.map Curve.rounded, hdischarging,
      fun curve hcurve => (hcurves curve hcurve).1, Curve.rounded_rounded discharging,
      fun curve hcurve => (hcurves curve hcurve).2⟩,
      new_ok_iff.mpr ⟨⟨hdischarging, hcharging⟩, rfl, rfl⟩⟩

/-- A document's own charging curve is valid once rounded. -/
theorem charging_rounded_valid (document : Document) :
    ∀ curve ∈ document.charging, curve.rounded.Valid .charging := by
  intro curve hcurve
  rw [document.charging_rounded curve hcurve]
  exact document.charging_valid curve hcurve

/-- A document's own curves make it again. -/
theorem new_self (doubles : Doubles) (document : Document) :
    new doubles document.discharging document.charging = .ok document := by
  have hcharging : document.charging.map Curve.rounded = document.charging := by
    rcases hheld : document.charging with _ | charging
    · rfl
    · rw [Option.map_some, document.charging_rounded charging hheld]
  rw [new_ok_iff, document.discharging_rounded, hcharging]
  exact ⟨⟨document.discharging_valid, document.charging_rounded_valid⟩, rfl, rfl⟩

/-- No charging curve is valid. -/
theorem charging_valid_none : ∀ curve ∈ (none : Option Curve), curve.Valid .charging := by
  simp

/-- No charging curve is rounded. -/
theorem charging_rounded_none : ∀ curve ∈ (none : Option Curve), curve.rounded = curve := by
  simp

/-- The curve the build carries, `shipped-curve.json`, and no charging curve. -/
def shipped : Document where
  discharging := {
    points := [
      (2571 / 1000, 0), (26 / 10, 31 / 10000), (265 / 100, 94 / 10000), (27 / 10, 166 / 10000),
      (275 / 100, 26 / 1000), (28 / 10, 354 / 10000), (285 / 100, 448 / 10000),
      (29 / 10, 562 / 10000), (295 / 100, 708 / 10000), (3, 89 / 1000), (305 / 100, 1109 / 10000),
      (31 / 10, 1406 / 10000), (315 / 100, 1728 / 10000), (32 / 10, 2062 / 10000),
      (325 / 100, 2185 / 10000), (33 / 10, 2353 / 10000), (335 / 100, 2561 / 10000),
      (34 / 10, 2902 / 10000), (345 / 100, 3341 / 10000), (35 / 10, 3746 / 10000),
      (355 / 100, 426 / 1000), (36 / 10, 4784 / 10000), (365 / 100, 5336 / 10000),
      (37 / 10, 581 / 1000), (38 / 10, 6743 / 10000), (39 / 10, 777 / 1000), (4, 8501 / 10000),
      (405 / 100, 9371 / 10000), (41 / 10, 9873 / 10000), (42 / 10, 1)]
    learntFrom := 0
    error := 2 / 10
    duration := 26400 }
  charging := none
  discharging_valid := {
    two := by decide
    within := by decide +kernel
    rising := by decide +kernel
    spans := fun _ => ⟨by decide +kernel, by decide +kernel⟩
    error := by decide +kernel
    duration := by decide +kernel }
  charging_valid := charging_valid_none
  discharging_rounded := by decide +kernel
  charging_rounded := charging_rounded_none

/-- The discharging curve's charge at the floor, which reports as 0. -/
def floorCharge (document : Document) : ℚ :=
  document.discharging.chargeAt floorVolts

/-- A charge from either curve as reported: its share of what lies between the floor and full. -/
def report (document : Document) (charge : ℚ) : ℚ :=
  let floor := document.floorCharge
  if 1 ≤ floor then
    if 1 ≤ charge then 1 else 0
  else max 0 (min ((charge - floor) / (1 - floor)) 1)

end Document

/-- The error of a curve not yet measured, from how many runs or charges it was learnt from. -/
def unmeasuredError (doubles : Doubles) (learntFrom : UInt32) : ℚ :=
  1 / 5 / doubles.sqrt (learntFrom.toNat + 1)

end Bliti.Facts.Power
