import Mathlib
import Bliti.Facts.Power.Curve

/-!
# The charge reported - a curve read at any voltage

What a document reports of its discharging curve follows the cell: it does not fall as the voltage
rises, it is nothing at the floor and full at the curve's end, and it is straight between the
curve's points, from the floor on.  Between points either side of the floor it is not: there it is
level up to the floor.

Main results:

- Theorem `Document.reported_follows`: what is reported follows the cell, and the spans are the
  curves'.
-/

namespace Bliti.Facts.Power

open Interpolation (Rising between interpolate)

/-- A time with how far either way it may be off, both in seconds. -/
structure Span where
  duration : ℚ
  margin : ℚ
deriving DecidableEq

namespace Curve

/-- How long the cell takes between two charges on a curve, with a margin of the curve's error over
that time. -/
def spanBetween (curve : Curve) (start stop : ℚ) : Span :=
  let duration := curve.duration * |stop - start|
  { duration := duration, margin := curve.error * duration }

/-- The charge at a voltage, or nothing where the code would index out of bounds, count below zero
or divide by zero. -/
def tryChargeAt (curve : Curve) (volts : ℚ) : Option ℚ :=
  match curve.points.head?, curve.points.getLast? with
  | some (low, bottom), some (high, top) =>
      if volts ≤ low then some bottom
      else if high ≤ volts then some top
      else do
        let above := partitionPoint (fun point => point.1 ≤ volts) curve.points
        guard (1 ≤ above)
        let (v0, c0) ← curve.points[above - 1]?
        let (v1, c1) ← curve.points[above]?
        guard (v1 - v0 ≠ 0)
        return c0 + (c1 - c0) * (volts - v0) / (v1 - v0)
  | _, _ => some 0

end Curve

namespace Document

/-- How long a full charge lasts, from full down to the floor. -/
def lasts (document : Document) : Span :=
  document.discharging.spanBetween document.floorCharge 1

/-- How long a full recharge takes, from the floor up to full, where a charging curve is held. -/
def recharge (document : Document) : Option Span :=
  let floor := document.floorCharge
  document.charging.map fun charging => charging.spanBetween floor 1

/-- What is reported at a voltage while discharging. -/
def reported (document : Document) (volts : ℚ) : ℚ :=
  document.report (document.discharging.chargeAt volts)

/-- The share of what lies between the floor and full that a charge is, below zero for a charge
below the floor's. -/
def share (document : Document) (charge : ℚ) : ℚ :=
  (charge - document.floorCharge) / (1 - document.floorCharge)

/-- What is reported is straight between two neighbouring points of the curve. -/
def Straight (document : Document) (p q : ℚ × ℚ) : Prop :=
  ∀ volts, p.1 ≤ volts → volts ≤ q.1 →
    document.reported volts =
      between (p.1, document.reported p.1) (q.1, document.reported q.1) volts

/-- What is reported follows the cell. -/
structure Follows (document : Document) : Prop where
  rises : Monotone document.reported
  within : ∀ volts, 0 ≤ document.reported volts ∧ document.reported volts ≤ 1
  empty : ∀ volts ≤ floorVolts, document.reported volts = 0
  full : ∀ p ∈ document.discharging.points.getLast?, ∀ volts, p.1 ≤ volts →
    document.reported volts = 1
  point : ∀ p ∈ document.discharging.points,
    document.reported p.1 = max 0 (document.share p.2)
  straight : ∀ p q, [p, q] <:+: document.discharging.points → floorVolts ≤ p.1 →
    document.Straight p q
  aboveFloor : ∀ p q, [p, q] <:+: document.discharging.points → p.1 ≤ floorVolts →
    floorVolts < q.1 → ∀ volts, floorVolts ≤ volts → volts ≤ q.1 →
      document.reported volts = between (floorVolts, 0) (q.1, document.reported q.1) volts

end Document

/-- A span is some curve's: neither its time nor its margin is below zero, and the margin is the
curve's error over the time. -/
structure Span.Of (span : Span) (curve : Curve) : Prop where
  duration : 0 ≤ span.duration
  margin : 0 ≤ span.margin
  error : span.margin = curve.error * span.duration

/-! ## Reading a curve -/

namespace Curve

variable {curve : Curve} {direction : Direction}

/-- No voltage reads out of a curve's bounds or divides by zero. -/
theorem tryChargeAt_eq (hrising : Rising curve.points) (volts : ℚ) :
    curve.tryChargeAt volts = some (curve.chargeAt volts) := by
  unfold tryChargeAt chargeAt
  rcases hpoints : curve.points with _ | ⟨first, rest⟩
  · rfl
  · rw [hpoints] at hrising
    obtain ⟨last, hlast⟩ : ∃ p, (first :: rest).getLast? = some p :=
      ⟨_, List.getLast?_eq_some_getLast (List.cons_ne_nil first rest)⟩
    rw [List.head?_cons, hlast]
    dsimp only
    by_cases hlow : volts ≤ first.1
    · rw [if_pos hlow, if_pos hlow]
    · rw [if_neg hlow, if_neg hlow]
      by_cases hhigh : last.1 ≤ volts
      · rw [if_pos hhigh, if_pos hhigh]
      · rw [if_neg hhigh, if_neg hhigh]
        have hbelow : first.1 ≤ volts := (not_le.mp hlow).le
        obtain ⟨p, q, hp, hq, -⟩ :=
          partition_cases hrising rfl hlast hbelow (not_le.mp hhigh)
        have habove : 1 ≤ partitionPoint (fun point => decide (point.1 ≤ volts)) (first :: rest) := by
          simp [partitionPoint, hbelow]
        have hwidth : q.1 - p.1 ≠ 0 := by
          rw [← Nat.sub_add_cancel habove] at hq
          exact (sub_pos.mpr (Interpolation.before_of_next hrising hp hq).1).ne'
        simp [hp, hq, habove, hwidth]

/-- A valid curve's spans are its own. -/
theorem Valid.spanBetween_of (hvalid : curve.Valid direction) (start stop : ℚ) :
    (curve.spanBetween start stop).Of curve := by
  have hduration : 0 ≤ curve.duration * |stop - start| :=
    mul_nonneg hvalid.duration.le (abs_nonneg _)
  exact ⟨hduration, mul_nonneg hvalid.error.1 hduration, rfl⟩

end Curve

/-! ## What is reported -/

namespace Document

variable {document : Document}

/-- With a floor below full, a charge is reported as its share, kept within a cell. -/
theorem report_eq (hfloor : document.floorCharge < 1) (charge : ℚ) :
    document.report charge = max 0 (min (document.share charge) 1) := by
  rw [report, if_neg (not_le.mpr hfloor)]
  rfl

/-- A charge up to full has a share up to the whole. -/
theorem share_le_one (hfloor : document.floorCharge < 1) {charge : ℚ} (hcharge : charge ≤ 1) :
    document.share charge ≤ 1 := by
  have hscale : 0 < 1 - document.floorCharge := sub_pos.mpr hfloor
  exact (div_le_one hscale).mpr (sub_le_sub_right hcharge _)

/-- A charge up to full is reported as its share, or as nothing below the floor's charge. -/
theorem report_of_le (hfloor : document.floorCharge < 1) {charge : ℚ} (hcharge : charge ≤ 1) :
    document.report charge = max 0 (document.share charge) := by
  rw [report_eq hfloor, min_eq_left (share_le_one hfloor hcharge)]

/-- A higher charge has no lower a share. -/
theorem share_mono (hfloor : document.floorCharge < 1) : Monotone document.share := by
  intro charge other hle
  have hscale : 0 < 1 - document.floorCharge := sub_pos.mpr hfloor
  unfold share
  gcongr

/-- A higher charge is reported no lower. -/
theorem report_mono (hfloor : document.floorCharge < 1) : Monotone document.report := by
  intro charge other hle
  rw [report_eq hfloor, report_eq hfloor]
  exact max_le_max le_rfl (min_le_min (share_mono hfloor hle) le_rfl)

/-- From the floor on, the charge at a voltage is reported as its share. -/
theorem reported_of_floor_le (hfloor : document.floorCharge < 1) {volts : ℚ}
    (hvolts : floorVolts ≤ volts) :
    document.reported volts = document.share (document.discharging.chargeAt volts) := by
  have hvalid := document.discharging_valid
  have habove : 0 ≤ document.share (document.discharging.chargeAt volts) :=
    div_nonneg (sub_nonneg.mpr (hvalid.chargeAt_mono hvolts)) (sub_nonneg.mpr hfloor.le)
  rw [reported, report_of_le hfloor (hvalid.chargeAt_mem volts).2, max_eq_right habove]

/-- Up to the floor nothing is reported. -/
theorem reported_of_le_floor (hfloor : document.floorCharge < 1) {volts : ℚ}
    (hvolts : volts ≤ floorVolts) : document.reported volts = 0 := by
  have hvalid := document.discharging_valid
  have hbelow : document.share (document.discharging.chargeAt volts) ≤ 0 :=
    div_nonpos_of_nonpos_of_nonneg (sub_nonpos.mpr (hvalid.chargeAt_mono hvolts))
      (sub_nonneg.mpr hfloor.le)
  rw [reported, report_of_le hfloor (hvalid.chargeAt_mem volts).2, max_eq_left hbelow]

/-- Full is reported as full. -/
theorem share_one (hfloor : document.floorCharge < 1) : document.share 1 = 1 :=
  div_self (sub_pos.mpr hfloor).ne'

/-- What is reported lies straight between two places of a stretch the charge is straight over,
from the floor on. -/
theorem reported_between (hfloor : document.floorCharge < 1) {p q : ℚ × ℚ} {volts : ℚ}
    (hp : floorVolts ≤ p.1) (hq : p.1 ≤ q.1) (hvolts : p.1 ≤ volts)
    (hat : p.2 = document.discharging.chargeAt p.1) (hto : q.2 = document.discharging.chargeAt q.1)
    (hstraight : document.discharging.chargeAt volts = between p q volts) :
    document.reported volts =
      between (p.1, document.reported p.1) (q.1, document.reported q.1) volts := by
  rw [reported_of_floor_le hfloor (hp.trans hvolts), reported_of_floor_le hfloor hp,
    reported_of_floor_le hfloor (hp.trans hq), hstraight, ← hat, ← hto]
  exact (Interpolation.between_scaled p q _ _ _).symm

/-- The charge is straight between neighbouring points of the curve. -/
theorem chargeAt_between {p q : ℚ × ℚ} (hnext : [p, q] <:+: document.discharging.points)
    {volts : ℚ} (hleft : p.1 ≤ volts) (hright : volts ≤ q.1) :
    document.discharging.chargeAt volts = between p q volts := by
  have hrising := document.discharging_valid.rising
  rw [Curve.chargeAt_eq hrising]
  exact Interpolation.interpolate_of_infix hrising hnext hleft hright

/-- With a floor below full, what is reported follows the cell. -/
theorem follows (hfloor : document.floorCharge < 1) : document.Follows where
  rises := (report_mono hfloor).comp document.discharging_valid.chargeAt_mono
  within volts := by
    rw [reported, report_eq hfloor]
    exact ⟨le_max_left _ _, max_le zero_le_one (min_le_right _ _)⟩
  empty volts hvolts := reported_of_le_floor hfloor hvolts
  full p hp volts hvolts := by
    have hvalid := document.discharging_valid
    obtain ⟨last, hlast, hhigh⟩ := hvalid.chargeAt_high
    obtain rfl : last = p := Option.some.inj (hlast.symm.trans hp)
    rw [reported, hhigh volts hvolts, (hvalid.spans rfl).last _ hlast, report_of_le hfloor le_rfl,
      share_one hfloor]
    exact max_eq_right zero_le_one
  point p hp := by
    have hvalid := document.discharging_valid
    rw [reported, hvalid.chargeAt_of_mem hp, report_of_le hfloor (hvalid.within p hp).2]
  straight p q hnext hp volts hleft hright := by
    have hvalid := document.discharging_valid
    have hmem : p ∈ document.discharging.points ∧ q ∈ document.discharging.points :=
      ⟨hnext.subset (by simp), hnext.subset (by simp)⟩
    exact reported_between hfloor hp (hleft.trans hright) hleft
      (hvalid.chargeAt_of_mem hmem.1).symm (hvalid.chargeAt_of_mem hmem.2).symm
      (chargeAt_between hnext hleft hright)
  aboveFloor p q hnext hp hq volts hleft hright := by
    have hvalid := document.discharging_valid
    have hmem : q ∈ document.discharging.points := hnext.subset (by simp)
    have hwidth : q.1 - p.1 ≠ 0 := (sub_pos.mpr (hp.trans_lt hq)).ne'
    have hbeyond : q.1 - floorVolts ≠ 0 := (sub_pos.mpr hq).ne'
    have hstraight : document.discharging.chargeAt volts =
        between (floorVolts, between p q floorVolts) q volts := by
      rw [Interpolation.between_from hwidth hbeyond]
      exact chargeAt_between hnext (hp.trans hleft) hright
    have hempty : document.reported floorVolts = 0 := reported_of_le_floor hfloor le_rfl
    rw [← hempty]
    exact reported_between (p := (floorVolts, between p q floorVolts)) hfloor le_rfl hq.le hleft
      (chargeAt_between hnext hp hq.le).symm (hvalid.chargeAt_of_mem hmem).symm hstraight

/-- What is reported of the discharging curve follows the cell, at every voltage and for every
document whose floor is below full; no voltage reads out of a curve or divides by zero; and the
spans are the curves' own. -/
theorem reported_follows (document : Document) :
    (document.floorCharge < 1 → document.Follows) ∧
      (∀ curve : Curve, Rising curve.points → ∀ volts,
        curve.tryChargeAt volts = some (curve.chargeAt volts)) ∧
      document.lasts.Of document.discharging ∧
      ∀ span ∈ document.recharge, ∃ charging ∈ document.charging, span.Of charging := by
  refine ⟨follows, fun curve hrising => Curve.tryChargeAt_eq hrising,
    document.discharging_valid.spanBetween_of _ _, ?_⟩
  intro span hspan
  obtain ⟨charging, hcharging, rfl⟩ := Option.mem_map.mp hspan
  exact ⟨charging, hcharging, (document.charging_valid charging hcharging).spanBetween_of _ _⟩

/-- The shipped curve's report follows the cell. -/
theorem reported_follows_shipped : shipped.Follows :=
  (reported_follows shipped).1 (by decide +kernel)

/-- A document of a curve with no point between its ends, either side of the floor. -/
def straightThrough : Document where
  discharging := { points := [(26 / 10, 0), (42 / 10, 1)], learntFrom := 0, error := 0, duration := 1 }
  charging := none
  discharging_valid := {
    two := by decide
    within := by decide +kernel
    rising := by decide +kernel
    spans := fun _ => ⟨by decide +kernel, by decide +kernel⟩
    error := by decide +kernel
    duration := by decide +kernel }
  charging_valid := charging_valid_none
  discharging_rounded := by decide +kernel
  charging_rounded := charging_rounded_none

/-- Between points either side of the floor what is reported is not straight. -/
theorem not_straight_between_neighbours :
    ¬∀ document : Document, document.floorCharge < 1 → ∀ p q,
      [p, q] <:+: document.discharging.points → document.Straight p q := by
  intro hstraight
  have hfloor := hstraight straightThrough (by decide +kernel) (26 / 10, 0) (42 / 10, 1)
    (List.infix_refl _) floorVolts (by decide +kernel) (by decide +kernel)
  exact absurd hfloor (by decide +kernel)

end Document

end Bliti.Facts.Power
