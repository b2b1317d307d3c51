import Bliti.Facts.Power.Learn.Taught
import Bliti.Text

/-!
# Refining the curves - what is learnt is kept

Putting a learnt curve in its place in the document, counting it, and bounding its error.

Main results:

- Theorem `teaches`: what a run or a charge teaches, the document takes, where a run from below
  full did not begin crowding the curve's top.
-/

namespace Bliti.Facts.Power

/-! ## Doubles in decimal -/

/-- A square root to nine places, from below. -/
def decimalSqrt (x : ℚ) : ℚ :=
  Nat.sqrt ⌊x * 10 ^ 18⌋.toNat / 10 ^ 9

/-- A number's text to four places, without trailing zeros. -/
def decimalText (x : ℚ) : String :=
  let scaled := ⌊|x| * 10 ^ 4⌋.toNat
  let digits := ((toString (10000 + scaled % 10000)).toList.drop 1).reverse.dropWhile (· == '0')
  (if x < 0 then "-" else "") ++ toString (scaled / 10000) ++
    (if digits.isEmpty then "" else "." ++ String.ofList digits.reverse)

/-- What doubles do, to the places a curve document keeps and more. -/
def Doubles.decimal : Doubles where
  sqrt := decimalSqrt
  display := decimalText

/-- The square root of what is at least one is at least one. -/
theorem one_le_decimalSqrt (x : ℚ) (hx : 1 ≤ x) : 1 ≤ decimalSqrt x := by
  have hscaled : ((10 ^ 18 : ℕ) : ℤ) ≤ ⌊x * 10 ^ 18⌋ := by
    rw [Int.le_floor]
    push_cast
    linarith
  have hroot : 10 ^ 9 ≤ Nat.sqrt ⌊x * 10 ^ 18⌋.toNat := by
    rw [Nat.le_sqrt']
    omega
  rw [decimalSqrt, le_div_iff₀ (by positivity), one_mul]
  exact_mod_cast hroot

namespace Learn

/-! ## What is learnt -/

section Teaches

variable (doubles : Doubles) (document : Document)

/-- The voltage a run began at, as smoothed. -/
def runBeganVolts (samples : List Sample) : Option ℚ :=
  (smoothed samples min).head?.map Prod.snd

/-- What a run teaches is a curve the document takes, learnt from one more, its error a share, and
above where a run from below full began, by more than the crowding, it keeps the old curve's
points. -/
def RunTeaches (fromFull : Bool) (samples : List Sample) : Prop :=
  ∀ curve, fromRun doubles document.discharging fromFull samples = .ok curve →
    (∃ next, Document.new doubles curve document.charging = .ok next) ∧
    curve.learntFrom.toNat = document.discharging.learntFrom.toNat + 1 ∧
    (0 ≤ curve.error ∧ curve.error ≤ 1) ∧
    (fromFull = false → ∀ began ∈ runBeganVolts samples, ∀ p ∈ document.discharging.points,
      began + crowdedVolts < p.1 → p ∈ curve.points)

/-- What a charge teaches is a curve the document takes, learnt from one more or from one, and its
error a share. -/
def ChargeTeaches (anchor : ℚ) (samples : List Sample) (ended : Duration) : Prop :=
  ∀ curve, fromCharge doubles document.charging anchor document.floorCharge samples ended =
      .ok curve →
    (∃ next, Document.new doubles document.discharging (some curve) = .ok next) ∧
    curve.learntFrom.toNat = (match document.charging with
      | none => 1
      | some old => old.learntFrom.toNat + 1) ∧
    (0 ≤ curve.error ∧ curve.error ≤ 1)

/-- A run from below full began below the curve's highest voltage, and by no more than the
crowding. -/
def CrowdsTop (fromFull : Bool) (samples : List Sample) : Prop :=
  fromFull = false ∧ ∃ began ∈ runBeganVolts samples,
    ∃ last ∈ document.discharging.points.getLast?,
      began < last.1 ∧ last.1 ≤ began + crowdedVolts

/-- As `RunTeaches`, for a run that does not crowd the curve's top, with the count going no further
than it holds. -/
structure RunTeachesClear (fromFull : Bool) (samples : List Sample) (curve : Curve) : Prop where
  taken : ¬CrowdsTop document fromFull samples →
    ∃ next, Document.new doubles curve document.charging = .ok next
  counted : curve.learntFrom.toNat = min (document.discharging.learntFrom.toNat + 1) 4294967295
  error : 0 ≤ curve.error ∧ curve.error ≤ 1
  above : fromFull = false → ∀ began ∈ runBeganVolts samples,
    ∀ p ∈ document.discharging.points, began + crowdedVolts < p.1 → p ∈ curve.points

/-- As `ChargeTeaches`, with the count going no further than it holds. -/
structure ChargeTeachesClear (curve : Curve) : Prop where
  taken : ∃ next, Document.new doubles document.discharging (some curve) = .ok next
  counted : curve.learntFrom.toNat = (match document.charging with
    | none => 1
    | some old => min (old.learntFrom.toNat + 1) 4294967295)
  error : 0 ≤ curve.error ∧ curve.error ≤ 1

end Teaches

section Kept

variable {doubles : Doubles} {document : Document} {samples : List Sample} {curve : Curve}

/-- What a run teaches is kept. -/
theorem runTeachesClear (htimes : samples.IsChain fun p q => p.1 ≤ q.1) {fromFull : Bool}
    (hok : fromRun doubles document.discharging fromFull samples = .ok curve) :
    RunTeachesClear doubles document fromFull samples curve := by
  have hvalid := document.discharging_valid
  obtain ⟨last, hlast, hhigh⟩ := hvalid.chargeAt_high
  obtain ⟨began, kept, hbegan, hpoints, -⟩ :=
    fromRun_points hvalid document.discharging_rounded hlast htimes hok
  obtain ⟨_, _, _, _, _, -, -, -, -, -, hcurve⟩ := fromRun_ok hok
  have hvolts : runBeganVolts samples = some began.2 := by rw [runBeganVolts, hbegan]; rfl
  refine ⟨?_, ?_, ?_, ?_⟩
  · intro hclear
    rw [fromRun_new_iff hlast htimes hok hbegan]
    cases fromFull with
    | true => exact .inl rfl
    | false =>
        refine .inr ?_
        rcases lt_or_ge began.2 last.1 with hbelow | habove
        · refine .inl (not_le.mp fun hcrowds => hclear ⟨rfl, ?_⟩)
          exact ⟨began.2, hvolts, last, hlast, hbelow, hcrowds⟩
        · refine .inr ?_
          rw [hhigh _ habove, (hvalid.spans rfl).last last hlast]
          exact Rounding.toPlaces_one places
  · rw [hcurve, toNat_oneMore]
  · rw [hcurve]
    exact clamp_mem _
  · rintro rfl volts hstart p hp hbeyond
    rw [hvolts, Option.mem_some_iff] at hstart
    subst hstart
    rw [hpoints]
    refine List.mem_append_right _ (List.mem_filter.mpr ⟨hp, ?_⟩)
    simpa [refinedTo] using hbeyond

/-- What a charge teaches is kept. -/
theorem chargeTeachesClear (hsqrt : ∀ x, 1 ≤ x → 1 ≤ doubles.sqrt x) {anchor : ℚ}
    (hanchor : 0 ≤ anchor) {ended : Duration}
    (hok : fromCharge doubles document.charging anchor document.floorCharge samples ended =
      .ok curve) :
    ChargeTeachesClear doubles document curve := by
  have hcurve := fromCharge_valid hsqrt document.charging_valid document.charging_rounded hanchor
    (document.discharging_valid.chargeAt_mem floorVolts).2 hok
  obtain ⟨_, _, _, _, _, _, -, -, -, -, -, hmade⟩ := fromCharge_ok hok
  refine ⟨?_, ?_, ?_⟩
  · rw [Document.exists_new_iff, document.discharging_rounded]
    refine ⟨document.discharging_valid, ?_⟩
    rintro held ⟨⟩
    exact hcurve
  · cases hheld : document.charging with
    | none =>
        rw [hheld] at hmade
        rw [hmade]
        rfl
    | some old =>
        rw [hheld] at hmade
        rw [hmade]
        exact toNat_oneMore old.learntFrom
  · cases hheld : document.charging with
    | none =>
        rw [hheld] at hmade
        rw [hmade]
        exact unmeasuredError_mem hsqrt 1
    | some old =>
        rw [hheld] at hmade
        rw [hmade]
        exact clamp_mem _

/-- What a run or a charge teaches is a curve the document takes, where a run from below full did
not begin crowding the curve's top; it is counted, its error is a share, and above where a run from
below full began the old curve's points are kept. -/
theorem teaches (hsqrt : ∀ x, 1 ≤ x → 1 ≤ doubles.sqrt x) (document : Document)
    (htimes : samples.IsChain fun p q => p.1 ≤ q.1) :
    (∀ fromFull curve, fromRun doubles document.discharging fromFull samples = .ok curve →
      RunTeachesClear doubles document fromFull samples curve) ∧
    ∀ anchor ended curve, 0 ≤ anchor →
      fromCharge doubles document.charging anchor document.floorCharge samples ended = .ok curve →
      ChargeTeachesClear doubles document curve := by
  constructor
  · intro fromFull curve hok
    exact runTeachesClear htimes hok
  · intro anchor ended curve hanchor hok
    exact chargeTeachesClear hsqrt hanchor hok

end Kept

/-! ## A run that crowds the top -/

/-- Two hours on battery from just short of the top, to below the floor. -/
def topDown : List Sample :=
  [(0, 41975 / 10000), (secs 10, 41975 / 10000), (secs 20, 41975 / 10000),
    (secs 30, 41975 / 10000), (secs 3600, 3), (secs 7200, 279 / 100), (secs 7210, 279 / 100),
    (secs 7220, 279 / 100), (secs 7230, 279 / 100)]

/-- The shipped curve, learnt from as many runs as the count holds. -/
def countedOut : Document where
  discharging := { Document.shipped.discharging with learntFrom := 4294967295 }
  charging := none
  discharging_valid := Document.shipped.discharging_valid.of_points rfl rfl rfl
  charging_valid := Document.charging_valid_none
  discharging_rounded := by decide +kernel
  charging_rounded := Document.charging_rounded_none

/-- What is learnt from a run that began just short of the top is thrown away, and a full count
stays as it is. -/
theorem not_teaches :
    (topDown.IsChain fun p q => p.1 < q.1) ∧ (∀ sample ∈ topDown, 0 < sample.2) ∧
      ¬RunTeaches .decimal .shipped false topDown ∧ ¬RunTeaches .decimal countedOut true topDown := by
  have htimes : topDown.IsChain fun p q => p.1 ≤ q.1 := by decide
  refine ⟨by decide, by decide +kernel, fun hteaches => ?_, fun hteaches => ?_⟩
  · have htaught : (fromRun .decimal Document.shipped.discharging false topDown).isOk := by
      decide +kernel
    rcases hrun : fromRun .decimal Document.shipped.discharging false topDown with why | curve
    · rw [hrun] at htaught
      cases htaught
    · have hlast : Document.shipped.discharging.points.getLast? = some (42 / 10, 1) := rfl
      have hbegan : (smoothed topDown min).head? = some (0, 41975 / 10000) := by decide +kernel
      have hkept := (fromRun_new_iff hlast htimes hrun hbegan).mp (hteaches curve hrun).1
      revert hkept
      decide +kernel
  · have htaught : (fromRun .decimal countedOut.discharging true topDown).isOk := by
      decide +kernel
    rcases hrun : fromRun .decimal countedOut.discharging true topDown with why | curve
    · rw [hrun] at htaught
      cases htaught
    · obtain ⟨-, hcounted, -⟩ := hteaches curve hrun
      obtain ⟨_, _, _, _, _, -, -, -, -, -, hcurve⟩ := fromRun_ok hrun
      rw [hcurve, toNat_oneMore] at hcounted
      revert hcounted
      decide

/-- A run from full teaches a curve the document takes. -/
theorem teaches_topDown :
    ∃ curve, fromRun .decimal Document.shipped.discharging true topDown = .ok curve ∧
      RunTeachesClear .decimal .shipped true topDown curve := by
  have htimes : topDown.IsChain fun p q => p.1 ≤ q.1 := by decide
  have htaught : (fromRun .decimal Document.shipped.discharging true topDown).isOk := by
    decide +kernel
  rcases hrun : fromRun .decimal Document.shipped.discharging true topDown with why | curve
  · rw [hrun] at htaught
    cases htaught
  · exact ⟨curve, rfl, (teaches one_le_decimalSqrt .shipped htimes).1 true curve hrun⟩

end Learn

end Bliti.Facts.Power
