import Bliti.Facts.Power.Learn.Points

/-!
# Refining the curves - whether what is learnt can be kept

A run refines the discharging curve between the floor and where it began, and a charge the charging
curve.  Whether the result is a curve the document takes.
-/

namespace Bliti.Facts.Power.Learn

open Interpolation (Before Rising)

/-! ## Weights -/

/-- The weight of a run or charge is a share. -/
theorem weight_mem (learntFrom : UInt32) : 0 < weight learntFrom ∧ weight learntFrom ≤ 1 := by
  constructor
  · exact lt_of_lt_of_le (by norm_num [recent]) (le_max_right _ _)
  · refine max_le ?_ (by norm_num [recent])
    rw [div_le_one (by positivity)]
    linarith [Nat.cast_nonneg (α := ℚ) learntFrom.toNat]

/-- A share covered is one. -/
theorem share_mem {part whole : ℚ} (hpart : 0 ≤ part) (hwhole : 0 ≤ whole) :
    0 ≤ share part whole ∧ share part whole ≤ 1 := by
  unfold share
  split
  · exact ⟨zero_le_one, le_rfl⟩
  · exact ⟨le_min (div_nonneg hpart hwhole) zero_le_one, min_le_right _ _⟩

/-- A blend of figures none above a bound is not above it. -/
theorem blend_le {old new w bound : ℚ} (hw : 0 ≤ w ∧ w ≤ 1) (hold : old ≤ bound)
    (hnew : new ≤ bound) : blend old new w ≤ bound := by
  have hkept := mul_le_mul_of_nonneg_right hold (sub_nonneg.mpr hw.2)
  have htaken := mul_le_mul_of_nonneg_right hnew hw.1
  unfold blend
  linarith

/-- A blend of figures none below a bound is not below it. -/
theorem le_blend {old new w bound : ℚ} (hw : 0 ≤ w ∧ w ≤ 1) (hold : bound ≤ old)
    (hnew : bound ≤ new) : bound ≤ blend old new w := by
  have hkept := mul_le_mul_of_nonneg_right hold (sub_nonneg.mpr hw.2)
  have htaken := mul_le_mul_of_nonneg_right hnew hw.1
  unfold blend
  linarith

@[simp]
theorem blend_self (x w : ℚ) : blend x x w = x := by
  unfold blend
  ring

/-- A duration that is held rounded is at least one in its last place. -/
theorem one_le_duration {curve : Curve} {direction : Direction} (hvalid : curve.Valid direction)
    (hrounded : curve.rounded = curve) : 1 ≤ curve.duration * 10 ^ places :=
  Rounding.one_le_of_toPlaces (congrArg Curve.duration hrounded) hvalid.duration

/-- A duration blended with one of a shortest run or longer rounds to something. -/
theorem one_le_blend {old new w : ℚ} (hw : 0 ≤ w ∧ w ≤ 1) (hold : 1 ≤ old * 10 ^ places)
    (hnew : asSecs shortest ≤ new) : 1 ≤ blend old new w * 10 ^ places := by
  have hlong : (600 : ℚ) ≤ new := by
    refine le_trans ?_ hnew
    norm_num [asSecs, shortest, secs]
  have hscaled : blend old new w * 10 ^ places =
      blend (old * 10 ^ places) (new * 10 ^ places) w := by
    unfold blend
    ring
  rw [hscaled]
  refine le_blend hw hold ?_
  norm_num [places]
  linarith

/-- The count after one more run or charge is one more, up to the most it holds. -/
theorem toNat_oneMore (learntFrom : UInt32) :
    (oneMore learntFrom).toNat = min (learntFrom.toNat + 1) 4294967295 := by
  rw [oneMore, UInt32.toNat_ofNat']
  exact Nat.mod_eq_of_lt (by omega)

/-! ## A run that teaches -/

section Run

variable {doubles : Doubles} {old curve : Curve} {fromFull : Bool} {samples : List Sample}

/-- A run that teaches reached the floor, took long enough, crossed enough of the voltages and of
the scale, and gives the points it refines, kept from falling. -/
theorem fromRun_ok (hok : fromRun doubles old fromFull samples = .ok curve) :
    ∃ start beganVolts rest ended error,
      smoothed samples min = (start, beganVolts) :: rest ∧
      crossed (smoothed samples min) floorVolts fallen = some ended ∧
      asSecs shortest ≤ ended - start ∧ narrowestVolts ≤ beganVolts - floorVolts ∧
      narrowestCharge ≤ runBegan old fromFull beganVolts - old.chargeAt floorVolts ∧
      curve = {
        points := monotone (runPoints old fromFull beganVolts
          (runObserved old fromFull start beganVolts ended (smoothed samples min)))
        learntFrom := oneMore old.learntFrom
        error := clamp error
        duration := blend old.duration
          ((ended - start) / (runBegan old fromFull beganVolts - old.chargeAt floorVolts))
          (weight old.learntFrom *
            share (runBegan old fromFull beganVolts - old.chargeAt floorVolts)
              (1 - old.chargeAt floorVolts)) } := by
  unfold fromRun at hok
  dsimp only at hok
  split at hok
  · cases hok
  · rename_i start beganVolts rest hsmoothed
    split at hok
    · cases hok
    · rename_i ended hended
      split_ifs at hok with hshort hnarrow
      rw [not_or, not_lt, not_lt] at hnarrow
      rw [not_lt] at hshort
      cases hok
      exact ⟨start, beganVolts, rest, ended, _, hsmoothed, hended, hshort, hnarrow.1, hnarrow.2,
        rfl⟩

section Observed

variable {start beganVolts ended : ℚ} {rest : List (ℚ × ℚ)}

/-- A run shows no charge above the one it began at. -/
theorem observed_le (htimes : ((start, beganVolts) :: rest).IsChain fun p q => p.1 ≤ q.1)
    (hspan : start < ended) (hbegan : old.chargeAt floorVolts ≤ runBegan old fromFull beganVolts)
    (volts : ℚ) :
    runObserved old fromFull start beganVolts ended ((start, beganVolts) :: rest) volts ≤
      runBegan old fromFull beganVolts := by
  unfold runObserved
  split
  · rename_i t hcrossed
    have hafter : start ≤ t := start_le_crossed htimes hcrossed
    have hfraction : (ended - t) / (ended - start) ≤ 1 := by
      rw [div_le_one (sub_pos.mpr hspan)]
      linarith
    have hgiven := mul_le_mul_of_nonneg_left hfraction (sub_nonneg.mpr hbegan)
    rw [runShown, mul_div_assoc]
    linarith
  · exact le_rfl

/-- A run shows the charge it began at from the voltage it began at. -/
theorem observed_of_began (hspan : start < ended) {volts : ℚ} (hle : beganVolts ≤ volts) :
    runObserved old fromFull start beganVolts ended ((start, beganVolts) :: rest) volts =
      runBegan old fromFull beganVolts := by
  have hreached : fallen (start, beganVolts).2 volts = true := by simpa [fallen] using hle
  have hwhole : ended - start ≠ 0 := (sub_pos.mpr hspan).ne'
  rw [runObserved, crossed_of_reached hreached]
  dsimp only [runShown]
  rw [mul_div_assoc, div_self hwhole]
  ring

/-- A run shows the curve's charge at the floor there. -/
theorem observed_floor {smoothed : List (ℚ × ℚ)}
    (hended : crossed smoothed floorVolts fallen = some ended) :
    runObserved old fromFull start beganVolts ended smoothed floorVolts =
      old.chargeAt floorVolts := by
  rw [runObserved, hended]
  simp [runShown]

end Observed

/-! ## The points a run refines -/

section Points

variable {direction : Direction} {last : ℚ × ℚ} {beganVolts : ℚ} {observed : ℚ → ℚ}

/-- The voltage a run refines the curve up to. -/
def refinedTo (fromFull : Bool) (last : ℚ × ℚ) (beganVolts : ℚ) : ℚ :=
  if fromFull then max last.1 beganVolts else beganVolts

/-- The points of the old curve below the floor. -/
def below (old : Curve) : List (ℚ × ℚ) :=
  old.points.filter fun point => point.1 < floorVolts

/-- The points of the grid, blended. -/
def refined (old : Curve) (top : ℚ) (observed : ℚ → ℚ) : List (ℚ × ℚ) :=
  (grid floorVolts top).map fun volts =>
    (volts, blend (old.chargeAt volts) (observed volts) (weight old.learntFrom))

/-- The points of the old curve above the grid. -/
def above (old : Curve) (top : ℚ) : List (ℚ × ℚ) :=
  old.points.filter fun point => top + crowdedVolts < point.1

/-- A valid curve's voltages rise. -/
theorem pairwise_points (hvalid : old.Valid direction) :
    old.points.Pairwise Before :=
  List.isChain_iff_pairwise.mp hvalid.rising

/-- No point of a valid curve is at a higher voltage than its last. -/
theorem le_last (hvalid : old.Valid direction) (hlast : old.points.getLast? = some last)
    {p : ℚ × ℚ} (hp : p ∈ old.points) : p.1 ≤ last.1 := by
  obtain ⟨front, hfront⟩ := List.getLast?_eq_some_iff.mp hlast
  have hpairwise := pairwise_points hvalid
  rw [hfront] at hp hpairwise
  rcases List.mem_append.mp hp with hearlier | hsame
  · exact ((List.pairwise_append.mp hpairwise).2.2 p hearlier last
      (List.mem_singleton_self last)).1.le
  · rw [List.mem_singleton.mp hsame]

/-- The points a run refines are the curve's below the floor, the grid's and the curve's above. -/
theorem runPoints_eq (hvalid : old.Valid direction) (hlast : old.points.getLast? = some last)
    (fromFull : Bool) (beganVolts : ℚ) (observed : ℚ → ℚ) :
    runPoints old fromFull beganVolts observed =
      below old ++ refined old (refinedTo fromFull last beganVolts) observed ++
        above old (refinedTo fromFull last beganVolts) := by
  have habove : ∀ top, last.1 ≤ top → above old top = [] := by
    intro top hle
    refine List.filter_eq_nil_iff.mpr fun p hp => ?_
    have hbelow := le_last hvalid hlast hp
    have hcrowded : 0 < crowdedVolts := by norm_num [crowdedVolts]
    rw [decide_eq_true_eq, not_lt]
    linarith
  unfold runPoints
  rw [hlast]
  cases fromFull with
  | true =>
      have hnone : (old.points.filter fun point =>
          decide (max last.1 beganVolts + crowdedVolts < point.1) &&
            decide (point.1 ≤ max last.1 beganVolts)) = [] := by
        refine List.filter_eq_nil_iff.mpr fun p hp => ?_
        have hcrowded : 0 < crowdedVolts := by norm_num [crowdedVolts]
        rw [Bool.and_eq_true, decide_eq_true_eq, decide_eq_true_eq]
        rintro ⟨hbeyond, hwithin⟩
        linarith
      simp only [if_true, hnone, refinedTo, habove _ (le_max_left _ _)]
      rfl
  | false =>
      have hall : (old.points.filter fun point => decide (beganVolts + crowdedVolts < point.1) &&
          decide (point.1 ≤ last.1)) = above old beganVolts := by
        refine List.filter_congr fun p hp => ?_
        rw [decide_eq_true (le_last hvalid hlast hp), Bool.and_true]
      simp only [Bool.false_eq_true, if_false, hall, refinedTo]
      rfl

/-- Points of a rounded curve at different voltages stay apart. -/
theorem apart_of_mem (hrounded : old.rounded = old) {p q : ℚ × ℚ} (hp : p ∈ old.points)
    (hq : q ∈ old.points) (hlt : p.1 < q.1) : Apart p.1 q.1 := by
  rw [Apart, (Curve.round_of_mem hrounded hp).1, (Curve.round_of_mem hrounded hq).1]
  exact hlt

/-- The floor rounds to itself. -/
theorem round_floorVolts : round floorVolts places = floorVolts :=
  Rounding.toPlaces_of_scaled (n := 28000) (by norm_num [floorVolts, places])

/-- The points a run refines stay apart once rounded. -/
theorem runPoints_apart (hvalid : old.Valid direction) (hrounded : old.rounded = old) {top : ℚ}
    (hwide : floorVolts + crowdedVolts < top) :
    ((below old ++ refined old top observed ++ above old top).map Prod.fst).Pairwise Apart := by
  have hold : old.points.Pairwise fun p q => Apart p.1 q.1 :=
    (pairwise_points hvalid).imp_of_mem fun hp hq h => apart_of_mem hrounded hp hq h.1
  have hunder : ∀ p ∈ below old, ∀ volts, floorVolts ≤ volts → Apart p.1 volts := by
    intro p hp volts hle
    obtain ⟨hmem, hlow⟩ := List.mem_filter.mp hp
    rw [decide_eq_true_eq] at hlow
    refine Apart.trans_le (b := floorVolts) ?_ hle
    rw [Apart, (Curve.round_of_mem hrounded hmem).1, round_floorVolts]
    exact hlow
  have hover : ∀ p ∈ above old top, top + crowdedVolts < p.1 := by
    intro p hp
    simpa using (List.mem_filter.mp hp).2
  have hgrid : ∀ p ∈ refined old top observed, floorVolts ≤ p.1 ∧ p.1 ≤ top := by
    intro p hp
    obtain ⟨volts, hvolts, rfl⟩ := List.mem_map.mp hp
    exact mem_grid hwide hvolts
  have hcrowded : 0 < crowdedVolts := by norm_num [crowdedVolts]
  rw [List.pairwise_map, List.pairwise_append, List.pairwise_append]
  refine ⟨⟨hold.filter _, ?_, ?_⟩, hold.filter _, ?_⟩
  · rw [refined, List.pairwise_map]
    exact (grid_pairwise floorVolts top).imp Apart.of_crowded
  · intro p hp q hq
    exact hunder p hp q.1 (hgrid q hq).1
  · intro p hp q hq
    have hbeyond := hover q hq
    rcases List.mem_append.mp hp with hbelow | hrefined
    · exact hunder p hbelow q.1 (by linarith)
    · exact Apart.of_crowded (by linarith [(hgrid p hrefined).2])

/-- The points a run refines begin at nothing, at or below the floor. -/
theorem head_runPoints (hvalid : old.Valid .discharging) (top : ℚ)
    (hfloor : observed floorVolts = old.chargeAt floorVolts) :
    ∃ p, (below old ++ refined old top observed ++ above old top).head? = some p ∧
      p.1 ≤ floorVolts ∧ p.2 = 0 := by
  obtain ⟨first, hfirst, hlow⟩ := hvalid.chargeAt_low
  obtain ⟨hzero, hbelow⟩ := (hvalid.spans rfl).first first hfirst
  obtain ⟨rest, hpoints⟩ : ∃ rest, old.points = first :: rest :=
    ⟨_, List.eq_cons_of_mem_head? hfirst⟩
  rcases hbelow.lt_or_eq with hlt | heq
  · refine ⟨first, ?_, hbelow, hzero⟩
    simp [below, hpoints, hlt]
  · have hnone : below old = [] := by
      refine List.filter_eq_nil_iff.mpr fun p hp => ?_
      rw [hpoints] at hp
      have hrising := hvalid.rising
      rw [hpoints] at hrising
      rw [decide_eq_true_eq, not_lt, ← heq]
      exact Interpolation.place_le_of_mem hrising hp
    refine ⟨(floorVolts, blend (old.chargeAt floorVolts) (observed floorVolts)
      (weight old.learntFrom)), ?_, le_rfl, ?_⟩
    · rw [hnone, List.nil_append, refined, List.head?_append, List.head?_map, head_grid]
      rfl
    · rw [hfloor, blend_self, ← heq, hlow first.1 le_rfl, hzero]

/-- No charge of a run's points up to where it refines the curve is above the charge there. -/
theorem peak_le_chargeAt (hvalid : old.Valid direction) {top : ℚ}
    (hwide : floorVolts + crowdedVolts < top)
    (hobserved : ∀ volts, observed volts ≤ old.chargeAt top) :
    peak 0 (below old ++ refined old top observed) ≤ old.chargeAt top := by
  have htop := hvalid.chargeAt_mem top
  have hcrowded : 0 < crowdedVolts := by norm_num [crowdedVolts]
  refine peak_le htop.1 fun p hp => ?_
  rw [← clamp_of_mem htop]
  refine clamp_mono ?_
  rcases List.mem_append.mp hp with hbelow | hrefined
  · obtain ⟨hmem, hlow⟩ := List.mem_filter.mp hbelow
    rw [decide_eq_true_eq] at hlow
    rw [← hvalid.chargeAt_of_mem hmem]
    exact hvalid.chargeAt_mono (by linarith)
  · obtain ⟨volts, hvolts, rfl⟩ := List.mem_map.mp hrefined
    have hw := weight_mem old.learntFrom
    exact blend_le ⟨hw.1.le, hw.2⟩ (hvalid.chargeAt_mono (mem_grid hwide hvolts).2)
      (hobserved volts)

/-- The points above where a run refines the curve are as they were. -/
theorem monotone_runPoints (hvalid : old.Valid direction) {top : ℚ}
    (hwide : floorVolts + crowdedVolts < top)
    (hobserved : ∀ volts, observed volts ≤ old.chargeAt top) :
    monotone (below old ++ refined old top observed ++ above old top) =
      monotone (below old ++ refined old top observed) ++ above old top := by
  have hcrowded : 0 < crowdedVolts := by norm_num [crowdedVolts]
  rw [monotone, monotoneFrom_append]
  congr 1
  refine monotoneFrom_eq ?_ ?_ ?_
  · exact ((pairwise_points hvalid).imp fun h => h.2).filter _
  · intro p hp
    exact hvalid.within p (List.mem_filter.mp hp).1
  · intro p hp
    obtain ⟨hmem, hover⟩ := List.mem_filter.mp hp
    rw [decide_eq_true_eq] at hover
    calc _ ≤ old.chargeAt top := peak_le_chargeAt hvalid hwide hobserved
      _ ≤ old.chargeAt p.1 := hvalid.chargeAt_mono (by linarith)
      _ = p.2 := hvalid.chargeAt_of_mem hmem

/-- Kept from falling, points up to where a run refines the curve end at the charge there. -/
theorem getLast_refined (hvalid : old.Valid direction) {top : ℚ}
    (hwide : floorVolts + crowdedVolts < top)
    (hobserved : ∀ volts, observed volts ≤ old.chargeAt top)
    (htop : observed top = old.chargeAt top) :
    (monotone (below old ++ refined old top observed)).getLast? =
      some (top, old.chargeAt top) := by
  obtain ⟨front, hfront⟩ := List.getLast?_eq_some_iff.mp (getLast_grid hwide)
  have hpoints : below old ++ refined old top observed =
      (below old ++ front.map fun volts =>
        (volts, blend (old.chargeAt volts) (observed volts) (weight old.learntFrom))) ++
        [(top, old.chargeAt top)] := by
    simp [refined, hfront, htop]
  have hpeak := peak_le_chargeAt hvalid hwide hobserved
  rw [hpoints] at hpeak ⊢
  rw [peak, List.foldl_append, ← peak] at hpeak
  rw [monotone, monotoneFrom_append, List.getLast?_append]
  have hclamp := clamp_of_mem (hvalid.chargeAt_mem top)
  have hsame : max (peak 0 (below old ++ front.map fun volts =>
      (volts, blend (old.chargeAt volts) (observed volts) (weight old.learntFrom))))
      (clamp (old.chargeAt top)) = old.chargeAt top := by
    refine le_antisymm hpeak ?_
    rw [hclamp]
    exact le_max_right _ _
  simp only [monotoneFrom, hsame]
  rfl

/-- Points kept from falling begin where they did, at nothing where they did. -/
theorem head_monotone {points : List (ℚ × ℚ)} {p : ℚ × ℚ} (hhead : points.head? = some p)
    (hzero : p.2 = 0) : (monotone points).head? = some p := by
  obtain ⟨volts, charge⟩ := p
  obtain ⟨rest, rfl⟩ : ∃ rest, points = (volts, charge) :: rest :=
    ⟨_, List.eq_cons_of_mem_head? hhead⟩
  simp only at hzero
  subst hzero
  simp [monotone, monotoneFrom, clamp]

/-- Where the old curve goes on above where a run refines it, it ends as it did. -/
theorem getLast_above {top : ℚ} (hlast : old.points.getLast? = some last)
    (hbeyond : top + crowdedVolts < last.1) : (above old top).getLast? = some last := by
  obtain ⟨front, hfront⟩ := List.getLast?_eq_some_iff.mp hlast
  simp [above, hfront, List.filter_append, hbeyond]

/-- Where it does not, none of it is kept above. -/
theorem above_eq_nil (hvalid : old.Valid direction) {top : ℚ}
    (hlast : old.points.getLast? = some last) (hbeyond : ¬top + crowdedVolts < last.1) :
    above old top = [] := by
  refine List.filter_eq_nil_iff.mpr fun p hp => ?_
  have hle := le_last hvalid hlast hp
  rw [decide_eq_true_eq, not_lt]
  linarith [not_lt.mp hbeyond]

/-- A run begins at the curve's charge at the voltage it refines the curve up to. -/
theorem runBegan_eq (hvalid : old.Valid .discharging) (hlast : old.points.getLast? = some last)
    (fromFull : Bool) (beganVolts : ℚ) :
    runBegan old fromFull beganVolts = old.chargeAt (refinedTo fromFull last beganVolts) := by
  cases fromFull with
  | false => rfl
  | true =>
      obtain ⟨p, hp, hhigh⟩ := hvalid.chargeAt_high
      obtain rfl : p = last := Option.some.inj (hp.symm.trans hlast)
      exact ((hhigh _ (le_max_left _ _)).trans ((hvalid.spans rfl).last p hlast)).symm

end Points

/-- What a run that teaches refines: the points as they are kept, the curve's own above where it
refines them, beginning at nothing and ending, up to there, at the charge there. -/
theorem fromRun_points (hvalid : old.Valid .discharging) (hrounded : old.rounded = old)
    {last : ℚ × ℚ} (hlast : old.points.getLast? = some last)
    (htimes : samples.IsChain fun p q => p.1 ≤ q.1)
    (hok : fromRun doubles old fromFull samples = .ok curve) :
    ∃ began kept, (smoothed samples min).head? = some began ∧
      curve.points = kept ++ above old (refinedTo fromFull last began.2) ∧
      kept.getLast? = some (refinedTo fromFull last began.2,
        old.chargeAt (refinedTo fromFull last began.2)) ∧
      (∃ p, curve.points.head? = some p ∧ p.1 ≤ floorVolts ∧ p.2 = 0) ∧
      curve.rounded.Valid .charging := by
  obtain ⟨start, beganVolts, rest, ended, error, hsmoothed, hended, hlong, hfar, hcovers, rfl⟩ :=
    fromRun_ok hok
  have hchain := isChain_smoothed htimes min
  rw [hsmoothed] at hchain hended
  have hspan : start < ended := by
    have hsome : 0 < asSecs shortest := by norm_num [asSecs, shortest, secs]
    linarith
  have hnarrow : 0 < narrowestCharge := by norm_num [narrowestCharge]
  have hbegan := runBegan_eq hvalid hlast fromFull beganVolts
  have hle : beganVolts ≤ refinedTo fromFull last beganVolts := by
    cases fromFull with
    | false => exact le_rfl
    | true => exact le_max_right _ _
  have hwide : floorVolts + crowdedVolts < refinedTo fromFull last beganVolts := by
    have hcrowded : crowdedVolts < narrowestVolts := by norm_num [crowdedVolts, narrowestVolts]
    linarith
  have hobserved : ∀ volts, runObserved old fromFull start beganVolts ended
      ((start, beganVolts) :: rest) volts ≤ old.chargeAt (refinedTo fromFull last beganVolts) := by
    intro volts
    rw [← hbegan]
    exact observed_le hchain hspan (by linarith) volts
  have htop : runObserved old fromFull start beganVolts ended ((start, beganVolts) :: rest)
      (refinedTo fromFull last beganVolts) = runBegan old fromFull beganVolts :=
    observed_of_began hspan hle
  rw [hbegan] at htop
  have hfloor : runObserved old fromFull start beganVolts ended ((start, beganVolts) :: rest)
      floorVolts = old.chargeAt floorVolts :=
    observed_floor hended
  have hpoints := runPoints_eq hvalid hlast fromFull beganVolts
    (runObserved old fromFull start beganVolts ended ((start, beganVolts) :: rest))
  rw [hsmoothed, hpoints]
  refine ⟨(start, beganVolts), monotone (below old ++ refined old
    (refinedTo fromFull last beganVolts) (runObserved old fromFull start beganVolts ended
      ((start, beganVolts) :: rest))), by rfl, ?_, ?_, ?_, ?_⟩
  · exact monotone_runPoints hvalid hwide hobserved
  · exact getLast_refined hvalid hwide hobserved htop
  · obtain ⟨p, hp, hbelow, hzero⟩ := head_runPoints hvalid
      (refinedTo fromFull last beganVolts) hfloor
    exact ⟨p, head_monotone hp hzero, hbelow, hzero⟩
  · have hgrid : 2 ≤ (refined old (refinedTo fromFull last beganVolts)
        (runObserved old fromFull start beganVolts ended
          ((start, beganVolts) :: rest))).length := by
      rw [refined, List.length_map]
      simp [grid, hwide]
    have hpart : 0 ≤ runBegan old fromFull beganVolts - old.chargeAt floorVolts := by linarith
    have hshare := share_mem hpart (sub_nonneg.mpr (hvalid.chargeAt_mem floorVolts).2)
    have hw := weight_mem old.learntFrom
    refine valid_of_points ?_ (runPoints_apart hvalid hrounded hwide) (clamp_mem _) ?_
    · simp only [List.length_append]
      omega
    · refine one_le_blend ⟨mul_nonneg hw.1.le hshare.1, ?_⟩ (one_le_duration hvalid hrounded) ?_
      · exact mul_le_one₀ hw.2 hshare.1 hshare.2
      · refine hlong.trans ?_
        rw [le_div_iff₀ (by linarith)]
        have hpart : runBegan old fromFull beganVolts - old.chargeAt floorVolts ≤ 1 := by
          rw [hbegan]
          have h1 := (hvalid.chargeAt_mem (refinedTo fromFull last beganVolts)).2
          have h2 := (hvalid.chargeAt_mem floorVolts).1
          linarith
        exact mul_le_of_le_one_right (sub_pos.mpr hspan).le hpart

/-- A curve valid as a charging one is valid as any that spans the scale. -/
theorem valid_of_spans (hvalid : curve.Valid .charging) (hspans : curve.Spans) :
    curve.Valid .discharging where
  two := hvalid.two
  within := hvalid.within
  rising := hvalid.rising
  spans := fun _ => hspans
  error := hvalid.error
  duration := hvalid.duration

/-- What a run teaches is a curve the document takes exactly where the run began from full, below
the curve's top by more than the crowding, or where the curve's charge rounds to full. -/
theorem fromRun_new_iff {document : Document} {last : ℚ × ℚ}
    (hlast : document.discharging.points.getLast? = some last)
    (htimes : samples.IsChain fun p q => p.1 ≤ q.1)
    (hok : fromRun doubles document.discharging fromFull samples = .ok curve) {began : ℚ × ℚ}
    (hbegan : (smoothed samples min).head? = some began) :
    (∃ next, Document.new doubles curve document.charging = .ok next) ↔
      fromFull = true ∨ began.2 + crowdedVolts < last.1 ∨
        round (document.discharging.chargeAt began.2) places = 1 := by
  have hvalid := document.discharging_valid
  obtain ⟨_, kept, hbegan', hpoints, hkept, ⟨first, hfirst, hbelow, hzero⟩, hcharging⟩ :=
    fromRun_points hvalid document.discharging_rounded hlast htimes hok
  rw [hbegan, Option.some.injEq] at hbegan'
  subst hbegan'
  have hstart : ∀ p ∈ curve.rounded.points.head?, p.2 = 0 ∧ p.1 ≤ floorVolts := by
    intro p hp
    rw [Curve.rounded, List.head?_map, hfirst] at hp
    obtain rfl := Option.some.inj hp
    constructor
    · simp only [hzero]
      exact Rounding.toPlaces_zero places
    · rw [← round_floorVolts]
      exact Rounding.toPlaces_mono hbelow
  have hnew : (∃ next, Document.new doubles curve document.charging = .ok next) ↔
      ∀ p ∈ curve.rounded.points.getLast?, p.2 = 1 := by
    rw [Document.exists_new_iff]
    constructor
    · rintro ⟨hdischarging, -⟩
      exact (hdischarging.spans rfl).last
    · intro hends
      exact ⟨valid_of_spans hcharging ⟨hstart, hends⟩, document.charging_rounded_valid⟩
  have hone : last.2 = 1 := (hvalid.spans rfl).last last hlast
  have htop : fromFull = true →
      document.discharging.chargeAt (refinedTo fromFull last began.2) = 1 := by
    rintro rfl
    exact (runBegan_eq hvalid hlast true began.2).symm
  rw [hnew, Curve.rounded, List.getLast?_map, hpoints, List.getLast?_append]
  by_cases hbeyond : refinedTo fromFull last began.2 + crowdedVolts < last.1
  · -- The curve goes on above, and ends as it did.
    rw [getLast_above hlast hbeyond]
    refine iff_of_true ?_ ?_
    · intro p hp
      obtain rfl := Option.some.inj hp
      simp only [hone]
      exact Rounding.toPlaces_one places
    · cases fromFull with
      | true => exact .inl rfl
      | false => exact .inr (.inl hbeyond)
  · -- The curve ends where the run refines it.
    rw [above_eq_nil hvalid hlast hbeyond, hkept]
    have hends : (∀ p ∈ Option.map (fun point : ℚ × ℚ => (round point.1 places,
          round point.2 places)) ((([] : List (ℚ × ℚ)).getLast?).or
          (some (refinedTo fromFull last began.2,
            document.discharging.chargeAt (refinedTo fromFull last began.2)))), p.2 = 1) ↔
        round (document.discharging.chargeAt (refinedTo fromFull last began.2)) places = 1 := by
      simp
    rw [hends]
    cases fromFull with
    | true =>
        rw [htop rfl]
        exact iff_of_true (Rounding.toPlaces_one places) (.inl rfl)
    | false =>
        have hshort : ¬began.2 + crowdedVolts < last.1 := hbeyond
        simp [refinedTo, hshort]

end Run

/-! ## A charge that teaches -/

section Charge

variable {doubles : Doubles} {old : Option Curve} {curve : Curve} {anchor floor : ℚ}
  {samples : List Sample} {ended : Duration}

/-- The points of a grid where a charge is known, each with its charge. -/
def knownPoints (low high : ℚ) (known : ℚ → Option ℚ) : List (ℚ × ℚ) :=
  (grid low high).filterMap fun volts => (known volts).map fun charge => (volts, charge)

/-- The points known on a grid are at its voltages. -/
theorem map_fst_knownPoints (low high : ℚ) (known : ℚ → Option ℚ) :
    ((knownPoints low high known).map Prod.fst).Sublist (grid low high) := by
  unfold knownPoints
  induction grid low high with
  | nil => exact List.Sublist.refl _
  | cons volts rest ih =>
      rcases hknown : known volts with _ | charge
      · rw [List.filterMap_cons_none (by simp [hknown])]
        exact ih.cons volts
      · rw [List.filterMap_cons_some (by rw [hknown]; rfl)]
        exact ih.cons_cons volts

/-- The points known on a wide grid stay apart once rounded, and are two where both its ends are
known. -/
theorem knownPoints_two {low high : ℚ} (known : ℚ → Option ℚ) (hwide : low + crowdedVolts < high)
    (hlow : (known low).isSome) (hhigh : (known high).isSome) :
    2 ≤ (knownPoints low high known).length ∧
      ((knownPoints low high known).map Prod.fst).Pairwise Apart := by
  constructor
  · obtain ⟨bottom, hbottom⟩ := Option.isSome_iff_exists.mp hlow
    obtain ⟨top, htop⟩ := Option.isSome_iff_exists.mp hhigh
    simp [knownPoints, grid, hwide, hbottom, htop, List.filterMap_append]
  · exact ((grid_pairwise low high).imp Apart.of_crowded).sublist
      (map_fst_knownPoints low high known)

/-- The charge of a charging curve a charge refines, at a voltage: what either gives, blended where
both do. -/
def chargeKnown (old : Curve) (low high : ℚ) (observed : ℚ → Option ℚ) (volts : ℚ) : Option ℚ :=
  let new := if low ≤ volts ∧ volts ≤ high then observed volts else none
  let was := if old.covers volts then some (old.chargeAt volts) else none
  match was, new with
  | some was, some new => some (blend was new (weight old.learntFrom))
  | was, new => was.or new

/-- A charge refines a charging curve where either is known. -/
theorem chargePoints_eq {old : Curve} {low high : ℚ} {observed : ℚ → Option ℚ}
    {first last : ℚ × ℚ} (hfirst : old.points.head? = some first)
    (hlast : old.points.getLast? = some last) :
    chargePoints old low high observed =
      knownPoints (min low first.1) (max high last.1) (chargeKnown old low high observed) := by
  unfold chargePoints knownPoints
  rw [hfirst, hlast]
  dsimp only
  congr 1
  funext volts
  unfold chargeKnown
  cases (if old.covers volts then some (old.chargeAt volts) else none) <;>
    cases (if low ≤ volts ∧ volts ≤ high then observed volts else none) <;> rfl

/-- A charge is known where the charge shows one. -/
theorem chargeKnown_of_observed {old : Curve} {low high volts : ℚ} {observed : ℚ → Option ℚ}
    (hwithin : low ≤ volts ∧ volts ≤ high) (hobserved : (observed volts).isSome) :
    (chargeKnown old low high observed volts).isSome := by
  obtain ⟨new, hnew⟩ := Option.isSome_iff_exists.mp hobserved
  unfold chargeKnown
  rw [if_pos hwithin, hnew]
  cases (if old.covers volts then some (old.chargeAt volts) else none) <;> rfl

/-- A charge is known where the curve covers the voltage. -/
theorem chargeKnown_of_covers {old : Curve} {low high volts : ℚ} {observed : ℚ → Option ℚ}
    (hcovers : old.covers volts = true) : (chargeKnown old low high observed volts).isSome := by
  unfold chargeKnown
  rw [if_pos hcovers]
  cases (if low ≤ volts ∧ volts ≤ high then observed volts else none) <;> rfl

/-- A valid curve covers its ends. -/
theorem covers_ends {old : Curve} {direction : Direction} (hvalid : old.Valid direction)
    {first last : ℚ × ℚ} (hfirst : old.points.head? = some first)
    (hlast : old.points.getLast? = some last) :
    old.covers first.1 = true ∧ old.covers last.1 = true := by
  have hle : first.1 ≤ last.1 := le_last hvalid hlast (List.mem_of_head? hfirst)
  unfold Curve.covers
  rw [hfirst, hlast]
  simp [hle]

/-- What a charge shows of the scale, from when it began to when it finished. -/
def chargeShown (anchor start : ℚ) (ended : Duration) (t : ℚ) : ℚ :=
  anchor + (1 - anchor) * (t - start) / (asSecs ended - start)

/-- A charge that teaches took long enough, crossed enough of the voltages and of the scale, and
gives the points it creates or refines, kept from falling. -/
theorem fromCharge_ok (hok : fromCharge doubles old anchor floor samples ended = .ok curve) :
    ∃ start low time high smoothed error, smoothed.head? = some (start, low) ∧
      smoothed.getLast? = some (time, high) ∧ asSecs shortest ≤ asSecs ended - start ∧
      narrowestVolts ≤ high - low ∧ narrowestCharge ≤ 1 - anchor ∧
      match old with
      | none => curve = {
          points := monotone (createdPoints low high fun volts =>
            (crossed smoothed volts risen).map (chargeShown anchor start ended))
          learntFrom := 1
          error := unmeasuredError doubles 1
          duration := (asSecs ended - start) / (1 - anchor) }
      | some old => curve = {
          points := monotone (chargePoints old low high fun volts =>
            (crossed smoothed volts risen).map (chargeShown anchor start ended))
          learntFrom := oneMore old.learntFrom
          error := clamp error
          duration := blend old.duration ((asSecs ended - start) / (1 - anchor))
            (weight old.learntFrom * share (1 - anchor) (1 - floor)) } := by
  unfold fromCharge at hok
  dsimp only at hok
  split at hok
  · rename_i start low time high hhead hlast
    split_ifs at hok with hshort hnarrow
    rw [not_lt] at hshort
    rw [not_or, not_lt, not_lt] at hnarrow
    cases old with
    | none =>
        cases hok
        exact ⟨start, low, time, high, _, 0, hhead, hlast, hshort, hnarrow.1, hnarrow.2, rfl⟩
    | some old =>
        cases hok
        exact ⟨start, low, time, high, _, _, hhead, hlast, hshort, hnarrow.1, hnarrow.2, rfl⟩
  · cases hok

/-- The error of a curve not yet measured is a share. -/
theorem unmeasuredError_mem (hsqrt : ∀ x, 1 ≤ x → 1 ≤ doubles.sqrt x) (learntFrom : UInt32) :
    0 ≤ unmeasuredError doubles learntFrom ∧ unmeasuredError doubles learntFrom ≤ 1 := by
  have hone : 1 ≤ doubles.sqrt (learntFrom.toNat + 1) :=
    hsqrt _ (by linarith [Nat.cast_nonneg (α := ℚ) learntFrom.toNat])
  unfold unmeasuredError
  constructor
  · positivity
  · rw [div_le_one (by linarith)]
    linarith

/-- What a charge from a charge on the scale teaches is a curve the document takes. -/
theorem fromCharge_valid (hsqrt : ∀ x, 1 ≤ x → 1 ≤ doubles.sqrt x)
    (hvalid : ∀ held ∈ old, held.Valid .charging) (hrounded : ∀ held ∈ old, held.rounded = held)
    (hanchor : 0 ≤ anchor) (hfloor : floor ≤ 1)
    (hok : fromCharge doubles old anchor floor samples ended = .ok curve) :
    curve.rounded.Valid .charging := by
  obtain ⟨start, low, time, high, smoothed, error, hhead, hlast, hlong, hfar, hcovers, hcurve⟩ :=
    fromCharge_ok hok
  have hcrowded : crowdedVolts < narrowestVolts := by norm_num [crowdedVolts, narrowestVolts]
  have hsome : 0 < crowdedVolts := by norm_num [crowdedVolts]
  have hwide : low + crowdedVolts < high := by linarith
  have hle : low ≤ high := by linarith
  have hnarrow : 0 < narrowestCharge := by norm_num [narrowestCharge]
  have hlow : ((crossed smoothed low risen).map (chargeShown anchor start ended)).isSome := by
    rw [Option.isSome_map]
    exact crossed_isSome ⟨(start, low), List.mem_of_head? hhead, by simp [risen]⟩
  have hhigh : ((crossed smoothed high risen).map (chargeShown anchor start ended)).isSome := by
    rw [Option.isSome_map]
    exact crossed_isSome ⟨(time, high), List.mem_of_getLast? hlast, by simp [risen]⟩
  have hduration : asSecs shortest ≤ (asSecs ended - start) / (1 - anchor) := by
    refine hlong.trans ?_
    rw [le_div_iff₀ (by linarith)]
    have hsome : 0 < asSecs shortest := by norm_num [asSecs, shortest, secs]
    exact mul_le_of_le_one_right (by linarith) (by linarith)
  cases old with
  | none =>
      subst hcurve
      obtain ⟨htwo, hapart⟩ := knownPoints_two (fun volts =>
        (crossed smoothed volts risen).map (chargeShown anchor start ended)) hwide hlow hhigh
      refine valid_of_points htwo hapart (unmeasuredError_mem hsqrt 1) ?_
      have hlong : 600 ≤ (asSecs ended - start) / (1 - anchor) := by
        refine le_trans ?_ hduration
        norm_num [asSecs, shortest, secs]
      norm_num [places]
      linarith
  | some old =>
      subst hcurve
      have hold := hvalid old rfl
      obtain ⟨first, hfirst, -⟩ := hold.chargeAt_low
      obtain ⟨last, hend, -⟩ := hold.chargeAt_high
      obtain ⟨hcoversFirst, hcoversLast⟩ := covers_ends hold hfirst hend
      have hw := weight_mem old.learntFrom
      have hpart : 0 ≤ 1 - anchor := by linarith
      have hshare := share_mem hpart (sub_nonneg.mpr hfloor)
      have hgrid : min low first.1 + crowdedVolts < max high last.1 :=
        lt_of_le_of_lt (by linarith [min_le_left low first.1]) (lt_max_of_lt_left hwide)
      rw [chargePoints_eq hfirst hend]
      obtain ⟨htwo, hapart⟩ := knownPoints_two (chargeKnown old low high fun volts =>
          (crossed smoothed volts risen).map (chargeShown anchor start ended)) hgrid
        (by
          rcases min_choice low first.1 with hmin | hmin <;> rw [hmin]
          · exact chargeKnown_of_observed ⟨le_rfl, hle⟩ hlow
          · exact chargeKnown_of_covers hcoversFirst)
        (by
          rcases max_choice high last.1 with hmax | hmax <;> rw [hmax]
          · exact chargeKnown_of_observed ⟨hle, le_rfl⟩ hhigh
          · exact chargeKnown_of_covers hcoversLast)
      refine valid_of_points htwo hapart (clamp_mem _) ?_
      refine one_le_blend ⟨mul_nonneg hw.1.le hshare.1, ?_⟩
        (one_le_duration hold (hrounded old rfl)) hduration
      exact mul_le_one₀ hw.2 hshare.1 hshare.2

end Charge

end Bliti.Facts.Power.Learn
