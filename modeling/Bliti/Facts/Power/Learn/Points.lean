import Bliti.Facts.Power.Learn

/-!
# Refining the curves - the voltages, charges and times of a refined curve

What the pieces of a refinement come to: the time a voltage was first reached lies within the run
or charge, the grid is spaced, and the charges of the points kept from falling are within a cell.
-/

namespace Bliti.Facts.Power.Learn

open Interpolation (Before Rising)

/-! ## When a voltage was reached -/

section Crossed

variable {p q : ℚ × ℚ} {rest smoothed : List (ℚ × ℚ)} {volts t : ℚ} {reached : ℚ → ℚ → Bool}

/-- A voltage reached at the start is reached when it starts. -/
theorem crossed_of_reached (hreached : reached p.2 volts = true) :
    crossed (p :: rest) volts reached = some p.1 := by
  simp [crossed, List.findIdx?_cons, hreached]

theorem crossed_singleton (hreached : reached p.2 volts = false) :
    crossed [p] volts reached = none := by
  simp [crossed, List.findIdx?_cons, hreached]

/-- A voltage reached at the second sample is reached between the first two. -/
theorem crossed_of_second (hfirst : reached p.2 volts = false)
    (hsecond : reached q.2 volts = true) :
    crossed (p :: q :: rest) volts reached =
      some (p.1 + (q.1 - p.1) * (p.2 - volts) / (p.2 - q.2)) := by
  simp [crossed, List.findIdx?_cons, hfirst, hsecond]

/-- A voltage reached by neither of the first two samples is reached when it is after the first. -/
theorem crossed_of_later (hfirst : reached p.2 volts = false)
    (hsecond : reached q.2 volts = false) :
    crossed (p :: q :: rest) volts reached = crossed (q :: rest) volts reached := by
  unfold crossed
  rw [List.findIdx?_cons, List.findIdx?_cons, hfirst, hsecond]
  simp only [Bool.false_eq_true, if_false]
  cases rest.findIdx? fun sample => reached sample.2 volts with
  | none => rfl
  | some index => cases hat : rest[index]? <;> simp [hat]

theorem crossed_isSome (hreached : ∃ sample ∈ smoothed, reached sample.2 volts = true) :
    (crossed smoothed volts reached).isSome := by
  induction smoothed with
  | nil =>
      obtain ⟨sample, hsample, -⟩ := hreached
      cases hsample
  | cons p rest ih =>
      by_cases hfirst : reached p.2 volts = true
      · rw [crossed_of_reached hfirst]
        rfl
      · rw [Bool.not_eq_true] at hfirst
        have hrest : ∃ sample ∈ rest, reached sample.2 volts = true := by
          obtain ⟨sample, hsample, hsampled⟩ := hreached
          rcases List.mem_cons.mp hsample with rfl | hlater
          · rw [hfirst] at hsampled
            cases hsampled
          · exact ⟨sample, hlater, hsampled⟩
        cases rest with
        | nil =>
            obtain ⟨sample, hsample, -⟩ := hrest
            cases hsample
        | cons q rest =>
            by_cases hsecond : reached q.2 volts = true
            · rw [crossed_of_second hfirst hsecond]
              rfl
            · rw [Bool.not_eq_true] at hsecond
              rw [crossed_of_later hfirst hsecond]
              exact ih hrest

/-- No voltage is reached before the run began. -/
theorem start_le_crossed (htimes : (p :: rest).IsChain fun p q => p.1 ≤ q.1)
    (hcrossed : crossed (p :: rest) volts fallen = some t) : p.1 ≤ t := by
  induction rest generalizing p with
  | nil =>
      by_cases hfirst : fallen p.2 volts = true
      · rw [crossed_of_reached hfirst] at hcrossed
        cases hcrossed
        exact le_rfl
      · rw [Bool.not_eq_true] at hfirst
        rw [crossed_singleton hfirst] at hcrossed
        cases hcrossed
  | cons q rest ih =>
      obtain ⟨hle, hrest⟩ := List.isChain_cons_cons.mp htimes
      by_cases hfirst : fallen p.2 volts = true
      · rw [crossed_of_reached hfirst] at hcrossed
        cases hcrossed
        exact le_rfl
      · rw [Bool.not_eq_true] at hfirst
        by_cases hsecond : fallen q.2 volts = true
        · rw [crossed_of_second hfirst hsecond] at hcrossed
          cases hcrossed
          have habove : volts < p.2 := by simpa [fallen] using hfirst
          have hbelow : q.2 ≤ volts := by simpa [fallen] using hsecond
          have hfell : 0 ≤ (q.1 - p.1) * (p.2 - volts) / (p.2 - q.2) :=
            div_nonneg (mul_nonneg (sub_nonneg.mpr hle) (sub_nonneg.mpr habove.le))
              (sub_nonneg.mpr (hbelow.trans habove.le))
          linarith
        · rw [Bool.not_eq_true] at hsecond
          rw [crossed_of_later hfirst hsecond] at hcrossed
          exact hle.trans (ih hrest hcrossed)

end Crossed

/-- The times of the samples as smoothed are the samples'. -/
theorem map_fst_smoothedFrom (samples : List Sample) (hold : ℚ → ℚ → ℚ) (i : ℕ) (held : Option ℚ)
    (rest : List Sample) :
    (smoothedFrom samples hold i held rest).map Prod.fst = rest.map fun sample => asSecs sample.1 := by
  induction rest generalizing i held with
  | nil => rfl
  | cons sample rest ih => simp [smoothedFrom, ih]

/-- The samples as smoothed are in order of time, where the samples are. -/
theorem isChain_smoothed {samples : List Sample} (htimes : samples.IsChain fun p q => p.1 ≤ q.1)
    (hold : ℚ → ℚ → ℚ) : (smoothed samples hold).IsChain fun p q => p.1 ≤ q.1 := by
  have hsecs : (samples.map fun sample => asSecs sample.1).IsChain (· ≤ ·) := by
    rw [List.isChain_map]
    refine htimes.imp fun p q hle => ?_
    unfold asSecs
    gcongr
  rw [← map_fst_smoothedFrom samples hold 0 none samples, List.isChain_map] at hsecs
  exact hsecs

/-! ## The grid -/

section Grid

variable {low high : ℚ}

/-- No two voltages of the grid are crowded. -/
theorem grid_pairwise (low high : ℚ) :
    (grid low high).Pairwise fun a b => a + crowdedVolts < b := by
  unfold grid
  dsimp only
  rw [List.pairwise_cons, List.pairwise_append]
  refine ⟨?_, ?_, ?_, ?_⟩
  · intro b hb
    rcases List.mem_append.mp hb with hbetween | hlast
    · have hkept := (List.mem_filter.mp hbetween).2
      simp only [Bool.and_eq_true, decide_eq_true_eq] at hkept
      exact hkept.1
    · split at hlast
      · rename_i hwide
        rwa [List.mem_singleton.mp hlast]
      · cases hlast
  · refine List.Pairwise.filter _ ?_
    rw [List.pairwise_map]
    refine List.pairwise_lt_range.imp fun {j k} hlt => ?_
    have hcast : (j : ℚ) + 1 ≤ k := by exact_mod_cast hlt
    unfold stepVolts crowdedVolts
    push_cast
    linarith
  · split <;> simp
  · intro a ha b hb
    have hkept := (List.mem_filter.mp ha).2
    simp only [Bool.and_eq_true, decide_eq_true_eq] at hkept
    split at hb
    · rw [List.mem_singleton.mp hb]
      linarith [hkept.2]
    · cases hb

/-- A grid begins at its low voltage. -/
theorem head_grid (low high : ℚ) : (grid low high).head? = some low :=
  rfl

/-- A grid wider than the crowding ends at its high voltage. -/
theorem getLast_grid (hwide : low + crowdedVolts < high) :
    (grid low high).getLast? = some high := by
  simp [grid, hwide, List.getLast?_cons]

/-- A wide grid's voltages lie between its ends. -/
theorem mem_grid (hwide : low + crowdedVolts < high) {volts : ℚ} (hmem : volts ∈ grid low high) :
    low ≤ volts ∧ volts ≤ high := by
  have hcrowded : 0 < crowdedVolts := by norm_num [crowdedVolts]
  have hpairwise := grid_pairwise low high
  constructor
  · have hcons : grid low high = low :: (grid low high).tail := rfl
    rw [hcons] at hmem hpairwise
    rcases List.mem_cons.mp hmem with rfl | hlater
    · exact le_rfl
    · linarith [(List.pairwise_cons.mp hpairwise).1 volts hlater]
  · obtain ⟨front, hfront⟩ := List.getLast?_eq_some_iff.mp (getLast_grid hwide)
    rw [hfront] at hmem hpairwise
    rcases List.mem_append.mp hmem with hearlier | hlast
    · have happart := (List.pairwise_append.mp hpairwise).2.2 volts hearlier high
        (List.mem_singleton_self high)
      linarith
    · exact (List.mem_singleton.mp hlast).le

end Grid

/-! ## Keeping the charge from falling -/

section Monotone

variable {points : List (ℚ × ℚ)} {highest : ℚ}

/-- A figure held to a share is one. -/
theorem clamp_mem (x : ℚ) : 0 ≤ clamp x ∧ clamp x ≤ 1 :=
  ⟨le_max_left _ _, max_le zero_le_one (min_le_right _ _)⟩

/-- A share is held to itself. -/
theorem clamp_of_mem {x : ℚ} (hx : 0 ≤ x ∧ x ≤ 1) : clamp x = x := by
  rw [clamp, min_eq_left hx.2, max_eq_right hx.1]

/-- Holding figures to a share keeps their order. -/
theorem clamp_mono : Monotone clamp := fun _ _ hle =>
  max_le_max_left 0 (min_le_min_right 1 hle)

/-- The highest charge of some points, or of those before them. -/
def peak (highest : ℚ) (points : List (ℚ × ℚ)) : ℚ :=
  points.foldl (fun highest point => max highest (clamp point.2)) highest

/-- The voltages are as they were. -/
@[simp]
theorem map_fst_monotoneFrom (highest : ℚ) (points : List (ℚ × ℚ)) :
    (monotoneFrom highest points).map Prod.fst = points.map Prod.fst := by
  induction points generalizing highest with
  | nil => rfl
  | cons point rest ih => simp [monotoneFrom, ih]

/-- Each point is no lower than the highest before it. -/
theorem le_of_mem_monotoneFrom {p : ℚ × ℚ} (hp : p ∈ monotoneFrom highest points) :
    highest ≤ p.2 := by
  induction points generalizing highest with
  | nil => cases hp
  | cons point rest ih =>
      rcases List.mem_cons.mp hp with rfl | hlater
      · exact le_max_left _ _
      · exact (le_max_left _ _).trans (ih hlater)

/-- Each point is within a cell, where those before it are. -/
theorem monotoneFrom_le_one (hhighest : highest ≤ 1) {p : ℚ × ℚ}
    (hp : p ∈ monotoneFrom highest points) : p.2 ≤ 1 := by
  induction points generalizing highest with
  | nil => cases hp
  | cons point rest ih =>
      have hnext : max highest (clamp point.2) ≤ 1 := max_le hhighest (clamp_mem point.2).2
      rcases List.mem_cons.mp hp with rfl | hlater
      · exact hnext
      · exact ih hnext hlater

/-- The charges do not fall. -/
theorem monotoneFrom_pairwise (highest : ℚ) (points : List (ℚ × ℚ)) :
    (monotoneFrom highest points).Pairwise fun p q => p.2 ≤ q.2 := by
  induction points generalizing highest with
  | nil => exact List.Pairwise.nil
  | cons point rest ih =>
      rw [monotoneFrom, List.pairwise_cons]
      exact ⟨fun q hq => le_of_mem_monotoneFrom hq, ih _⟩

/-- Points after others are kept from falling from the highest of those. -/
theorem monotoneFrom_append (highest : ℚ) (points later : List (ℚ × ℚ)) :
    monotoneFrom highest (points ++ later) =
      monotoneFrom highest points ++ monotoneFrom (peak highest points) later := by
  induction points generalizing highest with
  | nil => rfl
  | cons point rest ih => simp [monotoneFrom, peak, ih]

/-- Points that do not fall from the highest before them, and are within a cell, are as they
were. -/
theorem monotoneFrom_eq (hrising : points.Pairwise fun p q => p.2 ≤ q.2)
    (hwithin : ∀ p ∈ points, 0 ≤ p.2 ∧ p.2 ≤ 1) (hhighest : ∀ p ∈ points, highest ≤ p.2) :
    monotoneFrom highest points = points := by
  induction points generalizing highest with
  | nil => rfl
  | cons point rest ih =>
      rw [List.pairwise_cons] at hrising
      rw [List.forall_mem_cons] at hwithin hhighest
      rw [monotoneFrom, clamp_of_mem hwithin.1, max_eq_right hhighest.1,
        ih hrising.2 hwithin.2 hrising.1]

/-- The highest charge is no higher than what none is above. -/
theorem peak_le {bound : ℚ} (hhighest : highest ≤ bound)
    (hpoints : ∀ p ∈ points, clamp p.2 ≤ bound) : peak highest points ≤ bound := by
  induction points generalizing highest with
  | nil => exact hhighest
  | cons point rest ih =>
      rw [List.forall_mem_cons] at hpoints
      exact ih (max_le hhighest hpoints.1) hpoints.2

end Monotone

/-! ## Rounding the points -/

/-- Two voltages stay apart once rounded. -/
def Apart (a b : ℚ) : Prop :=
  round a places < round b places

/-- Voltages that are not crowded stay apart. -/
theorem Apart.of_crowded {a b : ℚ} (hlt : a + crowdedVolts < b) : Apart a b := by
  refine Rounding.toPlaces_lt ?_
  unfold crowdedVolts at hlt
  norm_num [places]
  linarith

/-- Voltages apart from others are apart from those beyond them. -/
theorem Apart.trans_le {a b c : ℚ} (hapart : Apart a b) (hle : b ≤ c) : Apart a c :=
  lt_of_lt_of_le hapart (Rounding.toPlaces_mono hle)

/-- Points far enough apart to stay apart once rounded, kept from falling, are a valid curve's,
with an error that is a share and a duration that rounds to something. -/
theorem valid_of_points {points : List (ℚ × ℚ)} (htwo : 2 ≤ points.length)
    (hapart : (points.map Prod.fst).Pairwise Apart) {learntFrom : UInt32} {error duration : ℚ}
    (herror : 0 ≤ error ∧ error ≤ 1) (hduration : 1 ≤ duration * 10 ^ places) :
    (Curve.rounded ⟨monotone points, learntFrom, error, duration⟩).Valid .charging where
  two := by
    have hlength := congrArg List.length (map_fst_monotoneFrom 0 points)
    rw [List.length_map, List.length_map] at hlength
    simpa [Curve.rounded, monotone, hlength] using htwo
  within := by
    intro p hp
    obtain ⟨q, hq, rfl⟩ := List.mem_map.mp hp
    constructor
    · calc (0 : ℚ) = round 0 places := (Rounding.toPlaces_zero places).symm
        _ ≤ round q.2 places := Rounding.toPlaces_mono (le_of_mem_monotoneFrom hq)
    · calc round q.2 places ≤ round 1 places :=
            Rounding.toPlaces_mono (monotoneFrom_le_one zero_le_one hq)
        _ = 1 := Rounding.toPlaces_one places
  rising := by
    refine List.Pairwise.isChain ?_
    rw [Curve.rounded, List.pairwise_map]
    rw [← map_fst_monotoneFrom 0 points, List.pairwise_map] at hapart
    refine (hapart.and (monotoneFrom_pairwise 0 points)).imp ?_
    rintro p q ⟨hvolts, hcharge⟩
    exact ⟨hvolts, Rounding.toPlaces_mono hcharge⟩
  spans := nofun
  error := by
    constructor
    · calc (0 : ℚ) = round 0 places := (Rounding.toPlaces_zero places).symm
        _ ≤ round error places := Rounding.toPlaces_mono herror.1
    · calc round error places ≤ round 1 places := Rounding.toPlaces_mono herror.2
        _ = 1 := Rounding.toPlaces_one places
  duration := Rounding.toPlaces_pos hduration

end Bliti.Facts.Power.Learn
