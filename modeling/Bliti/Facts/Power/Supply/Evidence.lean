import Bliti.Facts.Power.Supply.Full

/-!
# The backup supply - the evidence of a finished charge

What the readings since a charge was last begun show, where the charge is taken for finished on one
of them.

Main results:

- Theorem `onEvidence_iff`: when a charge only finishes on evidence.
-/

namespace Bliti.Facts.Power

/-- A reading of the cell voltage, and when it was taken. -/
structure Timed where
  time : Duration
  volts : ℚ
deriving DecidableEq

namespace Full

/-! ## What a reading can do -/

/-- What a reading makes of where a charge has got to. -/
inductive Observed (now : Duration) (volts : ℚ) : Full → Full → Prop
  | ended : Observed now volts .finished .finished
  | reaches {full : Full} (habove : terminationVolts ≤ volts) (hopen : full ≠ .finished)
      (hnew : ∀ peak, full ≠ .atTermination peak) : Observed now volts full (.atTermination volts)
  | stays {peak : ℚ} (habove : terminationVolts ≤ volts) :
      Observed now volts (.atTermination peak) (.atTermination (max peak volts))
  | lingers {peak : ℚ} (hbelow : volts < terminationVolts) (hnear : peak - relaxVolts < volts) :
      Observed now volts (.atTermination peak) (.atTermination peak)
  | falls {peak : ℚ} (hbelow : volts < terminationVolts) (hfar : volts ≤ peak - relaxVolts) :
      Observed now volts (.atTermination peak) (.holding now volts volts true)
  | rests (hbelow : volts < terminationVolts) (hhigh : restingVolts ≤ volts) :
      Observed now volts .charging (.holding now volts volts false)
  | charges {full : Full} (hlow : volts < restingVolts)
      (hfound : full = .charging ∨ ∃ since low high, full = .holding since low high false) :
      Observed now volts full .charging
  | restarts {since : Duration} {low high : ℚ} {relaxed : Bool} (hbelow : volts < terminationVolts)
      (hrest : relaxed = false → restingVolts ≤ volts) :
      Observed now volts (.holding since low high relaxed) (.holding now volts volts relaxed)
  | holds {since : Duration} {low high : ℚ} {relaxed : Bool} (hbelow : volts < terminationVolts)
      (hstill : max high volts - min low volts ≤ stillVolts)
      (hrest : relaxed = false → restingVolts ≤ volts) :
      Observed now volts (.holding since low high relaxed)
        (.holding since (min low volts) (max high volts) relaxed)
  | finishes {since : Duration} {low high : ℚ} {relaxed : Bool} (hbelow : volts < terminationVolts)
      (hstill : max high volts - min low volts ≤ stillVolts) (hlong : hold ≤ now - since) :
      Observed now volts (.holding since low high relaxed) .finished

/-- A reading does one of these. -/
theorem observe_observed (full : Full) (now : Duration) (volts : ℚ) :
    Observed now volts full (full.observe now volts).1 := by
  cases full with
  | finished => exact .ended
  | charging =>
      simp only [observe, next, holdingFrom]
      by_cases habove : terminationVolts ≤ volts
      · simp only [if_pos habove]
        exact .reaches habove nofun nofun
      · by_cases hhigh : restingVolts ≤ volts
        · simp only [if_neg habove, if_pos hhigh, if_neg hhigh.not_gt]
          exact .rests (not_le.mp habove) hhigh
        · simp only [if_neg habove, if_neg hhigh]
          exact .charges (not_le.mp hhigh) (.inl rfl)
  | atTermination peak =>
      simp only [observe, next, holdingFrom]
      by_cases habove : terminationVolts ≤ volts
      · simp only [if_pos habove]
        exact .stays habove
      · by_cases hfar : volts ≤ peak - relaxVolts
        · simp only [if_neg habove, if_pos hfar]
          exact .falls (not_le.mp habove) hfar
        · simp only [if_neg habove, if_neg hfar]
          exact .lingers (not_le.mp habove) (not_le.mp hfar)
  | holding since low high relaxed =>
      simp only [observe, next, holdingFrom]
      by_cases habove : terminationVolts ≤ volts
      · simp only [if_pos habove]
        exact .reaches habove nofun nofun
      have hbelow := not_le.mp habove
      have hdrops (hlow : volts < restingVolts) (since : Duration) (low high : ℚ) :
          Observed now volts (.holding since low high false) .charging :=
        .charges hlow (.inr ⟨since, low, high, rfl⟩)
      by_cases hbroken : stillVolts < max high volts - min low volts
      · simp only [if_neg habove, if_pos hbroken]
        cases relaxed with
        | true => exact .restarts hbelow nofun
        | false =>
            by_cases hlow : volts < restingVolts
            · simp only [if_pos hlow]
              exact hdrops hlow since low high
            · simp only [if_neg hlow]
              exact .restarts hbelow fun _ => not_lt.mp hlow
      · have hstill := not_lt.mp hbroken
        by_cases hlong : hold ≤ now - since
        · simp only [if_neg habove, if_neg hbroken, if_pos hlong]
          exact .finishes hbelow hstill hlong
        · simp only [if_neg habove, if_neg hbroken, if_neg hlong]
          cases relaxed with
          | true => exact .holds hbelow hstill nofun
          | false =>
              by_cases hlow : volts < restingVolts
              · simp only [if_pos hlow]
                exact hdrops hlow since low high
              · simp only [if_neg hlow]
                exact .holds hbelow hstill fun _ => not_lt.mp hlow

/-- A charge finishes on a reading that takes one that had not finished to its end. -/
theorem observe_snd {full : Full} {now : Duration} {volts : ℚ} :
    (full.observe now volts).2 = true ↔
      full ≠ .finished ∧ (full.observe now volts).1 = .finished := by
  constructor
  · exact observe_finishes
  · intro h
    obtain ⟨hopen, hends⟩ := h
    cases full with
    | finished => exact absurd rfl hopen
    | _ => exact decide_eq_true hends

/-! ## The readings since a charge was begun -/

/-- Where a charge has got to after some readings, since it was last begun. -/
def after (readings : List Timed) : Full :=
  readings.foldl (fun full reading => (full.observe reading.time reading.volts).1) .charging

@[simp]
theorem after_nil : after [] = .charging :=
  rfl

/-- The last reading is counted from where those before it got to. -/
theorem after_append (before : List Timed) (reading : Timed) :
    after (before ++ [reading]) =
      ((after before).observe reading.time reading.volts).1 := by
  rw [after, List.foldl_append, List.foldl_cons, List.foldl_nil]
  rfl

/-- Whether a charge finishes on a reading that follows some. -/
def finishesOn (before : List Timed) (reading : Timed) : Bool :=
  ((after before).observe reading.time reading.volts).2

/-- What the last of some readings did. -/
theorem observed_after (before : List Timed) (reading : Timed) :
    Observed reading.time reading.volts (after before) (after (before ++ [reading])) := by
  rw [after_append]
  exact observe_observed _ _ _

/-- A charge that has finished stays finished. -/
theorem after_finished {before : List Timed} (hfinished : after before = .finished)
    (rest : List Timed) : after (before ++ rest) = .finished := by
  induction rest using List.reverseRecOn with
  | nil => rwa [List.append_nil]
  | append_singleton rest reading ih =>
      rw [← List.append_assoc, after_append, ih]
      rfl

end Full

open Full

/-! ## What readings show -/

/-- A spell at termination, from the reading that entered it on, and the highest voltage of it. -/
structure Spell (before spell : List Timed) (peak : ℚ) : Prop where
  entered : ∀ peak, after before ≠ .atTermination peak
  first : ∃ reading, spell.head? = some reading ∧ terminationVolts ≤ reading.volts
  lasts : ∀ part, part ≠ [] → part <+: spell →
    ∃ peak, after (before ++ part) = .atTermination peak
  highest : (∀ reading ∈ spell, reading.volts ≤ peak) ∧ ∃ reading ∈ spell, reading.volts = peak

/-- Readings show a cell fallen back from termination by a place among them: the reading at that
place, or one before it, had fallen well below the highest since termination was last entered. -/
def FellBack (readings : List Timed) (place : ℕ) : Prop :=
  ∃ before spell fallen rest peak, readings = before ++ spell ++ fallen :: rest ∧
    Spell before spell peak ∧ fallen.volts ≤ peak - relaxVolts ∧
    (∀ reading ∈ fallen :: rest, reading.volts < terminationVolts) ∧
    before.length + spell.length ≤ place

/-- What readings show of a charge finished on the last of them. -/
structure Evidence (readings front held : List Timed) : Prop where
  parts : readings = front ++ held
  long : ∃ first last, held.head? = some first ∧ held.getLast? = some last ∧
    first.time + hold ≤ last.time
  below : ∀ reading ∈ held, reading.volts < terminationVolts
  still : ∀ one ∈ held, ∀ other ∈ held, one.volts - other.volts ≤ stillVolts
  resting : FellBack readings front.length ∨ ∀ reading ∈ held, restingVolts ≤ reading.volts

section Readings

variable {before readings : List Timed} {reading : Timed} {place : ℕ}

/-- What holds of some readings and of one more holds of all of them. -/
theorem forall_mem_concat {p : Timed → Prop} {held : List Timed}
    (hheld : ∀ one ∈ held, p one) (hreading : p reading) :
    ∀ one ∈ held ++ [reading], p one := by
  intro one hone
  rcases List.mem_append.mp hone with hearlier | hlast
  · exact hheld one hearlier
  · rwa [List.mem_singleton.mp hlast]

/-- A band widened to a reading holds it and all that the band did. -/
theorem within_concat {held : List Timed} {low high : ℚ}
    (hband : ∀ one ∈ held, low ≤ one.volts ∧ one.volts ≤ high) (reading : Timed) :
    ∀ one ∈ held ++ [reading],
      min low reading.volts ≤ one.volts ∧ one.volts ≤ max high reading.volts := by
  apply forall_mem_concat
  · intro one hone
    exact ⟨(min_le_left _ _).trans (hband one hone).1,
      (hband one hone).2.trans (le_max_left _ _)⟩
  · exact ⟨min_le_right _ _, le_max_right _ _⟩

/-- A spell at termination goes on with a reading that leaves it there. -/
theorem Spell.append {front spell : List Timed} {peak highest : ℚ} (h : Spell front spell peak)
    (hlasts : ∃ peak, after (front ++ (spell ++ [reading])) = .atTermination peak)
    (hpeak : peak ≤ highest) (hreading : reading.volts ≤ highest)
    (hreached : highest = peak ∨ highest = reading.volts) :
    Spell front (spell ++ [reading]) highest := by
  obtain ⟨entering, hhead, habove⟩ := h.first
  refine ⟨h.entered, ⟨entering, ?_, habove⟩, fun part hne hpart => ?_, fun one hone => ?_, ?_⟩
  · rw [List.head?_append, hhead, Option.some_or]
  · rcases List.prefix_concat_iff.mp hpart with rfl | hshort
    · exact hlasts
    · exact h.lasts part hne hshort
  · have hall := forall_mem_concat (fun one hone => (h.highest.1 one hone).trans hpeak) hreading
    exact hall one hone
  · rcases hreached with rfl | rfl
    · obtain ⟨one, hone, hsame⟩ := h.highest.2
      exact ⟨one, List.mem_append_left _ hone, hsame⟩
    · exact ⟨reading, List.mem_append_right _ List.mem_cons_self, rfl⟩

/-- The highest voltage of a spell at termination is no less than that of termination. -/
theorem Spell.above {front spell : List Timed} {peak : ℚ} (h : Spell front spell peak) :
    terminationVolts ≤ peak := by
  obtain ⟨entering, hhead, habove⟩ := h.first
  exact habove.trans (h.highest.1 entering (List.mem_of_head? hhead))

/-- A cell fallen back stays so until it reaches termination again. -/
theorem FellBack.append {later : ℕ} (h : FellBack readings place) (hlater : place ≤ later)
    (hbelow : reading.volts < terminationVolts) : FellBack (readings ++ [reading]) later := by
  obtain ⟨front, spell, fallen, rest, peak, rfl, hspell, hfar, hrest, hplace⟩ := h
  refine ⟨front, spell, fallen, rest ++ [reading], peak, ?_, hspell, hfar, ?_, hplace.trans hlater⟩
  · rw [List.append_assoc, List.cons_append]
  · rw [← List.cons_append]
    exact forall_mem_concat hrest hbelow

/-- What readings show of where a charge has got to. -/
inductive Shows (readings : List Timed) : Full → Prop
  | charging : Shows readings .charging
  | atTermination {front spell : List Timed} {peak : ℚ} (hparts : readings = front ++ spell)
      (hspell : Spell front spell peak) : Shows readings (.atTermination peak)
  | holding {front held : List Timed} {first : Timed} {low high : ℚ} {relaxed : Bool}
      (hparts : readings = front ++ first :: held)
      (hbelow : ∀ reading ∈ first :: held, reading.volts < terminationVolts)
      (hband : ∀ reading ∈ first :: held, low ≤ reading.volts ∧ reading.volts ≤ high)
      (hfell : relaxed = true → FellBack readings front.length)
      (hrest : relaxed = false → ∀ reading ∈ first :: held, restingVolts ≤ reading.volts) :
      Shows readings (.holding first.time low high relaxed)
  | finished : Shows readings .finished

/-- A cell that begins to hold at a reading shows it. -/
theorem shows_holding {relaxed : Bool} (hbelow : reading.volts < terminationVolts)
    (hfell : relaxed = true → FellBack (before ++ [reading]) before.length)
    (hrest : relaxed = false → restingVolts ≤ reading.volts) :
    Shows (before ++ [reading]) (.holding reading.time reading.volts reading.volts relaxed) := by
  refine .holding (rfl : before ++ [reading] = before ++ reading :: []) (fun one hone => ?_)
    (fun one hone => ?_) hfell fun hfound one hone => ?_
  · rwa [List.mem_singleton.mp hone]
  · rw [List.mem_singleton.mp hone]
    exact ⟨le_rfl, le_rfl⟩
  · rw [List.mem_singleton.mp hone]
    exact hrest hfound

/-- A reading shows what it makes of what those before it show. -/
theorem Shows.append (h : Shows before (after before)) :
    Shows (before ++ [reading]) (after (before ++ [reading])) := by
  have hobserved := observed_after before reading
  generalize hfrom : after before = full at h hobserved
  generalize hto : after (before ++ [reading]) = now at hobserved
  cases hobserved with
  | ended => exact .finished
  | reaches habove hopen hnew =>
      refine .atTermination rfl ⟨hfrom ▸ hnew, ⟨reading, rfl, habove⟩, fun part hne hpart => ?_,
        fun one hone => ?_, reading, List.mem_cons_self, rfl⟩
      · have hsome := List.length_pos_iff.mpr hne
        obtain rfl : part = [reading] := hpart.eq_of_length (by
          have hfew := hpart.length_le
          rw [List.length_singleton] at hfew ⊢
          omega)
        exact ⟨_, hto⟩
      · rw [List.mem_singleton.mp hone]
  | stays habove =>
      cases h with
      | atTermination hparts hspell =>
          rw [hparts, List.append_assoc] at hto
          refine .atTermination (by rw [hparts, List.append_assoc])
            (hspell.append ⟨_, hto⟩ (le_max_left _ _) (le_max_right _ _) ?_)
          exact max_choice _ _
  | lingers hbelow hnear =>
      cases h with
      | atTermination hparts hspell =>
          rw [hparts, List.append_assoc] at hto
          exact .atTermination (by rw [hparts, List.append_assoc])
            (hspell.append ⟨_, hto⟩ le_rfl (hbelow.le.trans hspell.above) (.inl rfl))
  | falls hbelow hfar =>
      cases h with
      | atTermination hparts hspell =>
          refine shows_holding hbelow (fun _ => ?_) nofun
          refine ⟨_, _, reading, [], _, by rw [hparts], hspell, hfar, fun one hone => ?_, ?_⟩
          · rwa [List.mem_singleton.mp hone]
          · rw [hparts, List.length_append]
  | rests hbelow hhigh => exact shows_holding hbelow nofun fun _ => hhigh
  | charges hlow hfound => exact .charging
  | restarts hbelow hrest =>
      cases h with
      | @holding front held first low high relaxed hparts hbefore hband hfell hheld =>
          refine shows_holding hbelow (fun hrelaxed => ?_) hrest
          refine (hfell hrelaxed).append ?_ hbelow
          rw [hparts, List.length_append]
          exact Nat.le_add_right _ _
  | holds hbelow hstill hrest =>
      cases h with
      | @holding front held first low high relaxed hparts hbefore hband hfell hheld =>
          have hwithin := within_concat hband reading
          refine .holding (?_ : before ++ [reading] = front ++ first :: (held ++ [reading]))
            (forall_mem_concat hbefore hbelow) hwithin ?_ ?_
          · rw [hparts, List.append_assoc, List.cons_append]
          · exact fun hrelaxed => (hfell hrelaxed).append le_rfl hbelow
          · exact fun hfound => forall_mem_concat (hheld hfound) (hrest hfound)
  | finishes hbelow hstill hlong => exact .finished

/-- Readings show where a charge has got to. -/
theorem shows_after (readings : List Timed) : Shows readings (after readings) := by
  induction readings using List.reverseRecOn with
  | nil => exact .charging
  | append_singleton readings reading ih => exact ih.append

/-! ## A charge that finishes -/

/-- A reading does not finish a charge found high where it has dropped by then. -/
def Rests (full : Full) (reading : Timed) : Prop :=
  ∀ since low high, full = .holding since low high false → reading.volts < restingVolts →
    max high reading.volts - min low reading.volts ≤ stillVolts → reading.time - since < hold

/-- A reading a charge finishes on finds it holding long enough, and still. -/
theorem holding_of_finishesOn (hfinishes : finishesOn before reading = true) :
    ∃ since low high relaxed, after before = .holding since low high relaxed ∧
      reading.volts < terminationVolts ∧
      max high reading.volts - min low reading.volts ≤ stillVolts ∧
      hold ≤ reading.time - since := by
  obtain ⟨hopen, hends⟩ := observe_snd.mp hfinishes
  have hobserved := observe_observed (after before) reading.time reading.volts
  generalize after before = full at *
  rw [hends] at hobserved
  cases hobserved with
  | ended => exact absurd rfl hopen
  | finishes hbelow hstill hlong => exact ⟨_, _, _, _, rfl, hbelow, hstill, hlong⟩

/-- A reading finishes a charge held long enough, and still, though it be low. -/
theorem observe_finished {now since : Duration} {volts low high : ℚ} {relaxed : Bool}
    (hlow : volts < restingVolts) (hstill : max high volts - min low volts ≤ stillVolts)
    (hlong : hold ≤ now - since) :
    ((Full.holding since low high relaxed).observe now volts).1 = .finished := by
  have hbelow : ¬ terminationVolts ≤ volts := by
    have hunder : restingVolts ≤ terminationVolts := by decide +kernel
    exact (hlow.trans_le hunder).not_ge
  simp only [observe, next, if_neg hbelow, if_neg hstill.not_gt, if_pos hlong]

/-- A charge finishes on evidence, unless it was found high and has dropped by then. -/
theorem evidence_of_finishesOn (hfinishes : finishesOn before reading = true)
    (hrests : Rests (after before) reading) :
    ∃ front held, Evidence (before ++ [reading]) front held := by
  obtain ⟨since, low, high, relaxed, hholding, hbelow, hstill, hlong⟩ :=
    holding_of_finishesOn hfinishes
  have hshows := shows_after before
  rw [hholding] at hshows
  cases hshows with
  | @holding front held first _ _ _ hparts hbefore hband hfell hheld =>
      have hwithin := within_concat hband reading
      refine ⟨front, first :: held ++ [reading], ?_, ⟨first, reading, rfl, ?_, ?_⟩,
        forall_mem_concat hbefore hbelow, fun one hone other hother => ?_, ?_⟩
      · rw [hparts, List.append_assoc, List.cons_append]
      · exact List.getLast?_concat
      · have hsome : 0 < hold := by decide
        have hlater : first.time ≤ reading.time :=
          (Nat.lt_of_sub_pos (hsome.trans_le hlong)).le
        exact Nat.add_le_of_le_sub' hlater hlong
      · linarith [(hwithin one hone).2, (hwithin other hother).1]
      · cases relaxed with
        | true => exact .inl ((hfell rfl).append le_rfl hbelow)
        | false =>
            refine .inr (forall_mem_concat (hheld rfl) ?_)
            by_contra hlow
            exact absurd (hrests first.time low high hholding (not_le.mp hlow) hstill)
              hlong.not_gt

/-- A charge that has been at termination is not found high after. -/
theorem after_ne_found {part : List Timed} {peak : ℚ} (hpart : after part = .atTermination peak)
    (rest : List Timed) :
    after (part ++ rest) ≠ .charging ∧
      ∀ since low high, after (part ++ rest) ≠ .holding since low high false := by
  induction rest using List.reverseRecOn with
  | nil =>
      rw [List.append_nil, hpart]
      exact ⟨nofun, nofun⟩
  | append_singleton rest reading ih =>
      have hobserved := observed_after (part ++ rest) reading
      rw [← List.append_assoc]
      generalize after (part ++ rest) = full at ih hobserved
      generalize after (part ++ rest ++ [reading]) = now at hobserved ⊢
      cases hobserved with
      | rests => exact absurd rfl ih.1
      | charges hlow hfound =>
          rcases hfound with rfl | ⟨since, low, high, rfl⟩
          · exact absurd rfl ih.1
          · exact absurd rfl (ih.2 since low high)
      | @restarts since low high relaxed hbelow hrest =>
          cases relaxed with
          | true => simp
          | false => exact absurd rfl (ih.2 since low high)
      | @holds since low high relaxed hbelow hstill hrest =>
          cases relaxed with
          | true => simp
          | false => exact absurd rfl (ih.2 since low high)
      | _ => simp

/-- Readings of which the last is too low for a resting cell are only evidence where termination was
reached before it. -/
theorem Evidence.reached {front held : List Timed}
    (h : Evidence (before ++ [reading]) front held) (hlow : reading.volts < restingVolts) :
    ∃ part rest peak, before = part ++ rest ∧ after part = .atTermination peak ∧
      ∃ one ∈ part, terminationVolts ≤ one.volts := by
  obtain ⟨first, last, hfirst, hlast, -⟩ := h.long
  have hsame : last = reading := by
    have hend := congrArg List.getLast? h.parts
    rw [List.getLast?_concat, List.getLast?_append, hlast, Option.some_or] at hend
    exact (Option.some.inj hend).symm
  rcases h.resting with hfell | hhigh
  · obtain ⟨start, spell, fallen, rest, peak, hparts, hspell, -, -, -⟩ := hfell
    obtain ⟨entering, hhead, habove⟩ := hspell.first
    obtain ⟨held, hpeak⟩ := hspell.lasts spell (by rintro rfl; cases hhead) List.prefix_rfl
    refine ⟨start ++ spell, (fallen :: rest).dropLast, held, ?_, hpeak, entering, ?_, habove⟩
    · have hshort := congrArg List.dropLast hparts
      rwa [List.dropLast_concat, List.dropLast_append_cons] at hshort
    · exact List.mem_append_right _ (List.mem_of_head? hhead)
  · rw [← hsame] at hlow
    exact absurd (hhigh last (List.mem_of_getLast? hlast)) hlow.not_ge

/-- A charge is only taken for finished on evidence, and once. -/
structure OnEvidence (readings : List Timed) : Prop where
  evidence : ∀ before reading rest, readings = before ++ reading :: rest →
    finishesOn before reading = true → ∃ front held, Evidence (before ++ [reading]) front held
  stays : ∀ before reading part rest, readings = before ++ reading :: (part ++ rest) →
    finishesOn before reading = true → after (before ++ reading :: part) = .finished
  once : ∀ before reading part later rest,
    readings = before ++ reading :: (part ++ later :: rest) →
    finishesOn before reading = true → finishesOn (before ++ reading :: part) later = false

/-- Since it was last begun a charge is taken for finished on evidence alone, and once, exactly where
no reading that has dropped finishes one found high. -/
theorem onEvidence_iff (readings : List Timed) :
    OnEvidence readings ↔ ∀ before reading rest, readings = before ++ reading :: rest →
      Rests (after before) reading := by
  have hends {before part : List Timed} {reading : Timed}
      (hfinishes : finishesOn before reading = true) :
      after (before ++ reading :: part) = .finished := by
    have hfinished : after (before ++ [reading]) = .finished := by
      rw [after_append]
      exact (observe_snd.mp hfinishes).2
    simpa using after_finished hfinished part
  constructor
  · intro h before reading rest hparts since low high hholding hlow hstill
    by_contra hlong
    have hfinishes : finishesOn before reading = true := by
      rw [finishesOn, hholding, observe_snd]
      exact ⟨nofun, observe_finished hlow hstill (not_lt.mp hlong)⟩
    obtain ⟨front, held, hevidence⟩ := h.evidence before reading rest hparts hfinishes
    obtain ⟨part, rest, peak, hbefore, hpeak, -⟩ := hevidence.reached hlow
    rw [hbefore] at hholding
    exact (after_ne_found hpeak rest).2 since low high hholding
  · intro hrests
    refine ⟨fun before reading rest hparts hfinishes => ?_,
      fun before reading part rest hparts hfinishes => hends hfinishes,
      fun before reading part later rest hparts hfinishes => ?_⟩
    · exact evidence_of_finishesOn hfinishes (hrests before reading rest hparts)
    · rw [finishesOn, hends hfinishes]
      rfl

end Readings

/-- A charge found high is taken for finished on a reading that has dropped. -/
theorem not_onEvidence :
    ¬ ∀ readings : List Timed, readings.Pairwise (fun one other => one.time ≤ other.time) →
      OnEvidence readings := by
  intro hall
  have h := hall [⟨0, 415 / 100⟩, ⟨secs 300, 4149 / 1000⟩] (by simp)
  obtain ⟨front, held, hevidence⟩ := h.evidence [⟨0, 415 / 100⟩] ⟨secs 300, 4149 / 1000⟩ [] rfl
    (by decide +kernel)
  obtain ⟨part, rest, peak, hparts, -, one, hone, habove⟩ :=
    hevidence.reached (by norm_num [restingVolts])
  have hmem : one ∈ [(⟨0, 415 / 100⟩ : Timed)] := hparts ▸ List.mem_append_left _ hone
  rw [List.mem_singleton.mp hmem] at habove
  norm_num [terminationVolts] at habove

end Bliti.Facts.Power
