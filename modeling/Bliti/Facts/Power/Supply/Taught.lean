import Bliti.Facts.Power.Learn.Kept
import Bliti.Facts.Power.Supply.Sightings
import Bliti.Library.Transition

/-!
# The backup supply - what runs and charges teach

The run and the charge being recorded follow the looks that saw whether external power reaches the
board, and the shutdowns begun.

Main results:

- Theorem `following_teaches`: the runs in which the charge a charge begins at is known refine
  nothing else.
-/

namespace Bliti.Facts.Power

open Learn (fromCharge fromRun)

/-! ## A supply and what happens to it -/

/-- A supply, and what has happened to it, the last first. -/
structure Followed where
  supply : State
  past : List Happening

namespace Followed

/-- A supply nothing has happened to. -/
def new (disk : Disk) : Followed where
  supply := .new disk
  past := []

/-- Something happens to the supply. -/
def take (doubles : Doubles) (w : Followed) (happening : Happening) : Followed where
  supply :=
    match happening with
    | .look look now atMillis uptime saves =>
        (w.supply.observe doubles look now atMillis uptime saves).1
    | .shutdown fails => (w.supply.learnFromRun doubles fails).settle
  past := happening :: w.past

/-- The document in force, or the one on the disk where no gauge has answered. -/
def inForce (doubles : Doubles) (w : Followed) : Document :=
  w.supply.document.getD (w.supply.disk.load doubles).document

/-- What may be refined of a document in force, and from what: the discharging curve when a shutdown
begins, the first since external power was last seen to go, from the looks that saw it absent since;
and the charging curve at a look where a charge finishes, from the looks that saw external power
present since it was seen to return, and from the charge the discharging curve gives at the last
voltage read before. -/
structure Teaches (doubles : Doubles) (w : Followed) (happening : Happening) (old new : Document) :
    Prop where
  discharging : new.discharging ≠ old.discharging →
    (∃ fails, happening = .shutdown fails) ∧ absences w.past ≠ [] ∧ begun w.past = false ∧
      ∃ fromFull curve, new.discharging = curve.rounded ∧
        fromRun doubles old.discharging fromFull (recordingOf (absences w.past)).samples = .ok curve
  charging : new.charging ≠ old.charging →
    ∃ sighting last curve, happening.sighting = some sighting ∧ sighting.external = true ∧
      (w.supply.full.observe sighting.now sighting.volts).2 = true ∧ presences w.past ≠ [] ∧
      lastAbsence w.past = some last ∧ new.charging = some curve.rounded ∧
      fromCharge doubles old.charging (old.discharging.chargeAt last.volts) old.floorCharge
        (recordingOf (presences w.past)).samples
        (sighting.now - (recordingOf (presences w.past)).began - hold) = .ok curve

/-- Where external power is seen to return, the run it ends is still recorded: no shutdown has begun
since power was seen to go, and no more looks saw it absent than a recording holds; or the cell reads
as it did at the last of them. -/
def Known (w : Followed) (happening : Happening) : Prop :=
  ∀ sighting ∈ happening.sighting, ∀ last ∈ (absences w.past).head?, sighting.external = true →
    begun w.past = false ∧ (absences w.past).length ≤ recorded ∨ sighting.volts = last.volts

end Followed

/-- Whether the charge a charge begins at is known is decidable. -/
instance (w : Followed) (happening : Happening) : Decidable (w.Known happening) :=
  inferInstanceAs (Decidable (∀ sighting ∈ happening.sighting, ∀ last ∈ (absences w.past).head?,
    sighting.external = true →
      begun w.past = false ∧ (absences w.past).length ≤ recorded ∨ sighting.volts = last.volts))

/-- A supply whose curves are kept on a disk, looked at and shut down in any order. -/
def following (doubles : Doubles) (disk : Disk) : Transition.System Followed Happening where
  init w := w = .new disk
  step w happening w' := w' = w.take doubles happening
/-! ## The run and the charge follow the looks -/

namespace Followed

/-- The run being recorded is of the looks that saw power absent since it was seen to go, where no
shutdown has begun since and it is not too long; and a charge being recorded is of those that saw it
present since it was seen to return. -/
structure Follows (w : Followed) : Prop where
  external : w.supply.record.external = (sightings w.past).head?.map Sighting.external
  run : w.supply.run.map Run.recording = runOf w.past
  charge : ∀ charge ∈ w.supply.charge, charge.recording = recordingOf (presences w.past) ∧
    presences w.past ≠ [] ∧ (lastAbsence w.past).isSome
  managed : w.supply.document = none → w.supply.charge = none

variable {doubles : Doubles} {w : Followed}

/-- A supply nothing has happened to has nothing recorded. -/
theorem new_follows (disk : Disk) : Follows (.new disk) where
  external := rfl
  run := rfl
  charge := nofun
  managed := fun _ => rfl

/-- A look that answered is one whose gauge and power line both did. -/
theorem sighting_look {look : Look} {now : Duration} {atMillis : ℕ} {uptime : Option Duration}
    {saves : Saves} {sighting : Sighting}
    (hsighting : (Happening.look look now atMillis uptime saves).sighting = some sighting) :
    ∃ gauge, look.gauge = .ok gauge ∧ look.external = some sighting.external ∧
      gauge.volts = sighting.volts ∧ now = sighting.now := by
  unfold Happening.sighting at hsighting
  dsimp only at hsighting
  split at hsighting
  · rename_i gauge external hgauge hexternal
    cases hsighting
    exact ⟨gauge, hgauge, hexternal, rfl, rfl⟩
  · cases hsighting

/-- A look that did not answer is one whose gauge or power line did not. -/
theorem sighting_none {look : Look} {now : Duration} {atMillis : ℕ} {uptime : Option Duration}
    {saves : Saves}
    (hsighting : (Happening.look look now atMillis uptime saves).sighting = none) :
    look.external = none ∨ ∃ unanswered, look.gauge = .error unanswered := by
  unfold Happening.sighting at hsighting
  rcases hgauge : look.gauge with unanswered | gauge
  · exact .inr ⟨unanswered, rfl⟩
  · rcases hexternal : look.external with _ | external
    · exact .inl rfl
    · simp [hgauge, hexternal] at hsighting

/-- A charge is recorded only where the last look that answered saw power present. -/
theorem Follows.charging (hfollows : w.Follows) {charge : Charge}
    (hcharge : w.supply.charge = some charge) :
    w.supply.record.external = some true ∧ absences w.past = [] := by
  obtain ⟨-, hpresences, -⟩ := hfollows.charge charge hcharge
  have hpresent := (head?_presences w.past).mpr hpresences
  refine ⟨hfollows.external.trans hpresent, ?_⟩
  by_contra habsences
  rw [(head?_absences w.past).mpr habsences] at hpresent
  cases hpresent

/-- A look that sees power absent is followed. -/
theorem Follows.absent (hfollows : w.Follows) {look : Look} {now : Duration} {atMillis : ℕ}
    {uptime : Option Duration} {saves : Saves} {sighting : Sighting}
    (hsighting : (Happening.look look now atMillis uptime saves).sighting = some sighting)
    (habsent : sighting.external = false) :
    Follows (w.take doubles (.look look now atMillis uptime saves)) := by
  obtain ⟨gauge, hgauge, hexternal, hvolts, rfl⟩ := sighting_look hsighting
  rw [habsent] at hexternal
  obtain ⟨hrecord, hrun, hcharge⟩ := State.observe_absent doubles _ gauge hgauge hexternal w.supply
    atMillis uptime saves
  have hnone : (w.supply.observe doubles look sighting.now atMillis uptime saves).1.charge = none := by
    rw [hcharge]
    split_ifs with hpresent
    · rfl
    · rcases hheld : w.supply.charge with _ | charge
      · rfl
      · exact absurd (hfollows.charging hheld).1 hpresent
  refine ⟨?_, ?_, ?_, fun _ => hnone⟩
  · change (w.supply.observe doubles look sighting.now atMillis uptime saves).1.record.external = _
    rw [hrecord, take, sightings_some hsighting, List.head?_cons, Option.map_some, habsent]
  · change (w.supply.observe doubles look sighting.now atMillis uptime saves).1.run.map _ = _
    rw [hrun, take, runOf_absent hsighting habsent, hvolts, hfollows.external, hfollows.run]
    by_cases hfirst : absences w.past = []
    · rw [if_neg ((head?_absences w.past).not.mpr (not_not.mpr hfirst)), if_pos hfirst]
    · rw [if_pos ((head?_absences w.past).mpr hfirst), if_neg hfirst]
  · intro charge hheld
    rw [take, Option.mem_def, hnone] at hheld
    cases hheld

/-- A look that sees power present is followed. -/
theorem Follows.present (hfollows : w.Follows) {look : Look} {now : Duration} {atMillis : ℕ}
    {uptime : Option Duration} {saves : Saves} {sighting : Sighting}
    (hsighting : (Happening.look look now atMillis uptime saves).sighting = some sighting)
    (hpresent : sighting.external = true) :
    Follows (w.take doubles (.look look now atMillis uptime saves)) := by
  obtain ⟨gauge, hgauge, hexternal, hvolts, rfl⟩ := sighting_look hsighting
  rw [hpresent] at hexternal
  obtain ⟨hrecord, hrun, hcharge⟩ := State.observe_present doubles _ gauge hgauge hexternal w.supply
    atMillis uptime saves
  obtain ⟨habsences, hpresences, hlast⟩ := present_some w.past hsighting hpresent
  refine ⟨?_, ?_, ?_, ?_⟩
  · change (w.supply.observe doubles look sighting.now atMillis uptime saves).1.record.external = _
    rw [hrecord, take, sightings_some hsighting, List.head?_cons, Option.map_some, hpresent]
  · change (w.supply.observe doubles look sighting.now atMillis uptime saves).1.run.map _ = _
    rw [hrun, take, runOf_none (.inl habsences), hfollows.external]
    split_ifs with hgone
    · rfl
    · have hnone := (head?_absences w.past).not.mp hgone
      rw [hfollows.run, runOf_none (.inl (not_not.mp hnone))]
  · intro charge hheld
    change (w.supply.observe doubles look sighting.now atMillis uptime saves).1.charge = some charge
      at hheld
    rw [hcharge, hvolts, hfollows.external] at hheld
    obtain ⟨before, hbefore, hpushed⟩ := Option.bind_eq_some_iff.mp hheld
    obtain ⟨recording, hpush, rfl⟩ := Option.map_eq_some_iff.mp hpushed
    rw [take, hpresences, hlast]
    refine ⟨?_, List.cons_ne_nil _ _, ?_⟩
    · by_cases hgone : (sightings w.past).head?.map Sighting.external = some false
      · -- The look at which power returned is the first of the charge.
        rw [if_pos hgone] at hbefore
        cases hbefore
        have hnone : presences w.past = [] := by
          by_contra hsome
          rw [(head?_presences w.past).mpr hsome] at hgone
          cases hgone
        rw [new_push sighting, Option.some.injEq] at hpush
        rw [hnone, ← hpush]
      · rw [if_neg hgone] at hbefore
        split_ifs at hbefore
        obtain ⟨hrecording, hsome, -⟩ := hfollows.charge before hbefore
        rw [hrecording, recordingOf_push hsome] at hpush
        split_ifs at hpush
        cases hpush
        rfl
    · by_cases hgone : (sightings w.past).head?.map Sighting.external = some false
      · have hsome := (head?_absences w.past).mp hgone
        obtain ⟨first, rest, hfirst⟩ := List.exists_cons_of_ne_nil hsome
        have hhead : (absences w.past).head? = some first := by rw [hfirst, List.head?_cons]
        rw [lastAbsence_of_absences hhead]
        rfl
      · rw [if_neg hgone] at hbefore
        split_ifs at hbefore
        exact (hfollows.charge before hbefore).2.2
  · intro hnone
    rcases State.observe_document doubles sighting.now hgauge w.supply atMillis uptime saves with
      hmanaged | ⟨-, -, _, new, _, -, hnew, -⟩
    · rw [take, hmanaged] at hnone
      cases hnone
    · rw [take, hnew] at hnone
      cases hnone

theorem Follows.unread (hfollows : w.Follows) {look : Look} {now : Duration} {atMillis : ℕ}
    {uptime : Option Duration} {saves : Saves}
    (hsighting : (Happening.look look now atMillis uptime saves).sighting = none) :
    Follows (w.take doubles (.look look now atMillis uptime saves)) := by
  have hunread := sighting_none hsighting
  obtain ⟨hrecord, hrun, hcharge⟩ := State.observe_unread doubles now hunread w.supply atMillis uptime
    saves
  have hbegun : begun (.look look now atMillis uptime saves :: w.past) = begun w.past := by
    simp [begun, hsighting]
  refine ⟨?_, ?_, ?_, ?_⟩
  · change (w.supply.observe doubles look now atMillis uptime saves).1.record.external = _
    rw [hrecord, take, sightings_none hsighting, hfollows.external]
  · change (w.supply.observe doubles look now atMillis uptime saves).1.run.map _ = _
    rw [hrun, take, hfollows.run]
    unfold runOf
    rw [absences_none hsighting, hbegun]
  · intro charge hheld
    rw [take, presences_none hsighting, lastAbsence_none hsighting]
    exact hfollows.charge charge (hcharge ▸ hheld)
  · intro hnone
    change (w.supply.observe doubles look now atMillis uptime saves).1.charge = none
    rw [hcharge]
    apply hfollows.managed
    rcases hgauge : look.gauge with unanswered | gauge
    · obtain ⟨seen, hobserve⟩ := State.observe_error doubles now hgauge w.supply atMillis uptime saves
      rw [take, hobserve] at hnone
      exact hnone
    · rcases State.observe_document doubles now hgauge w.supply atMillis uptime saves with
        hmanaged | ⟨-, -, _, new, _, -, hnew, -⟩
      · rw [take, hmanaged] at hnone
        cases hnone
      · rw [take, hnew] at hnone
        cases hnone

theorem Follows.shutdown (hfollows : w.Follows) (fails : Option SaveFault) :
    Follows (w.take doubles (.shutdown fails)) := by
  obtain ⟨_, _, _, hlearnt⟩ := w.supply.learnFromRun_curves doubles fails
  have hsighting : (Happening.shutdown fails).sighting = none := rfl
  refine ⟨?_, ?_, ?_, ?_⟩
  · rw [take, sightings_none hsighting, ← hfollows.external]
    dsimp only
    rw [hlearnt]
    rfl
  · rw [take, runOf_none]
    · dsimp only
      rw [hlearnt]
      rfl
    · rw [absences_none hsighting]
      by_cases hnone : absences w.past = []
      · exact .inl hnone
      · right
        simp [begun, hnone]
  · intro charge hheld
    rw [take, presences_none hsighting, lastAbsence_none hsighting]
    apply hfollows.charge
    rw [take, hlearnt] at hheld
    exact hheld
  · intro hnone
    have hkept : w.supply.document = none := by
      rcases w.supply.learnFromRun_document doubles fails with hkept | ⟨_, _, new, _, -, -, hnew, -⟩
      · exact hkept ▸ hnone
      · exact absurd (hnew.symm.trans hnone) (by simp)
    rw [take]
    dsimp only
    rw [hlearnt]
    exact hfollows.managed hkept

/-- Whatever happens is followed. -/
theorem Follows.take (hfollows : w.Follows) (happening : Happening) :
    (w.take doubles happening).Follows := by
  cases happening with
  | look look now atMillis uptime saves =>
      rcases hsighting : (Happening.look look now atMillis uptime saves).sighting with _ | sighting
      · exact hfollows.unread hsighting
      · cases hexternal : sighting.external with
        | false => exact hfollows.absent hsighting hexternal
        | true => exact hfollows.present hsighting hexternal
  | shutdown fails => exact hfollows.shutdown fails

/-! ## The charge a charge begins at -/

/-- A charge being recorded begins at the charge the discharging curve gives at the last voltage read
with power absent. -/
def Anchored (w : Followed) : Prop :=
  ∀ charge ∈ w.supply.charge, ∀ document ∈ w.supply.document, ∀ last ∈ lastAbsence w.past,
    charge.anchor = document.discharging.chargeAt last.volts

/-- What happens leaves the charges known where it leaves the charge, the discharging curve and the
last look that saw power absent. -/
theorem Anchored.kept (hanchored : w.Anchored) {w' : Followed}
    (hcharge : ∀ charge ∈ w'.supply.charge, ∃ before ∈ w.supply.charge,
      charge.anchor = before.anchor)
    (hdocument : ∀ charge ∈ w'.supply.charge, w'.supply.document = w.supply.document)
    (hlast : lastAbsence w'.past = lastAbsence w.past) : w'.Anchored := by
  intro charge hheld document hforce last hlast'
  obtain ⟨before, hbefore, hanchor⟩ := hcharge charge hheld
  rw [hdocument charge hheld] at hforce
  rw [hlast] at hlast'
  rw [hanchor]
  exact hanchored before hbefore document hforce last hlast'

/-- Where a document is in force, a look at which no charge finishes leaves it. -/
theorem observe_keeps {s : State} {look : Look} {now : Duration} {atMillis : ℕ}
    {uptime : Option Duration} {saves : Saves} (hforce : s.document ≠ none)
    (hgoes : ∀ gauge, look.gauge = .ok gauge → look.external = some true →
      (s.full.observe now gauge.volts).2 = false ∨ s.charge = none) :
    (s.observe doubles look now atMillis uptime saves).1.document = s.document := by
  obtain ⟨document, hdocument⟩ := Option.ne_none_iff_exists'.mp hforce
  rcases hgauge : look.gauge with unanswered | gauge
  · obtain ⟨seen, hobserve⟩ := State.observe_error doubles now hgauge s atMillis uptime saves
    rw [hobserve]
    rfl
  · rcases State.observe_document doubles now hgauge s atMillis uptime saves with
      hmanaged | ⟨hpresent, hfinishes, charge, _, _, hcharge, -⟩
    · rw [hmanaged, hdocument]
      rfl
    · rcases hgoes gauge hgauge hpresent with hnot | hnone
      · rw [hnot] at hfinishes
        cases hfinishes
      · rw [hnone] at hcharge
        cases hcharge

/-- Where power is seen to return at a look its charge is known at, the run it ends ends at the last
look that saw power absent, or the cell reads as it did there. -/
theorem Follows.returned (hfollows : w.Follows) {happening : Happening} {sighting last : Sighting}
    (hknown : w.Known happening) (hsighting : happening.sighting = some sighting)
    (hpresent : sighting.external = true) (hlast : (absences w.past).head? = some last) :
    (w.supply.run.bind fun run => run.recording.last).getD sighting.volts = last.volts := by
  have hrun : (w.supply.run.bind fun run => run.recording.last) =
      (runOf w.past).bind Recording.last := by
    rw [← hfollows.run]
    cases w.supply.run with
    | none => rfl
    | some run => rfl
  rw [hrun]
  unfold runOf
  split_ifs with hkept
  · rw [Option.bind_some, recordingOf_last, hlast]
    rfl
  · rcases hknown sighting hsighting last hlast hpresent with ⟨hnot, hlong⟩ | hsame
    · refine absurd ⟨?_, hnot, hlong⟩ hkept
      rintro hnone
      rw [hnone] at hlast
      cases hlast
    · exact hsame

/-- A look that sees power present anchors the charge it begins, where the charge it begins at is
known, and leaves one already begun anchored. -/
theorem Anchored.present (hanchored : w.Anchored) (hfollows : w.Follows) {look : Look}
    {now : Duration} {atMillis : ℕ} {uptime : Option Duration} {saves : Saves} {sighting : Sighting}
    (hknown : w.Known (.look look now atMillis uptime saves))
    (hsighting : (Happening.look look now atMillis uptime saves).sighting = some sighting)
    (hpresent : sighting.external = true) :
    (w.take doubles (.look look now atMillis uptime saves)).Anchored := by
  obtain ⟨gauge, hgauge, hexternal, hvolts, rfl⟩ := sighting_look hsighting
  rw [hpresent] at hexternal
  obtain ⟨-, -, hcharge⟩ := State.observe_present doubles _ gauge hgauge hexternal w.supply atMillis
    uptime saves
  have hlast' : lastAbsence (_ :: w.past) = lastAbsence w.past :=
    (present_some w.past hsighting hpresent).2.2
  rw [hvolts, hfollows.external] at hcharge
  by_cases hgone : (sightings w.past).head?.map Sighting.external = some false
  · intro charge hheld document hforce last hlast
    change (w.supply.observe doubles look sighting.now atMillis uptime saves).1.charge = some charge
      at hheld
    change (w.supply.observe doubles look sighting.now atMillis uptime saves).1.document =
      some document at hforce
    rw [hcharge, if_pos hgone, hforce, Option.bind_some] at hheld
    obtain ⟨first, rest, hfirst⟩ := List.exists_cons_of_ne_nil ((head?_absences w.past).mp hgone)
    have hhead : (absences w.past).head? = some first := by rw [hfirst, List.head?_cons]
    rw [Followed.take, hlast', lastAbsence_of_absences hhead] at hlast
    cases hlast
    obtain ⟨recording, -, rfl⟩ := Option.map_eq_some_iff.mp hheld
    change document.discharging.chargeAt ((w.supply.run.bind fun run =>
      run.recording.last).getD sighting.volts) = _
    rw [hfollows.returned hknown hsighting hpresent hhead]
  · rw [if_neg hgone] at hcharge
    have hbegan : ∀ charge, (w.supply.observe doubles look sighting.now atMillis uptime
        saves).1.charge = some charge → (w.supply.full.observe sighting.now sighting.volts).2 = false ∧
          ∃ before ∈ w.supply.charge, charge.anchor = before.anchor := by
      intro charge hheld
      rw [hcharge] at hheld
      obtain ⟨before, hbefore, hpushed⟩ := Option.bind_eq_some_iff.mp hheld
      obtain ⟨recording, -, rfl⟩ := Option.map_eq_some_iff.mp hpushed
      split_ifs at hbefore with hfinishes
      exact ⟨Bool.eq_false_iff.mpr hfinishes, before, hbefore, rfl⟩
    refine hanchored.kept (fun charge hheld => (hbegan charge hheld).2) ?_ hlast'
    intro charge hheld
    obtain ⟨hnot, before, hbefore, -⟩ := hbegan charge hheld
    apply observe_keeps
    · intro hnone
      rw [hfollows.managed hnone] at hbefore
      cases hbefore
    · intro gauge' hgauge' _
      rw [hgauge] at hgauge'
      cases hgauge'
      rw [hvolts]
      exact .inl hnot

/-- Where the charge it begins at is known, a charge is anchored there. -/
theorem Anchored.take (hanchored : w.Anchored) (hfollows : w.Follows) {happening : Happening}
    (hknown : w.Known happening) : (w.take doubles happening).Anchored := by
  have hforced : ∀ charge ∈ w.supply.charge, w.supply.document ≠ none := by
    intro charge hcharge hnone
    rw [hfollows.managed hnone] at hcharge
    cases hcharge
  cases happening with
  | shutdown fails =>
      obtain ⟨_, _, _, hlearnt⟩ := w.supply.learnFromRun_curves doubles fails
      have hcharge : (w.take doubles (.shutdown fails)).supply.charge = w.supply.charge := by
        rw [Followed.take]
        dsimp only
        rw [hlearnt]
        rfl
      refine hanchored.kept (fun charge hheld => ⟨charge, hcharge ▸ hheld, rfl⟩) ?_
        (lastAbsence_none rfl)
      intro charge hheld
      rw [hcharge] at hheld
      rcases w.supply.learnFromRun_document doubles fails with hkept | ⟨run, _, _, _, hrun, -⟩
      · exact hkept
      · -- A charge is recorded only once the run has ended.
        have hnone := hfollows.run
        rw [hrun, runOf_none (.inl (hfollows.charging hheld).2)] at hnone
        cases hnone
  | look look now atMillis uptime saves =>
      rcases hsighting : (Happening.look look now atMillis uptime saves).sighting with _ | sighting
      · have hunread := sighting_none hsighting
        obtain ⟨-, -, hcharge⟩ := State.observe_unread doubles now hunread w.supply atMillis uptime
          saves
        refine hanchored.kept (fun charge hheld => ⟨charge, hcharge ▸ hheld, rfl⟩) ?_
          (lastAbsence_none hsighting)
        intro charge hheld
        apply observe_keeps (hforced charge (hcharge ▸ hheld))
        intro gauge hgauge hpresent
        rcases hunread with hnone | ⟨unanswered, herror⟩
        · rw [hnone] at hpresent
          cases hpresent
        · rw [hgauge] at herror
          cases herror
      · cases hexternal : sighting.external with
        | true => exact hanchored.present hfollows hknown hsighting hexternal
        | false =>
            intro charge hheld
            have hnext : (w.take doubles (.look look now atMillis uptime saves)).Follows :=
              hfollows.absent hsighting hexternal
            have hsome := (hnext.charge charge hheld).2.1
            exact absurd (absent_some w.past hsighting hexternal).2.1 hsome

/-! ## What is refined -/

/-- A shutdown refines the discharging curve alone, from the run still recorded. -/
theorem Follows.teaches_shutdown (hfollows : w.Follows) {fails : Option SaveFault} {new : Document}
    (hnew : (w.take doubles (.shutdown fails)).supply.document = some new) :
    w.Teaches doubles (.shutdown fails) (w.inForce doubles) new := by
  change (w.supply.learnFromRun doubles fails).document = some new at hnew
  unfold inForce
  rcases w.supply.learnFromRun_document doubles fails with
    hkept | ⟨run, old, new', curve, hrun, hold, hnew', hrefines⟩
  · rw [hnew] at hkept
    rw [← hkept]
    exact ⟨fun hchanged => absurd rfl hchanged, fun hchanged => absurd rfl hchanged⟩
  · rw [hnew] at hnew'
    cases hnew'
    rw [hold]
    refine ⟨fun _ => ?_, fun hchanged => absurd hrefines.charging hchanged⟩
    have hrecorded : runOf w.past = some run.recording := by
      rw [← hfollows.run, hrun]
      rfl
    have hlearnt := hrefines.learnt
    unfold runOf at hrecorded
    split_ifs at hrecorded with hkept
    obtain ⟨habsences, hbegun, -⟩ := hkept
    rw [← Option.some.inj hrecorded] at hlearnt
    exact ⟨⟨fails, rfl⟩, habsences, hbegun, run.fromFull, curve, hrefines.discharging, hlearnt⟩

/-- A look refines the charging curve alone, where a charge finishes at it. -/
theorem Follows.teaches_look (hfollows : w.Follows) (hanchored : w.Anchored) {look : Look}
    {now : Duration} {atMillis : ℕ} {uptime : Option Duration} {saves : Saves} {new : Document}
    (hnew : (w.take doubles (.look look now atMillis uptime saves)).supply.document = some new) :
    w.Teaches doubles (.look look now atMillis uptime saves) (w.inForce doubles) new := by
  have hsame : new = w.inForce doubles →
      w.Teaches doubles (.look look now atMillis uptime saves) (w.inForce doubles) new := by
    rintro rfl
    exact ⟨fun hchanged => absurd rfl hchanged, fun hchanged => absurd rfl hchanged⟩
  change (w.supply.observe doubles look now atMillis uptime saves).1.document = some new at hnew
  rcases hgauge : look.gauge with unanswered | gauge
  · obtain ⟨seen, hobserve⟩ := State.observe_error doubles now hgauge w.supply atMillis uptime saves
    rw [hobserve] at hnew
    change w.supply.document = some new at hnew
    apply hsame
    rw [inForce, hnew, Option.getD_some]
  · rcases State.observe_document doubles now hgauge w.supply atMillis uptime saves with
      hmanaged | ⟨hpresent, hfinishes, charge, new', curve, hcharge, hnew', hrefines⟩
    · rw [hnew] at hmanaged
      exact hsame (Option.some.inj hmanaged)
    · rw [hnew] at hnew'
      cases hnew'
      obtain ⟨hrecording, hpresences, hreturned⟩ := hfollows.charge charge hcharge
      obtain ⟨last, hlast⟩ := Option.isSome_iff_exists.mp hreturned
      refine ⟨fun hchanged => absurd hrefines.discharging hchanged, fun _ => ?_⟩
      have hforce : w.supply.document = some (w.inForce doubles) := by
        rcases hdocument : w.supply.document with _ | document
        · rw [hfollows.managed hdocument] at hcharge
          cases hcharge
        · rw [inForce, hdocument, Option.getD_some]
      have hlearnt := hrefines.learnt
      rw [hanchored charge hcharge _ hforce last hlast, hrecording] at hlearnt
      refine ⟨{ now := now, volts := gauge.volts, external := true }, last, curve, ?_, rfl, hfinishes,
        hpresences, hlast, hrefines.charging, hlearnt⟩
      simp [Happening.sighting, hgauge, hpresent]

end Followed

/-- In the runs in which, at each look where power is seen to return, the charge a charge begins at
is known, a shutdown refines the discharging curve alone, from the looks that saw power absent since
it was last seen to go, once; and a look refines the charging curve alone, where a charge that began
as power returned finishes, from the charge the discharging curve gives at the last voltage read with
power absent. -/
theorem following_teaches {doubles : Doubles} {disk : Disk} {w : Followed}
    (hreach : ((following doubles disk).guarded Followed.Known).Reachable w)
    (happening : Happening) {new : Document}
    (hnew : (w.take doubles happening).supply.document = some new) :
    w.Teaches doubles happening (w.inForce doubles) new := by
  have hfollows : ∀ {w}, ((following doubles disk).guarded Followed.Known).Reachable w →
      w.Follows := by
    intro w hreach
    refine hreach.invariant ?_ ?_
    · rintro w rfl
      exact Followed.new_follows disk
    · rintro w happening w' - hfollows ⟨-, rfl⟩
      exact hfollows.take happening
  have hanchored : w.Anchored := by
    refine hreach.invariant ?_ ?_
    · rintro w rfl
      intro charge hcharge
      cases hcharge
    · rintro w happening w' hreach hanchored ⟨hknown, rfl⟩
      exact hanchored.take (hfollows hreach) hknown
  cases happening with
  | look look now atMillis uptime saves =>
      exact (hfollows hreach).teaches_look hanchored hnew
  | shutdown fails => exact (hfollows hreach).teaches_shutdown hnew

/-! ## A shutdown that failed -/

/-- A disk with no curve file. -/
def blank : Disk where
  file := .absent
  lasting := .absent

/-- A look that answered. -/
def answered (volts : ℚ) (external : Bool) (seconds : ℕ) : Happening :=
  .look { gauge := .ok { volts := volts, charge := 97 }, external := some external } (secs seconds)
    (seconds * 1000) none ⟨none, none⟩

/-- Two hours on charge, up to the last look before it finishes. -/
def onCharge : List Happening :=
  [answered (33 / 10) true 10, answered (33 / 10) true 20, answered (33 / 10) true 30,
    answered (42 / 10) true 7200, answered (42 / 10) true 7210, answered (42 / 10) true 7220,
    answered (418 / 100) true 7230]

/-- The look at which it finishes. -/
def finished : Happening :=
  answered (418 / 100) true 7540

/-- What the charge that finished would teach from the charge the discharging curve gives at the last
voltage read with power absent. -/
def fromAbsence (doubles : Doubles) (w : Followed) (now : Duration) : Option Curve :=
  (lastAbsence w.past).bind fun last =>
    let old := w.inForce doubles
    (fromCharge doubles old.charging (old.discharging.chargeAt last.volts) old.floorCharge
      (recordingOf (presences w.past)).samples
      (now - (recordingOf (presences w.past)).began - hold)).toOption.map Curve.rounded

/-- A charge that begins where the run before it ended teaches, and teaches from there. -/
theorem following_onCharge :
    ∃ w new, ((following .decimal blank).guarded Followed.Known).Reachable w ∧
      (w.take .decimal finished).supply.document = some new ∧ new.charging.isSome = true ∧
      w.Teaches .decimal finished (w.inForce .decimal) new := by
  let take (w : Followed) (happening : Happening) : Option Followed :=
    if w.Known happening then some (w.take .decimal happening) else none
  have htaught : ((Transition.System.run take (.new blank)
      (answered (27 / 10) false 0 :: onCharge)).bind fun w =>
        (w.take .decimal finished).supply.document.bind Document.charging).isSome = true := by
    decide +kernel
  obtain ⟨charging, hcharging⟩ := Option.isSome_iff_exists.mp htaught
  obtain ⟨w, hrun, hends⟩ := Option.bind_eq_some_iff.mp hcharging
  obtain ⟨new, hnew, hnewCharging⟩ := Option.bind_eq_some_iff.mp hends
  have hreach : ((following .decimal blank).guarded Followed.Known).Reachable w := by
    refine .of_run (.start rfl) ?_ hrun
    intro happening _ s s' htaken
    dsimp only [take] at htaken
    split_ifs at htaken with hknown
    exact ⟨hknown, (Option.some.inj htaken).symm⟩
  exact ⟨w, new, hreach, hnew, by rw [hnewCharging]; rfl, following_teaches hreach finished hnew⟩

/-- A charge after a shutdown that failed is anchored at the charge the discharging curve gives at the
voltage read as power returned. -/
theorem following_unknown :
    ∃ w new, (following .decimal blank).Reachable w ∧
      (w.take .decimal finished).supply.document = some new ∧
      ¬w.Teaches .decimal finished (w.inForce .decimal) new := by
  let take (w : Followed) (happening : Happening) : Option Followed :=
    some (w.take .decimal happening)
  have htaught : ((Transition.System.run take (.new blank)
      (answered (27 / 10) false 0 :: .shutdown none :: onCharge)).any fun w =>
        (w.take .decimal finished).supply.document.any fun new =>
          new.charging ≠ (w.inForce .decimal).charging ∧
            new.charging ≠ fromAbsence .decimal w (secs 7540)) = true := by
    decide +kernel
  obtain ⟨w, hrun, hends⟩ := (Option.any_eq_true _ _).mp htaught
  obtain ⟨new, hnew, hother⟩ := (Option.any_eq_true _ _).mp hends
  obtain ⟨hchanged, hunlike⟩ := of_decide_eq_true hother
  have hreach : (following .decimal blank).Reachable w := by
    refine .of_run (.start rfl) ?_ hrun
    intro happening _ s s' htaken
    exact (Option.some.inj htaken).symm
  refine ⟨w, new, hreach, hnew, fun hteaches => hunlike ?_⟩
  obtain ⟨sighting, last, curve, hsighting, -, -, -, hlast, hcharging, hlearnt⟩ :=
    hteaches.charging hchanged
  cases hsighting
  rw [hcharging, fromAbsence, hlast]
  dsimp only [Option.bind_some]
  rw [hlearnt]
  rfl

end Bliti.Facts.Power
