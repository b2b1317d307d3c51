import Bliti.Facts.Power.Supply.Documents

/-!
# The backup supply - the looks that answered

What has happened to a supply, as far as what it teaches goes: the looks that saw whether external
power reaches the board, and the shutdowns begun; and what such a look moves.
-/

namespace Bliti.Facts.Power

/-! ## What has happened -/

/-- What happens to a supply: a look, or a low-battery shutdown begun. -/
inductive Happening where
  | look (look : Look) (now : Duration) (atMillis : ℕ) (uptime : Option Duration) (saves : Saves)
  | shutdown (fails : Option SaveFault)

/-- A look at which the gauge and the power line both answered: when, the cell voltage, and whether
external power reached the board. -/
structure Sighting where
  now : Duration
  volts : ℚ
  external : Bool
deriving DecidableEq

/-- What a look saw, where the gauge and the power line both answered. -/
def Happening.sighting : Happening → Option Sighting
  | .look taken now _ _ _ =>
      match taken.gauge, taken.external with
      | .ok gauge, some external => some { now := now, volts := gauge.volts, external := external }
      | _, _ => none
  | .shutdown _ => none

/-- What looks have seen, the last first. -/
def sightings (past : List Happening) : List Sighting :=
  past.filterMap Happening.sighting

/-- The looks that saw external power absent since it was last seen to go, or since the first, the
last first. -/
def absences (past : List Happening) : List Sighting :=
  (sightings past).takeWhile fun sighting => !sighting.external

/-- The looks that saw external power present since it was last seen to return, or since the first,
the last first. -/
def presences (past : List Happening) : List Sighting :=
  (sightings past).takeWhile Sighting.external

/-- The last look that saw external power absent. -/
def lastAbsence (past : List Happening) : Option Sighting :=
  (sightings past).find? fun sighting => !sighting.external

/-- A shutdown has begun since external power was last seen to go. -/
def begun : List Happening → Bool
  | [] => false
  | .shutdown _ :: past => !(absences past).isEmpty
  | happening :: past => (happening.sighting.all fun sighting => !sighting.external) && begun past

/-- The recording of some looks, the last first. -/
def recordingOf (seen : List Sighting) : Recording where
  began := (seen.getLast?.map Sighting.now).getD 0
  samples := seen.reverse.map fun sighting =>
    (sighting.now - (seen.getLast?.map Sighting.now).getD 0, sighting.volts)

/-- The run on battery still recorded: of the looks that saw power absent since it was seen to go,
where no shutdown has begun since and they are not too many. -/
def runOf (past : List Happening) : Option Recording :=
  if absences past ≠ [] ∧ begun past = false ∧ (absences past).length ≤ recorded then
    some (recordingOf (absences past))
  else none
/-! ## The looks that answered -/

section Past

variable {past : List Happening} {happening : Happening} {sighting : Sighting}

/-- Something other than a look that answered adds nothing to what looks have seen. -/
theorem sightings_none (hsighting : happening.sighting = none) :
    sightings (happening :: past) = sightings past :=
  List.filterMap_cons_none hsighting

/-- A look that answered is the last. -/
theorem sightings_some (hsighting : happening.sighting = some sighting) :
    sightings (happening :: past) = sighting :: sightings past :=
  List.filterMap_cons_some hsighting

/-- No shutdown has begun since power was seen to go, where it has not been. -/
theorem begun_of_absences (habsences : absences past = []) : begun past = false := by
  induction past with
  | nil => rfl
  | cons happening past ih =>
      cases happening with
      | shutdown fails =>
          rw [absences, sightings_none rfl] at habsences
          change absences past = [] at habsences
          rw [begun, habsences]
          rfl
      | look look now atMillis uptime saves =>
          simp only [begun, Bool.and_eq_false_iff]
          rcases hsighting : (Happening.look look now atMillis uptime saves).sighting with _ | sighting
          · rw [absences, sightings_none hsighting] at habsences
            exact .inr (ih habsences)
          · rw [absences, sightings_some hsighting] at habsences
            left
            cases hexternal : sighting.external with
            | false => simp [hexternal] at habsences
            | true => simp [hexternal]

/-- Something other than a look that answered leaves the looks that saw power absent as they were. -/
theorem absences_none (hsighting : happening.sighting = none) :
    absences (happening :: past) = absences past := by
  rw [absences, sightings_none hsighting, absences]

theorem presences_none (hsighting : happening.sighting = none) :
    presences (happening :: past) = presences past := by
  rw [presences, sightings_none hsighting, presences]

theorem lastAbsence_none (hsighting : happening.sighting = none) :
    lastAbsence (happening :: past) = lastAbsence past := by
  rw [lastAbsence, sightings_none hsighting, lastAbsence]

/-- A look that saw power absent is one more, and none has seen it present since. -/
theorem absent_some (past : List Happening) (hsighting : happening.sighting = some sighting)
    (habsent : sighting.external = false) :
    absences (happening :: past) = sighting :: absences past ∧ presences (happening :: past) = [] ∧
      lastAbsence (happening :: past) = some sighting := by
  simp [absences, presences, lastAbsence, sightings_some hsighting, habsent]

/-- A look that saw power present is one more, and none has seen it absent since. -/
theorem present_some (past : List Happening) (hsighting : happening.sighting = some sighting)
    (hpresent : sighting.external = true) :
    absences (happening :: past) = [] ∧ presences (happening :: past) = sighting :: presences past ∧
      lastAbsence (happening :: past) = lastAbsence past := by
  simp [absences, presences, lastAbsence, sightings_some hsighting, hpresent]

/-- The last look saw power absent where the looks since it was seen to go are any. -/
theorem head?_absences (past : List Happening) :
    (sightings past).head?.map Sighting.external = some false ↔ absences past ≠ [] := by
  unfold absences
  rcases sightings past with _ | ⟨last, rest⟩
  · simp
  · cases hexternal : last.external with
    | false => simp [hexternal]
    | true => simp [hexternal]

/-- The last look saw power present where the looks since it was seen to return are any. -/
theorem head?_presences (past : List Happening) :
    (sightings past).head?.map Sighting.external = some true ↔ presences past ≠ [] := by
  unfold presences
  rcases sightings past with _ | ⟨last, rest⟩
  · simp
  · cases hexternal : last.external with
    | false => simp [hexternal]
    | true => simp [hexternal]

/-- The last of the looks that saw power absent since it was seen to go is the last that did. -/
theorem lastAbsence_of_absences {last : Sighting} (hlast : (absences past).head? = some last) :
    lastAbsence past = some last := by
  unfold absences at hlast
  unfold lastAbsence
  rcases hsightings : sightings past with _ | ⟨first, rest⟩
  · rw [hsightings] at hlast
    cases hlast
  · rw [hsightings] at hlast
    cases hexternal : first.external with
    | false => simpa [hexternal] using hlast
    | true => simp [hexternal] at hlast

/-- A recording as it begins holds the look it began at. -/
theorem new_push (sighting : Sighting) :
    (Recording.new sighting.now).push sighting.now sighting.volts =
      some (recordingOf [sighting]) := by
  simp [Recording.new, Recording.push, recordingOf, recorded]

/-- A recording of looks extended is one of one more, up to as many as it holds. -/
theorem recordingOf_push {seen : List Sighting} (hseen : seen ≠ []) (sighting : Sighting) :
    (recordingOf seen).push sighting.now sighting.volts =
      if recorded ≤ seen.length then none else some (recordingOf (sighting :: seen)) := by
  obtain ⟨first, hfirst⟩ := Option.isSome_iff_exists.mp (List.getLast?_isSome.mpr hseen)
  have hcons : (sighting :: seen).getLast? = some first := by
    rw [List.getLast?_cons, hfirst]
    rfl
  simp only [Recording.push, recordingOf, hfirst, hcons, List.length_map, List.length_reverse,
    List.reverse_cons, List.map_append, List.map_cons, List.map_nil]

/-- The last voltage of a recording of looks is that of the last look. -/
theorem recordingOf_last (seen : List Sighting) :
    (recordingOf seen).last = seen.head?.map Sighting.volts := by
  simp [Recording.last, recordingOf, Option.map_map, Function.comp_def]

/-- A look that saw power absent adds to the run, or is the first of one. -/
theorem runOf_absent {found : Look} {now : Duration} {atMillis : ℕ} {uptime : Option Duration}
    {saves : Saves}
    (hsighting : (Happening.look found now atMillis uptime saves).sighting = some sighting)
    (habsent : sighting.external = false) :
    runOf (.look found now atMillis uptime saves :: past) =
      (if absences past = [] then some (Recording.new sighting.now) else runOf past).bind
        fun recording => recording.push sighting.now sighting.volts := by
  have hbegun : begun (.look found now atMillis uptime saves :: past) = begun past := by
    simp [begun, hsighting, habsent]
  unfold runOf
  rw [(absent_some past hsighting habsent).1, hbegun, List.length_cons]
  by_cases hfirst : absences past = []
  · rw [if_pos hfirst, hfirst, begun_of_absences hfirst]
    exact (new_push sighting).symm
  · rw [if_neg hfirst]
    by_cases hkept : begun past = false ∧ (absences past).length ≤ recorded
    · rw [if_pos (And.intro hfirst hkept), Option.bind_some, recordingOf_push hfirst]
      by_cases hfull : recorded ≤ (absences past).length
      · rw [if_pos hfull, if_neg]
        rintro ⟨-, -, hlong⟩
        omega
      · rw [if_neg hfull, if_pos]
        exact ⟨List.cons_ne_nil _ _, hkept.1, by omega⟩
    · rw [if_neg fun hall : absences past ≠ [] ∧ _ => hkept hall.2, if_neg]
      · rfl
      · rintro ⟨-, hnot, hlong⟩
        exact hkept ⟨hnot, by omega⟩

/-- No run is recorded once power is seen present, or a shutdown begins. -/
theorem runOf_none (hended : absences past = [] ∨ begun past = true) : runOf past = none := by
  unfold runOf
  rw [if_neg]
  rintro ⟨habsences, hbegun, -⟩
  rcases hended with hnone | hshutdown
  · exact habsences hnone
  · rw [hbegun] at hshutdown
    cases hshutdown

end Past
/-! ## What a look moves -/

namespace State

variable (doubles : Doubles) (now : Duration) (gauge : Gauge)

/-- A look that sees power absent starts a run where it had not, adds to it, and drops a charge where
power was present. -/
theorem line_absent (s : State) (wasFull : Bool) :
    let line := s.observeLine now gauge (some false)
    let followed := line.1.follow now line.2 (some false) gauge.volts wasFull
    followed.record.external = some false ∧
      followed.run.map Run.recording =
        ((if s.record.external = some false then s.run.map Run.recording else some (.new now)).bind
          fun recording => recording.push now gauge.volts) ∧
      followed.charge = if s.record.external = some true then none else s.charge := by
  have hmap : ∀ run : Option Run, (run.bind fun run =>
      (run.recording.push now gauge.volts).map fun recording =>
        { run with recording := recording }).map Run.recording =
      (run.map Run.recording).bind fun recording => recording.push now gauge.volts := by
    intro run
    cases run with
    | none => rfl
    | some run => simp [Option.map_map, Function.comp_def]
  unfold observeLine follow followSample followEvent Record.observe
  rcases hexternal : s.record.external with _ | _ | _
  · exact ⟨rfl, hmap (some { fromFull := false, recording := .new now }), rfl⟩
  · dsimp only
    by_cases hfallen : fallMv - 1 / 2 ≤ (s.record.reported - gauge.volts) * 1000
    · rw [if_pos hfallen]
      exact ⟨rfl, hmap s.run, rfl⟩
    · rw [if_neg hfallen]
      exact ⟨rfl, hmap s.run, rfl⟩
  · exact ⟨rfl, hmap (some { fromFull := wasFull, recording := .new now }), rfl⟩

/-- A look that sees power present drops a run where it was absent, and starts a charge from where
the run ended; and adds to the charge. -/
theorem line_present (s : State) (wasFull : Bool) :
    let line := s.observeLine now gauge (some true)
    let followed := line.1.follow now line.2 (some true) gauge.volts wasFull
    let from' := (s.run.bind fun run => run.recording.last).getD gauge.volts
    let anchor := (s.document.map fun document => document.discharging.chargeAt from').getD 0
    followed.record.external = some true ∧
      followed.run = (if s.record.external = some false then none else s.run) ∧
      followed.charge =
        (if s.record.external = some false then some { anchor := anchor, recording := .new now }
          else s.charge).bind fun charge =>
            (charge.recording.push now gauge.volts).map fun recording =>
              { charge with recording := recording } := by
  unfold observeLine follow followSample followEvent Record.observe State.document
  rcases hexternal : s.record.external with _ | _ | _
  · exact ⟨rfl, rfl, rfl⟩
  · rcases hstored : s.stored with _ | stored
    · exact ⟨rfl, rfl, rfl⟩
    · exact ⟨rfl, rfl, rfl⟩
  · exact ⟨rfl, rfl, rfl⟩

/-- A look taken in up to the power line leaves the run and the record as they were, and the charge
where it does not finish. -/
theorem full_frame (s : State) (external : Option Bool) (saves : Saves) :
    let full := (s.manage doubles).observeFull doubles now gauge external saves
    full.record = s.record ∧ full.run = s.run ∧
      full.charge = if (s.full.look now gauge.volts external).2 then none else s.charge := by
  obtain ⟨_, _, _, hmanage⟩ := s.manage_curves doubles
  obtain ⟨_, _, _, hfull⟩ := (s.manage doubles).observeFull_curves doubles now gauge
    external saves
  rw [hfull, hmanage]
  exact ⟨rfl, rfl, rfl⟩

/-- A look at which the gauge or the power line gave nothing leaves the run, the charge and the record
as they were. -/
theorem observe_unread {look : Look} (hsighting : look.external = none ∨ ∃ unanswered,
    look.gauge = .error unanswered) (s : State) (atMillis : ℕ) (uptime : Option Duration)
    (saves : Saves) :
    let looked := (s.observe doubles look now atMillis uptime saves).1
    looked.record = s.record ∧ looked.run = s.run ∧ looked.charge = s.charge := by
  rcases hgauge : look.gauge with unanswered | gauge
  · obtain ⟨seen, hobserve⟩ := observe_error doubles now hgauge s atMillis uptime saves
    rw [hobserve]
    exact ⟨rfl, rfl, rfl⟩
  · have hexternal : look.external = none := by
      rcases hsighting with hnone | ⟨unanswered, herror⟩
      · exact hnone
      · rw [hgauge] at herror
        cases herror
    obtain ⟨seen, report, hobserve⟩ := observe_ok doubles now hgauge s atMillis uptime saves
    obtain ⟨hrecord, hrun, hcharge⟩ := full_frame doubles now gauge s look.external saves
    rw [hexternal] at hobserve hrecord hrun hcharge
    rw [hobserve]
    exact ⟨hrecord, hrun, hcharge⟩

/-- A look that sees power absent. -/
theorem observe_absent {look : Look} (hgauge : look.gauge = .ok gauge)
    (hexternal : look.external = some false) (s : State) (atMillis : ℕ) (uptime : Option Duration)
    (saves : Saves) :
    let looked := (s.observe doubles look now atMillis uptime saves).1
    looked.record.external = some false ∧
      looked.run.map Run.recording =
        ((if s.record.external = some false then s.run.map Run.recording else some (.new now)).bind
          fun recording => recording.push now gauge.volts) ∧
      looked.charge = if s.record.external = some true then none else s.charge := by
  obtain ⟨seen, report, hobserve⟩ := observe_ok doubles now hgauge s atMillis uptime saves
  obtain ⟨hrecord, hrun, hcharge⟩ := full_frame doubles now gauge s (some false) saves
  have hline := line_absent now gauge
    ((s.manage doubles).observeFull doubles now gauge (some false) saves) (s.full = .finished)
  rw [hrecord, hrun, hcharge] at hline
  rw [hexternal] at hobserve
  rw [hobserve]
  exact hline

/-- A look that sees power present. -/
theorem observe_present {look : Look} (hgauge : look.gauge = .ok gauge)
    (hexternal : look.external = some true) (s : State) (atMillis : ℕ) (uptime : Option Duration)
    (saves : Saves) :
    let looked := (s.observe doubles look now atMillis uptime saves).1
    let from' := (s.run.bind fun run => run.recording.last).getD gauge.volts
    let anchor := (looked.document.map fun document => document.discharging.chargeAt from').getD 0
    looked.record.external = some true ∧
      looked.run = (if s.record.external = some false then none else s.run) ∧
      looked.charge =
        (if s.record.external = some false then some { anchor := anchor, recording := .new now }
          else if (s.full.observe now gauge.volts).2 then none else s.charge).bind fun charge =>
            (charge.recording.push now gauge.volts).map fun recording =>
              { charge with recording := recording } := by
  obtain ⟨seen, report, hobserve⟩ := observe_ok doubles now hgauge s atMillis uptime saves
  have hlooked := looked_document doubles now hgauge s atMillis uptime saves
  obtain ⟨hrecord, hrun, hcharge⟩ := full_frame doubles now gauge s (some true) saves
  have hline := line_present now gauge
    ((s.manage doubles).observeFull doubles now gauge (some true) saves) (s.full = .finished)
  rw [hexternal] at hobserve hlooked
  rw [← hlooked, hrecord, hrun, hcharge] at hline
  dsimp only at hline ⊢
  rw [hobserve] at hline ⊢
  exact hline

end State

end Bliti.Facts.Power
