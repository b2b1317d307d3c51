import Bliti.Facts.Power.Supply

/-!
# The backup supply - what each call leaves as it was

The calls on the supply's state, each by the part of it that it moves.
-/

namespace Bliti.Facts.Power

/-- Take in the power line, as far as a finished charge goes, and whether the charge finishes. -/
def Full.look (full : Full) (now : Duration) (volts : ℚ) (external : Option Bool) : Full × Bool :=
  match external with
  | some true => full.observe now volts
  | some false => (.charging, false)
  | none => (full, false)

namespace State

/-- A state differs from another in its curves and their file alone. -/
def CurvesOnly (s s' : State) : Prop :=
  ∃ disk stored curves, s' = { s with disk := disk, stored := stored, curves := curves }

variable {s s' s'' : State} (doubles : Doubles) (now : Duration)

theorem CurvesOnly.refl (s : State) : s.CurvesOnly s :=
  ⟨s.disk, s.stored, s.curves, rfl⟩

theorem CurvesOnly.trans (hfirst : s.CurvesOnly s') (hsecond : s'.CurvesOnly s'') :
    s.CurvesOnly s'' := by
  obtain ⟨_, _, _, rfl⟩ := hfirst
  obtain ⟨disk, stored, curves, rfl⟩ := hsecond
  exact ⟨disk, stored, curves, rfl⟩

/-- Putting a document in force moves the curves. -/
theorem replace_curves (s : State) (document : Document) (fails : Option SaveFault) :
    s.CurvesOnly (s.replace document fails).1 := by
  unfold replace
  split
  · exact .refl s
  · dsimp only
    split
    · exact ⟨_, s.stored, s.curves, rfl⟩
    · exact ⟨_, _, _, rfl⟩

theorem refine_curves (s : State) (which : Learn.Which) (refined : Except Invalid Document)
    (fails : Option SaveFault) : s.CurvesOnly (s.refine which refined fails) := by
  unfold State.refine
  split
  · exact .refl s
  · split
    · exact .refl s
    · exact s.replace_curves _ fails

theorem learnFromCharge_curves (s : State) (charge : Charge) (fails : Option SaveFault) :
    s.CurvesOnly (s.learnFromCharge doubles now charge fails) := by
  unfold learnFromCharge
  split
  · exact .refl s
  · dsimp only
    split
    · exact s.refine_curves _ _ fails
    · exact .refl s

/-- What a run teaches moves the curves, and the run is no longer recorded. -/
theorem learnFromRun_curves (s : State) (fails : Option SaveFault) :
    State.CurvesOnly { s with run := none } (s.learnFromRun doubles fails) := by
  unfold learnFromRun
  split
  · dsimp only
    split
    · exact refine_curves _ _ _ fails
    · exact .refl _
  · exact .refl _

/-- A charge that finishes moves the curves, and is no longer recorded. -/
theorem chargeFinished_curves (s : State) (gauge : Gauge) (saves : Saves) :
    State.CurvesOnly { s with charge := none } (s.chargeFinished doubles now gauge saves) := by
  unfold chargeFinished
  dsimp only
  split
  · rename_i charge hcharge
    refine CurvesOnly.trans ?_ (learnFromCharge_curves doubles now _ charge saves.curve)
    split
    · split
      · exact ⟨_, _, s.curves, rfl⟩
      · exact .refl _
    · exact .refl _
  · rename_i hcharge
    revert hcharge
    split
    · split
      · rename_i stored hstored hshare
        intro hcharge
        exact ⟨_, _, s.curves, by simp only at hcharge; rw [← hcharge]⟩
      · intro hcharge
        exact ⟨s.disk, s.stored, s.curves, by rw [← hcharge]⟩
    · intro hcharge
      exact ⟨s.disk, s.stored, s.curves, by rw [← hcharge]⟩

/-- Reading the curves the first time a gauge answers moves them. -/
theorem manage_curves (s : State) : s.CurvesOnly (s.manage doubles) := by
  unfold manage
  split
  · exact .refl s
  · exact ⟨s.disk, _, _, rfl⟩

/-- The power line taken in, as far as a finished charge goes, moves where a charge has got to, and
the curves; a charge that finishes is no longer recorded. -/
theorem observeFull_curves (s : State) (gauge : Gauge) (external : Option Bool) (saves : Saves) :
    State.CurvesOnly { s with
        full := (s.full.look now gauge.volts external).1
        charge := if (s.full.look now gauge.volts external).2 then none else s.charge }
      (s.observeFull doubles now gauge external saves) := by
  unfold observeFull Full.look
  rcases external with _ | _ | _
  · exact .refl _
  · exact .refl _
  · dsimp only
    rcases s.full.observe now gauge.volts with ⟨full, _ | _⟩
    · exact .refl _
    · exact chargeFinished_curves doubles now { s with full := full } gauge saves

/-- A look at which the gauge gave nothing moves what was seen and the low-battery watch. -/
theorem observe_error {look : Look} {unanswered : Unanswered} (hgauge : look.gauge = .error unanswered)
    (s : State) (atMillis : ℕ) (uptime : Option Duration) (saves : Saves) :
    ∃ seen, s.observe doubles look now atMillis uptime saves =
      ({ s with seen := seen, low := (s.low.observe now uptime look.floor).1 },
        { report := none, held := none }) := by
  have hfloor : look.floor = none := by
    unfold Look.floor
    rw [hgauge]
  unfold observe
  rw [hgauge, hfloor]
  exact ⟨_, rfl⟩

/-- A look the gauge answered: the curves are read, the power line is taken in as far as a finished
charge goes, the line is recorded, and the run and charge follow it. -/
theorem observe_ok {look : Look} {gauge : Gauge} (hgauge : look.gauge = .ok gauge) (s : State)
    (atMillis : ℕ) (uptime : Option Duration) (saves : Saves) :
    ∃ seen report,
      s.observe doubles look now atMillis uptime saves =
        let managed := s.manage doubles
        let line := (managed.observeFull doubles now gauge look.external saves).observeLine now gauge
          look.external
        let followed := line.1.follow now line.2 look.external gauge.volts (s.full = .finished)
        let low := followed.low.observe now uptime look.floor
        ({ followed with seen := seen, low := low.1 },
          { report := report
            held := if low.2 then some { volts := gauge.volts, away := followed.record.away now }
              else none }) := by
  have hfull : (s.manage doubles).full = s.full := by
    obtain ⟨_, _, _, hmanage⟩ := s.manage_curves doubles
    rw [hmanage]
  unfold observe
  rw [hgauge]
  simp only [hfull]
  exact ⟨_, _, rfl⟩

/-- What is recorded of a run and a charge follows the power line alone, and moves nothing else. -/
theorem follow_frame (s : State) (event : Option Event) (external : Option Bool) (volts : ℚ)
    (wasFull : Bool) :
    ∃ run charge, s.follow now event external volts wasFull =
      { s with run := run, charge := charge } := by
  have hevent : ∃ run charge, s.followEvent now event volts wasFull =
      { s with run := run, charge := charge } := by
    unfold followEvent
    split
    · exact ⟨_, s.charge, rfl⟩
    · exact ⟨_, _, rfl⟩
    · exact ⟨_, _, rfl⟩
    · exact ⟨s.run, s.charge, rfl⟩
  obtain ⟨run, charge, hevent⟩ := hevent
  unfold follow followSample
  rw [hevent]
  split
  · exact ⟨_, charge, rfl⟩
  · exact ⟨run, _, rfl⟩
  · exact ⟨run, charge, rfl⟩

/-- The power line taken in moves the record of it alone. -/
theorem observeLine_frame (s : State) (gauge : Gauge) (external : Option Bool) :
    ∃ record, (s.observeLine now gauge external).1 = { s with record := record } := by
  unfold observeLine
  split
  · exact ⟨s.record, rfl⟩
  · exact ⟨_, rfl⟩

/-- A look moves the low-battery watch as it counts the look, and reports the floor held where it
confirms it. -/
theorem observe_low (doubles : Doubles) (s : State) (look : Look) (now : Duration) (atMillis : ℕ)
    (uptime : Option Duration) (saves : Saves) :
    (s.observe doubles look now atMillis uptime saves).1.low =
        (s.low.observe now uptime look.floor).1 ∧
      (s.observe doubles look now atMillis uptime saves).2.held.isSome =
        (s.low.observe now uptime look.floor).2 := by
  rcases hgauge : look.gauge with unanswered | gauge
  · obtain ⟨seen, hobserve⟩ := observe_error doubles now hgauge s atMillis uptime saves
    have hfloor : look.floor = none := by
      unfold Look.floor
      rw [hgauge]
    rw [hobserve, hfloor]
    exact ⟨rfl, rfl⟩
  · obtain ⟨seen, report, hobserve⟩ := observe_ok doubles now hgauge s atMillis uptime saves
    have hlow : (((s.manage doubles).observeFull doubles now gauge look.external
        saves).observeLine now gauge look.external).1.low = s.low := by
      obtain ⟨_, hline⟩ := observeLine_frame now ((s.manage doubles).observeFull doubles now gauge
        look.external saves) gauge look.external
      obtain ⟨_, _, _, hfull⟩ := (s.manage doubles).observeFull_curves doubles now gauge look.external
        saves
      obtain ⟨_, _, _, hmanage⟩ := s.manage_curves doubles
      rw [hline, hfull, hmanage]
    rw [hobserve]
    dsimp only
    rw [show ∀ (s' : State) event wasFull, (s'.follow now event look.external gauge.volts
      wasFull).low = s'.low from fun s' event wasFull => by
        obtain ⟨_, _, hfollow⟩ := s'.follow_frame now event look.external gauge.volts wasFull
        rw [hfollow], hlow]
    refine ⟨rfl, ?_⟩
    cases (s.low.observe now uptime look.floor).2 <;> rfl

end State

end Bliti.Facts.Power
