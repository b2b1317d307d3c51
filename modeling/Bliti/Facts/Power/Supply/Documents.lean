import Bliti.Facts.Power.Supply.Frame

/-!
# The backup supply - the document in force

What each call on the supply's state does to the curve document in force.
-/

namespace Bliti.Facts.Power

open Learn (Which fromCharge fromRun)

namespace State

variable (doubles : Doubles) (now : Duration)

/-- The curve document in force, where a backup supply is managed. -/
def document (s : State) : Option Document :=
  s.stored.map Stored.document

/-- A run refines a document into another: the discharging curve is learnt from it, and the charging
curve is as it was. -/
structure RefinesDischarging (doubles : Doubles) (run : Run) (old new : Document) (curve : Curve) :
    Prop where
  learnt : fromRun doubles old.discharging run.fromFull run.recording.samples = .ok curve
  discharging : new.discharging = curve.rounded
  charging : new.charging = old.charging

/-- A charge that finishes refines a document into another: the charging curve is learnt from it, and
the discharging curve is as it was. -/
structure RefinesCharging (doubles : Doubles) (now : Duration) (charge : Charge)
    (old new : Document) (curve : Curve) : Prop where
  learnt : fromCharge doubles old.charging charge.anchor old.floorCharge charge.recording.samples
    (now - charge.recording.began - hold) = .ok curve
  discharging : new.discharging = old.discharging
  charging : new.charging = some curve.rounded

/-- A document put in force is, where its save succeeds. -/
theorem replace_document (s : State) (document : Document) (fails : Option SaveFault) :
    (s.replace document fails).1.document = s.document ∨
      (s.replace document fails).1.document = some document := by
  unfold replace
  split
  · exact .inl rfl
  · dsimp only
    split
    · exact .inl rfl
    · exact .inr rfl

/-- A refined document put in force is, where it is valid and its save succeeds. -/
theorem refine_document (s : State) (which : Which) (refined : Except Invalid Document)
    (fails : Option SaveFault) :
    (s.refine which refined fails).document = s.document ∨
      ∃ document, refined = .ok document ∧
        (s.refine which refined fails).document = some document := by
  unfold State.refine
  split
  · exact .inl rfl
  · rename_i document
    split
    · exact .inl rfl
    · rcases s.replace_document document fails with hkept | hput
      · exact .inl hkept
      · exact .inr ⟨document, rfl, hput⟩

/-- A charge refines the charging curve, where it teaches anything. -/
theorem learnFromCharge_document (s : State) (charge : Charge) (fails : Option SaveFault) :
    (s.learnFromCharge doubles now charge fails).document = s.document ∨
      ∃ old new curve, s.document = some old ∧
        (s.learnFromCharge doubles now charge fails).document = some new ∧
        RefinesCharging doubles now charge old new curve := by
  unfold learnFromCharge
  split
  · exact .inl rfl
  · rename_i stored hstored
    dsimp only
    split
    · rename_i curve hlearnt
      rcases s.refine_document .charging (Document.new doubles stored.document.discharging
        (some curve)) fails with hkept | ⟨new, hnew, hput⟩
      · exact .inl hkept
      · obtain ⟨-, hdischarging, hcharging⟩ := Document.new_ok_iff.mp hnew
        rw [stored.document.discharging_rounded] at hdischarging
        have hold : s.document = some stored.document := by
          unfold State.document
          rw [hstored]
          rfl
        exact .inr ⟨stored.document, new, curve, hold, hput, hlearnt, hdischarging, hcharging⟩
    · exact .inl rfl

/-- A run refines the discharging curve, where it teaches anything. -/
theorem learnFromRun_document (s : State) (fails : Option SaveFault) :
    (s.learnFromRun doubles fails).document = s.document ∨
      ∃ run old new curve, s.run = some run ∧ s.document = some old ∧
        (s.learnFromRun doubles fails).document = some new ∧
        RefinesDischarging doubles run old new curve := by
  unfold learnFromRun
  split
  · rename_i run stored hrun hstored
    dsimp only
    split
    · rename_i curve hlearnt
      rcases refine_document { s with run := none } .discharging (Document.new doubles curve
        stored.document.charging) fails with hkept | ⟨new, hnew, hput⟩
      · exact .inl hkept
      · obtain ⟨-, hdischarging, hcharging⟩ := Document.new_ok_iff.mp hnew
        have hrounded : stored.document.charging.map Curve.rounded = stored.document.charging := by
          rcases hheld : stored.document.charging with _ | held
          · rfl
          · rw [Option.map_some, stored.document.charging_rounded held hheld]
        rw [hrounded] at hcharging
        have hold : s.document = some stored.document := by
          unfold State.document
          rw [hstored]
          rfl
        exact .inr ⟨run, stored.document, new, curve, hrun, hold, hput, hlearnt, hdischarging,
          hcharging⟩
    · exact .inl rfl
  · exact .inl rfl

/-- A charge that finishes keeps the gauge's full reading beside the document, saving them, and then
refines the charging curve where one was recorded. -/
theorem chargeFinished_eq (s : State) (gauge : Gauge) (saves : Saves) :
    ∃ disk stored, stored.map Stored.document = s.document ∧
      (disk = s.disk ∨ ∃ next, stored = some next ∧ disk = (s.disk.save next saves.full).1) ∧
      s.chargeFinished doubles now gauge saves =
        match s.charge with
        | some charge =>
            { s with disk := disk, stored := stored, charge := none }.learnFromCharge doubles now
              charge saves.curve
        | none => { s with disk := disk, stored := stored } := by
  rcases s with ⟨disk, _ | stored, curves, seen, record, run, charge, full, low⟩
  · cases charge with
    | none => exact ⟨disk, none, rfl, .inl rfl, rfl⟩
    | some charge => exact ⟨disk, none, rfl, .inl rfl, rfl⟩
  · by_cases hshare : 0 < gauge.charge / 100
    · let saved : Stored := { stored with
        gaugeFull := some (gauge.charge / 100)
        gaugeFull_pos := by simpa using hshare }
      refine ⟨(disk.save saved saves.full).1, some saved, rfl, .inr ⟨saved, rfl, rfl⟩, ?_⟩
      simp only [chargeFinished, dif_pos hshare]
      cases charge with
      | none => rfl
      | some charge => rfl
    · simp only [chargeFinished, dif_neg hshare]
      cases charge with
      | none => exact ⟨disk, some stored, rfl, .inl rfl, rfl⟩
      | some charge => exact ⟨disk, some stored, rfl, .inl rfl, rfl⟩

/-- A charge that finishes refines the charging curve, where one was recorded. -/
theorem chargeFinished_document (s : State) (gauge : Gauge) (saves : Saves) :
    (s.chargeFinished doubles now gauge saves).document = s.document ∨
      ∃ charge old new curve, s.charge = some charge ∧ s.document = some old ∧
        (s.chargeFinished doubles now gauge saves).document = some new ∧
        RefinesCharging doubles now charge old new curve := by
  obtain ⟨disk, stored, hdocument, -, hfinished⟩ :=
    s.chargeFinished_eq doubles now gauge saves
  rw [hfinished]
  split
  · rename_i charge hcharge
    rcases learnFromCharge_document doubles now
      { s with disk := disk, stored := stored, charge := none } charge saves.curve with
      hkept | ⟨old, new, curve, hold, hnew, hrefines⟩
    · exact .inl (hkept.trans hdocument)
    · exact .inr ⟨charge, old, new, curve, hcharge, hdocument ▸ hold, hnew, hrefines⟩
  · exact .inl hdocument

/-- The curves are those the disk holds, from the first time a gauge answers. -/
theorem manage_document (s : State) :
    (s.manage doubles).document =
      some (s.document.getD (s.disk.load doubles).document) := by
  unfold manage State.document
  split
  · rename_i stored hstored
    rw [hstored]
    rfl
  · rename_i hstored
    rw [hstored]
    rfl

/-- The power line taken in refines the charging curve alone, where the charge recorded
finishes. -/
theorem observeFull_document (s : State) (gauge : Gauge) (external : Option Bool) (saves : Saves) :
    (s.observeFull doubles now gauge external saves).document = s.document ∨
      external = some true ∧ (s.full.observe now gauge.volts).2 = true ∧
        ∃ charge old new curve, s.charge = some charge ∧ s.document = some old ∧
          (s.observeFull doubles now gauge external saves).document = some new ∧
          RefinesCharging doubles now charge old new curve := by
  unfold observeFull
  rcases external with _ | _ | _
  · exact .inl rfl
  · exact .inl rfl
  · dsimp only
    rcases hobserve : s.full.observe now gauge.volts with ⟨full, _ | _⟩
    · exact .inl rfl
    · rcases chargeFinished_document doubles now { s with full := full } gauge saves with hkept | hrefined
      · exact .inl hkept
      · exact .inr ⟨rfl, rfl, hrefined⟩

/-- A look moves the curves and their file as taking in a finished charge does. -/
theorem observe_looked {look : Look} {gauge : Gauge} (hgauge : look.gauge = .ok gauge) (s : State)
    (atMillis : ℕ) (uptime : Option Duration) (saves : Saves) :
    let looked := (s.observe doubles look now atMillis uptime saves).1
    let full := (s.manage doubles).observeFull doubles now gauge look.external saves
    looked.disk = full.disk ∧ looked.stored = full.stored ∧ looked.curves = full.curves := by
  obtain ⟨seen, report, hobserve⟩ := observe_ok doubles now hgauge s atMillis uptime saves
  rw [hobserve]
  dsimp only
  generalize (s.manage doubles).observeFull doubles now gauge look.external saves = full
  obtain ⟨_, hline⟩ := full.observeLine_frame now gauge look.external
  obtain ⟨_, _, hfollow⟩ := (full.observeLine now gauge look.external).1.follow_frame now
    (full.observeLine now gauge look.external).2 look.external gauge.volts (s.full = .finished)
  rw [hfollow, hline]
  exact ⟨rfl, rfl, rfl⟩

theorem looked_document {look : Look} {gauge : Gauge} (hgauge : look.gauge = .ok gauge) (s : State)
    (atMillis : ℕ) (uptime : Option Duration) (saves : Saves) :
    (s.observe doubles look now atMillis uptime saves).1.document =
      ((s.manage doubles).observeFull doubles now gauge look.external saves).document := by
  obtain ⟨-, hstored, -⟩ := observe_looked doubles now hgauge s atMillis uptime saves
  unfold State.document
  rw [hstored]

/-- A look refines the charging curve alone, where the charge recorded finishes; the first the gauge
answers takes the curves from the disk. -/
theorem observe_document {look : Look} {gauge : Gauge} (hgauge : look.gauge = .ok gauge) (s : State)
    (atMillis : ℕ) (uptime : Option Duration) (saves : Saves) :
    let looked := (s.observe doubles look now atMillis uptime saves).1
    let managed := s.document.getD (s.disk.load doubles).document
    looked.document = some managed ∨
      look.external = some true ∧ (s.full.observe now gauge.volts).2 = true ∧
        ∃ charge new curve, s.charge = some charge ∧ looked.document = some new ∧
          RefinesCharging doubles now charge managed new curve := by
  dsimp only
  obtain ⟨_, _, _, hmanage⟩ := s.manage_curves doubles
  have hmanaged := s.manage_document doubles
  rw [looked_document doubles now hgauge]
  rcases (s.manage doubles).observeFull_document doubles now gauge look.external saves with
    hkept | ⟨hpresent, hfinishes, charge, old, new, curve, hcharge, hold, hnew, hrefines⟩
  · exact .inl (hkept.trans hmanaged)
  · right
    have hfull : (s.manage doubles).full = s.full := by rw [hmanage]
    have hsame : (s.manage doubles).charge = s.charge := by rw [hmanage]
    rw [hmanaged, Option.some.injEq] at hold
    rw [hfull] at hfinishes
    rw [hsame] at hcharge
    rw [← hold] at hrefines
    exact ⟨hpresent, hfinishes, charge, new, curve, hcharge, hnew, hrefines⟩

end State

end Bliti.Facts.Power
