import Bliti.Network.Apply.Sofar

/-!
# Applying - what an apply keeps

What an apply keeps wherever it is cut and however its operations turn out, put
together from what hostapd's share keeps and what the other backends' do.
-/

namespace Bliti.Network.Apply

open Std (ExtTreeMap)
open Interruptible Render

variable {δ : Type}

/-! ## The operations of a step -/

namespace Step

variable {step : Step δ} {Inv Pre Post : World δ → Prop}

/-- What a call keeps and establishes. -/
theorem keeps_system {call : Call} (hkept : ∀ w, Pre w → Inv w)
    (hok : ∀ w, Pre w → Inv ((w.took step.hardware.paths call).note (.call call) true) ∧
      Post ((w.took step.hardware.paths call).note (.call call) true))
    (herror : ∀ w, Pre w → Inv (w.note (.call call) false)) :
    Keeps (E := step.Effects) Inv Pre (step.system call) fun _ => Post := by
  apply Keeps.mapFail
  apply Keeps.attempt (E := step.Effects) (o := .call call) hkept
  · rintro w answer w' hw rfl
    exact hok w hw
  · rintro w reason w' hw rfl
    exact herror w hw

/-- What writing a file keeps, landed or not. -/
theorem keeps_write {file : File} (hkept : ∀ w, Pre w → Inv w)
    (hwrite : ∀ w, Pre w → ∀ ok, Inv ((w.write step.hardware.paths file).note (.write file) ok))
    (hlost : ∀ w, Pre w → Inv (w.note (.write file) false))
    (hpost : ∀ w, Pre w → Post ((w.write step.hardware.paths file).note (.write file) true)) :
    Keeps (E := step.Effects) Inv Pre (step.write file) fun _ => Post := by
  apply Keeps.mapFail
  apply Keeps.attempt (E := step.Effects) (o := .write file) hkept
  · rintro w answer w' hw ⟨landed, hlanded, rfl⟩
    rw [hlanded rfl]
    exact ⟨hwrite w hw true, hpost w hw⟩
  · rintro w reason w' hw ⟨landed, -, rfl⟩
    cases landed with
    | true => exact hwrite w hw false
    | false => exact hlost w hw

/-- What taking a file away keeps, landed or not. -/
theorem keeps_remove {path : Path} (hkept : ∀ w, Pre w → Inv w)
    (hremove : ∀ w, Pre w → ∀ ok,
      Inv ((w.remove step.hardware.paths path).note (.remove path) ok))
    (hlost : ∀ w, Pre w → Inv (w.note (.remove path) false))
    (hpost : ∀ w, Pre w → Post ((w.remove step.hardware.paths path).note (.remove path) true)) :
    Keeps (E := step.Effects) Inv Pre (step.remove path) fun _ => Post := by
  apply Keeps.mapFail
  apply Keeps.attempt (E := step.Effects) (o := .remove path) hkept
  · rintro w answer w' hw ⟨landed, hlanded, rfl⟩
    rw [hlanded rfl]
    exact ⟨hremove w hw true, hpost w hw⟩
  · rintro w reason w' hw ⟨landed, -, rfl⟩
    cases landed with
    | true => exact hremove w hw false
    | false => exact hlost w hw

/-- What putting files in place keeps. -/
theorem keeps_put (hkept : ∀ w, Pre w → Inv w)
    (hwrite : ∀ file ∈ step.written, ∀ w, Pre w → ∀ ok,
      Pre ((w.write step.hardware.paths file).note (.write file) ok) ∧
        Pre (w.note (.write file) ok))
    (hremove : ∀ path ∈ step.removed, ∀ w, Pre w → ∀ ok,
      Pre ((w.remove step.hardware.paths path).note (.remove path) ok) ∧
        Pre (w.note (.remove path) ok)) :
    Keeps (E := step.Effects) Inv Pre step.put fun _ => Pre := by
  apply Keeps.bind fun _ => Pre
  · apply Keeps.forM_same step.written hkept
    intro file hfile
    apply step.keeps_write hkept
    · intro w hw ok
      exact hkept _ (hwrite file hfile w hw ok).1
    · intro w hw
      exact hkept _ (hwrite file hfile w hw false).2
    · intro w hw
      exact (hwrite file hfile w hw true).1
  · intro _
    apply Keeps.forM_same step.removed hkept
    intro path hpath
    apply step.keeps_remove hkept
    · intro w hw ok
      exact hkept _ (hremove path hpath w hw ok).1
    · intro w hw
      exact hkept _ (hremove path hpath w hw false).2
    · intro w hw
      exact (hremove path hpath w hw true).1

end Step

/-- Whether a call is of hostapd's share. -/
def Call.ofHostapd : Call → Bool
  | .createAccessPoint _ _ | .deleteAccessPoint _ | .hostapd _ _ | .openFirewall _
  | .closeFirewall _ => true
  | .setRegulatoryDomain _ | .restartIwd | .reloadNetworkd | .reloadResolved => false

/-- What is kept by saving the record, and by the shares of the other backends. -/
structure Steady (paths : Paths) (Inv : World δ → Prop) : Prop where
  write : ∀ w file, Backend.of paths file.path ≠ some .hostapd → Inv w →
    ∀ ok, Inv ((w.write paths file).note (.write file) ok) ∧ Inv (w.note (.write file) ok)
  remove : ∀ w path, Backend.of paths path ≠ some .hostapd → Inv w →
    ∀ ok, Inv ((w.remove paths path).note (.remove path) ok) ∧ Inv (w.note (.remove path) ok)
  save : ∀ w record, Inv w →
    ∀ ok, Inv ((w.save record).note (.save record) ok) ∧ Inv (w.note (.save record) ok)
  call : ∀ w call, call.ofHostapd = false → Inv w →
    Inv ((w.took paths call).note (.call call) true) ∧ Inv (w.note (.call call) false)

namespace Steady

variable {paths : Paths} {Inv Other : World δ → Prop}

/-- Two things kept are kept together. -/
theorem and (hone : Steady paths Inv) (hother : Steady paths Other) :
    Steady paths fun w => Inv w ∧ Other w where
  write := by
    intro w file hfile hw ok
    have h₁ := hone.write w file hfile hw.1 ok
    have h₂ := hother.write w file hfile hw.2 ok
    exact ⟨⟨h₁.1, h₂.1⟩, h₁.2, h₂.2⟩
  remove := by
    intro w path hpath hw ok
    have h₁ := hone.remove w path hpath hw.1 ok
    have h₂ := hother.remove w path hpath hw.2 ok
    exact ⟨⟨h₁.1, h₂.1⟩, h₁.2, h₂.2⟩
  save := by
    intro w record hw ok
    have h₁ := hone.save w record hw.1 ok
    have h₂ := hother.save w record hw.2 ok
    exact ⟨⟨h₁.1, h₂.1⟩, h₁.2, h₂.2⟩
  call := by
    intro w call hcall hw
    have h₁ := hone.call w call hcall hw.1
    have h₂ := hother.call w call hcall hw.2
    exact ⟨⟨h₁.1, h₂.1⟩, h₁.2, h₂.2⟩

/-- What is kept is kept under a condition. -/
theorem under (hsteady : Steady paths Inv) (Given : Prop) :
    Steady paths fun w => Given → Inv w where
  write := by
    intro w file hfile hw ok
    exact ⟨fun hgiven => (hsteady.write w file hfile (hw hgiven) ok).1,
      fun hgiven => (hsteady.write w file hfile (hw hgiven) ok).2⟩
  remove := by
    intro w path hpath hw ok
    exact ⟨fun hgiven => (hsteady.remove w path hpath (hw hgiven) ok).1,
      fun hgiven => (hsteady.remove w path hpath (hw hgiven) ok).2⟩
  save := by
    intro w record hw ok
    exact ⟨fun hgiven => (hsteady.save w record (hw hgiven) ok).1,
      fun hgiven => (hsteady.save w record (hw hgiven) ok).2⟩
  call := by
    intro w call hcall hw
    exact ⟨fun hgiven => (hsteady.call w call hcall (hw hgiven)).1,
      fun hgiven => (hsteady.call w call hcall (hw hgiven)).2⟩

variable {step : Step δ}

/-- A call of another backend keeps what is steady. -/
theorem system (hsteady : Steady step.hardware.paths Inv) {call : Call}
    (hcall : call.ofHostapd = false) :
    Keeps (E := step.Effects) Inv Inv (step.system call) fun _ => Inv := by
  apply step.keeps_system (fun _ hw => hw)
  · intro w hw
    have hcalled := (hsteady.call w call hcall hw).1
    exact ⟨hcalled, hcalled⟩
  · intro w hw
    exact (hsteady.call w call hcall hw).2

/-- Putting another backend's files in place keeps what is steady. -/
theorem put (hsteady : Steady step.hardware.paths Inv) (hproper : step.Proper)
    (hbackend : step.backend ≠ .hostapd) :
    Keeps (E := step.Effects) Inv Inv step.put fun _ => Inv := by
  have hother : ∀ path, Backend.of step.hardware.paths path = some step.backend →
      Backend.of step.hardware.paths path ≠ some .hostapd := by
    intro path hof habsurd
    rw [hof] at habsurd
    exact hbackend (Option.some.inj habsurd)
  apply step.keeps_put fun _ hw => hw
  · intro file hfile w hw ok
    exact hsteady.write w file (hother _ (hproper.written file hfile)) hw ok
  · intro path hpath w hw ok
    exact hsteady.remove w path (hother _ (hproper.removed path hpath)) hw ok

/-- Another backend's share keeps what is steady. -/
theorem run (hsteady : Steady step.hardware.paths Inv) (hproper : step.Proper)
    (hbackend : step.backend ≠ .hostapd) :
    Keeps (E := step.Effects) Inv Inv step.run fun _ => Inv := by
  have hput := hsteady.put hproper hbackend
  unfold Step.run
  split
  · apply Keeps.bind _ hput
    intro _
    split
    · exact .pure fun _ hw => ⟨hw, hw⟩
    · split
      · exact hsteady.system rfl
      · exact .fail fun _ hw => hw
  · rename_i hhostapd
    exact absurd hhostapd hbackend
  · apply Keeps.bind _ hput
    intro _
    split
    · exact hsteady.system rfl
    · exact .pure fun _ hw => ⟨hw, hw⟩
  · exact .bind _ hput fun _ => hsteady.system rfl
  · exact .bind _ hput fun _ => hsteady.system rfl

/-- What saving the record keeps. -/
theorem save_record (hsteady : Steady paths Inv) (state : Path) (record : Record δ) :
    Keeps (E := effects δ paths) Inv Inv
      ((Program.attempt (E := effects δ paths) (.save record)).mapFail
        (recordError state)) fun _ => Inv := by
  apply Keeps.mapFail
  apply Keeps.attempt (E := effects δ paths) (o := .save record) fun _ hw => hw
  · rintro w answer w' hw ⟨landed, hlanded, rfl⟩
    rw [hlanded rfl]
    exact ⟨(hsteady.save w record hw true).1, (hsteady.save w record hw true).1⟩
  · rintro w reason w' hw ⟨landed, -, rfl⟩
    cases landed with
    | true => exact (hsteady.save w record hw false).1
    | false => exact (hsteady.save w record hw false).2

end Steady

/-! ## A whole apply -/

section Whole

variable [DecidableEq δ] {hardware : Hardware} {digest : String → δ} {rendered : Rendered}
  {state : Path} {start : World δ} {Inv Ready : World δ → Prop}

/-- Looking for what is to be written leaves the world alone. -/
theorem still_lacking (record : Record δ) (backend : Backend) (items : List (Backend × File))
    (w : World δ) :
    Keeps (E := effects δ hardware.paths) (· = w) (· = w)
      (lacking digest hardware record backend items) fun _ w' => w' = w := by
  induction items with
  | nil => exact .pure fun w' hw' => ⟨hw', hw'⟩
  | cons item rest ih =>
      obtain ⟨of, file⟩ := item
      unfold lacking
      split
      · apply Keeps.bind fun _ w' => w' = w
        · unfold inPlace
          split
          · apply Keeps.attempt (E := effects δ hardware.paths) (o := .existsAt file.path)
            · exact fun w' hw' => hw'
            · rintro w' answer w'' hw' ⟨-, rfl⟩
              exact ⟨hw', hw'⟩
            · rintro w' reason w'' hw' ⟨-, rfl⟩
              exact hw'
          · exact .pure fun w' hw' => ⟨hw', hw'⟩
        · intro kept
          apply Keeps.bind _ ih
          intro files
          exact .pure fun w' hw' => ⟨hw', hw'⟩
      · exact ih

/-- hostapd's share keeps an invariant, from worlds ready for it. -/
def HostapdKeeps (hardware : Hardware) (digest : String → δ) (rendered : Rendered)
    (start : World δ) (Inv Ready : World δ → Prop) : Prop :=
  ∀ (step : Step δ) (rest : List Backend), step.backend = .hostapd →
    (step.written ≠ [] ∨ step.removed ≠ []) →
    Share hardware digest rendered (loaded hardware start) start step →
    Keeps (E := step.Effects) Inv
      (fun w => (Inv w ∧ Ready w) ∧ Sofar hardware digest rendered (loaded hardware start)
        start (.hostapd :: rest) step.record w)
      step.hostapd fun _ => Inv

/-- The backends in order keep what hostapd's share keeps and the others' do. -/
theorem keeps_backends {items : List (Backend × File)} {gone : List Path}
    (hinv : Steady hardware.paths Inv) (hready : Steady hardware.paths Ready)
    (hhostapd : HostapdKeeps hardware digest rendered start Inv Ready)
    (hwanted : wanted hardware rendered.files = .ok items)
    (hgone : ∀ path, path ∈ gone ↔ Stale hardware rendered (loaded hardware start) start path)
    (left : List Backend) (hdistinct : left.Nodup) (record : Record δ) (changes : Changes) :
    Keeps (E := effects δ hardware.paths) Inv
      (fun w => (Inv w ∧ (.hostapd ∈ left → Ready w)) ∧
        Sofar hardware digest rendered (loaded hardware start) start left record w)
      (applyBackends digest hardware state items gone left record changes) fun _ => Inv := by
  induction left generalizing record changes with
  | nil => exact .pure fun w hw => ⟨hw.1.1, hw.1.1⟩
  | cons backend rest ih =>
      rw [List.nodup_cons] at hdistinct
      have hrest : ∀ w, (.hostapd ∈ backend :: rest → Ready w) → .hostapd ∈ rest → Ready w :=
        fun w hw hmem => hw (List.mem_cons_of_mem _ hmem)
      apply Keeps.bind fun written w => ((Inv w ∧ (.hostapd ∈ backend :: rest → Ready w)) ∧
        Sofar hardware digest rendered (loaded hardware start) start (backend :: rest) record w) ∧
        Share hardware digest rendered (loaded hardware start) start
          (shareOf hardware backend record written gone)
      · apply Keeps.returning
        · apply Keeps.of_still
          · exact still_lacking record backend items
          · exact fun w hw => hw.1.1
        · intro w written w' hw hlacking
          exact hw.2.share hwanted hgone hlacking
      · intro written
        apply Keeps.given
        intro hshare
        dsimp only
        split
        · rename_i hnothing
          apply (ih hdistinct.2 record changes).strengthen
          rintro w ⟨⟨hw, hwready⟩, hsofar⟩
          exact ⟨⟨hw, hrest w hwready⟩, hshare.skip hsofar hdistinct.1 hnothing⟩
        · rename_i hsome
          have hchanges := not_and_or.mp hsome
          apply Keeps.bind fun _ w => (Inv w ∧ (.hostapd ∈ rest → Ready w)) ∧
            ∃ before, Sofar hardware digest rendered (loaded hardware start) start
              (backend :: rest) record before ∧
              Returns (E := effects δ hardware.paths) before
                (shareOf hardware backend record written gone).run () w
          · apply Keeps.returning
            · by_cases hbackend : backend = .hostapd
              · subst hbackend
                apply (hhostapd (shareOf hardware .hostapd record written gone) rest rfl
                  hchanges hshare).weaken
                · rintro w ⟨⟨hw, hwready⟩, hsofar⟩
                  exact ⟨⟨hw, hwready List.mem_cons_self⟩, hsofar⟩
                · intro _ w hw
                  exact ⟨hw, fun hmem => absurd hmem hdistinct.1⟩
              · have hrun := (hinv.and (hready.under (.hostapd ∈ rest))).run
                  (hshare.proper hchanges) hbackend
                apply (hrun.widen fun _ hw => hw.1).strengthen
                rintro w ⟨⟨hw, hwready⟩, -⟩
                exact ⟨hw, hrest w hwready⟩
            · rintro w ⟨⟩ w' hw hrun
              exact ⟨w, hw.2, hrun⟩
          · intro _
            apply Keeps.bind fun _ w => (Inv w ∧ (.hostapd ∈ rest → Ready w)) ∧
              Sofar hardware digest rendered (loaded hardware start) start rest
                (recorded digest record written (shareOf hardware backend record written gone).removed) w
            · apply Keeps.returning
              · have hsave := (hinv.and (hready.under (.hostapd ∈ rest))).save_record state
                  (recorded digest record written
                    (shareOf hardware backend record written gone).removed)
                exact (hsave.widen fun _ hw => hw.1).strengthen fun w hw => hw.1
              · rintro w ⟨⟩ w' ⟨-, before, hsofar, hrun⟩ hsave
                exact hshare.ran hsofar hdistinct.1 hsome hrun hsave
            · intro _
              exact ih hdistinct.2 _ _

/-- An apply keeps what hostapd's share keeps and the others' do. -/
theorem keeps_apply (hinv : Steady hardware.paths Inv) (hready : Steady hardware.paths Ready)
    (hhostapd : HostapdKeeps hardware digest rendered start Inv Ready) (hstart : Inv start)
    (hstartReady : Ready start) :
    Keeps (E := effects δ hardware.paths) Inv (· = start)
      (apply digest hardware state rendered) fun _ => Inv := by
  have hkept : ∀ w, w = start → Inv w := by
    rintro w rfl
    exact hstart
  unfold apply
  split
  · exact .fail hkept
  · rename_i items hwanted
    apply Keeps.bind fun read w => w = start ∧ read = start.record.getD .empty
    · apply Keeps.attempt (E := effects δ hardware.paths) (o := .load) hkept
      · rintro w answer w' rfl ⟨hanswer, rfl⟩
        exact ⟨hstart, rfl, Except.ok.inj hanswer⟩
      · rintro w reason w' rfl ⟨hanswer, -⟩
        cases hanswer
    · intro read
      apply Keeps.given
      rintro rfl
      apply Keeps.bind fun found w => w = start ∧ found = scan hardware.paths start.disk
      · apply Keeps.attempt (E := effects δ hardware.paths) (o := .owned) hkept
        · rintro w answer w' rfl ⟨hanswer, rfl⟩
          exact ⟨hstart, rfl, Except.ok.inj hanswer⟩
        · rintro w reason w' rfl ⟨hanswer, -⟩
          cases hanswer
      · intro found
        apply Keeps.given
        rintro rfl
        apply (keeps_backends hinv hready hhostapd hwanted (fun path => mem_stale hardware)
          Backend.ORDER (by decide) _ _).strengthen
        rintro w rfl
        exact ⟨⟨hstart, fun _ => hstartReady⟩, .init rendered _ _⟩

end Whole

/-! ## What only hostapd's calls bear on -/

/-- Whether an operation is a call of hostapd's share. -/
def Op.ofHostapd : Op δ → Bool
  | .call made => made.ofHostapd
  | .load | .owned | .existsAt _ | .write _ | .remove _ | .save _ => false

/-- What was done before a call is what was done before it. -/
@[simp]
theorem World.took_events (paths : Paths) (w : World δ) (call : Call) :
    (w.took paths call).events = w.events := by
  unfold World.took
  split
  · split <;> rfl
  all_goals rfl

@[simp]
theorem World.write_events (paths : Paths) (w : World δ) (file : File) :
    (w.write paths file).events = w.events := by
  simp [World.write]

/-- A property of what was done that only hostapd's calls bear on. -/
def Aloof (P : List (Event δ) → Prop) : Prop :=
  ∀ op ok earlier, op.ofHostapd = false → P earlier → P (⟨op, ok⟩ :: earlier)

namespace Aloof

variable {P Q : List (Event δ) → Prop}

/-- Two properties that only hostapd's calls bear on. -/
theorem and (hone : Aloof P) (hother : Aloof Q) : Aloof fun events => P events ∧ Q events := by
  intro op ok earlier hop hboth
  exact ⟨hone op ok earlier hop hboth.1, hother op ok earlier hop hboth.2⟩

/-- The other backends keep it. -/
theorem steady (haloof : Aloof P) (paths : Paths) : Steady paths fun w => P w.events where
  write := by
    intro w file _ hw ok
    simp only [World.note, World.write_events]
    exact ⟨haloof _ _ _ rfl hw, haloof _ _ _ rfl hw⟩
  remove := by
    intro w path _ hw ok
    simp only [World.note, World.remove_events]
    exact ⟨haloof _ _ _ rfl hw, haloof _ _ _ rfl hw⟩
  save := by
    intro w record hw ok
    exact ⟨haloof _ _ _ rfl hw, haloof _ _ _ rfl hw⟩
  call := by
    intro w call hcall hw
    simp only [World.note, World.took_events]
    exact ⟨haloof _ _ _ hcall hw, haloof _ _ _ hcall hw⟩

/-- Putting files in place keeps it. -/
theorem put (haloof : Aloof P) (step : Step δ) {Inv : World δ → Prop}
    (hkept : ∀ w, P w.events → Inv w) :
    Keeps (E := step.Effects) Inv (fun w => P w.events) step.put fun _ w => P w.events := by
  apply step.keeps_put hkept
  · intro file _ w hw ok
    simp only [World.note, World.write_events]
    exact ⟨haloof _ _ _ rfl hw, haloof _ _ _ rfl hw⟩
  · intro path _ w hw ok
    simp only [World.note, World.remove_events]
    exact ⟨haloof _ _ _ rfl hw, haloof _ _ _ rfl hw⟩

end Aloof

end Bliti.Network.Apply
