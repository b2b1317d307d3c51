import Bliti.Network.Apply.Reconciled
import Bliti.Network.Apply.Sole

/-!
# Applying - where hostapd runs

The laws of hostapd's calls over every run of applies, with any operation failing
and an apply cut anywhere.

Main results:

- Theorem `applying_hostapd`: over every run.
-/

namespace Bliti.Network.Apply

open Std (ExtTreeMap)
open Interruptible Render

variable {δ : Type}

/-! ## hostapd's share -/

section Share

variable [DecidableEq δ] {hardware : Hardware} {digest : String → δ} {rendered : Rendered}
  {start : World δ}

/-- hostapd's share keeps that an interface goes only once stopped on. -/
theorem hostapdKeeps_stopsFirst :
    HostapdKeeps hardware digest rendered start (fun w => Throughout StopsFirst w.events)
      fun _ => True := by
  intro step rest _ _ _
  apply Keeps.strengthen (step.keeps_hostapd (P := Throughout StopsFirst) (fun _ hw => hw)
    (aloof_throughout stopsFirst_other) (fun path _ => step.takeDown_stopsFirst path)
    fun file _ => step.bringUp_stopsFirst file)
  exact fun _ hw => hw.1.1

/-- hostapd's share keeps that hostapd starts only behind an open firewall. -/
theorem hostapdKeeps_opensFirst :
    HostapdKeeps hardware digest rendered start (fun w => Throughout OpensFirst w.events)
      fun _ => True := by
  intro step rest _ _ _
  apply Keeps.strengthen (step.keeps_hostapd (P := Throughout OpensFirst) (fun _ hw => hw)
    (aloof_throughout opensFirst_other) (fun path _ => step.takeDown_opensFirst path)
    fun file _ => step.bringUp_opensFirst file)
  exact fun _ hw => hw.1.1

/-- Only hostapd's calls bear on which interfaces are there. -/
theorem aloof_standing : Aloof (Standing hardware digest rendered start) := by
  intro op ok earlier hop hstanding
  apply hstanding.after
  rintro file _ interface _ rfl
  cases hop

/-- hostapd's share keeps that hostapd starts only where its interface was created. -/
theorem hostapdKeeps_createsFirst :
    HostapdKeeps hardware digest rendered start
      (fun w => Throughout (CreatesFirst hardware) w.events)
      fun w => Standing hardware digest rendered start w.events := by
  intro step rest hbackend _ hshare
  rw [← hbackend]
  intro w hw
  have hrecord : ∀ path, Backend.of hardware.paths path = some step.backend →
      step.record.contains path = (loaded hardware start).contains path := by
    intro path hof
    rw [Bool.eq_iff_iff, Record.contains_iff, Record.contains_iff, hw.2.record_next hof]
  have hkeeps : Keeps (E := step.Effects) (fun w => Throughout (CreatesFirst hardware) w.events)
      (fun w => Ready hardware digest rendered start w.events) step.hostapd
      fun _ w => Ready hardware digest rendered start w.events := by
    apply step.keeps_hostapd fun _ hready => hready.1
    · exact (aloof_throughout (createsFirst_other hardware)).and aloof_standing
    · exact fun path hpath => step.takeDown_ready hshare path hpath
    · exact fun file hfile => step.bringUp_ready hshare hrecord hbackend file hfile
  exact (hkeeps.weaken (fun _ hready => hready) fun _ _ hready => hready.1) w hw.1

/-- A hostapd configuration is looked for. -/
theorem scanned_of_hostapd {paths : Paths} {path : Path}
    (hof : Backend.of paths path = some .hostapd) : Scanned paths path := by
  unfold Backend.of at hof
  split at hof
  · cases hof
  · rename_i howns
    split at hof
    · cases hof
    · split at hof
      · rename_i hsome
        obtain ⟨interface, hinterface⟩ := Option.isSome_iff_exists.mp hsome
        refine .inr (.inr ⟨by simpa using howns, paths.hostapd, by simp [scannedDirs], ?_⟩)
        rw [Paths.hostapdConf_of_interface hinterface, Paths.hostapdConf, Path.parent_join]
      · repeat' split at hof
        all_goals cases hof

/-- hostapd's share keeps that it runs on one interface at a time. -/
theorem hostapdKeeps_oneAtATime (hone : OneConf hardware.paths rendered) :
    HostapdKeeps hardware digest rendered start (Sole hardware.paths) fun _ => True := by
  intro step rest hbackend hchanges hshare
  have hproper := hshare.proper hchanges
  obtain rfl := hshare.device
  apply Keeps.bind fun _ (w : World δ) => Falling step.hardware.paths start.disk step.removed [] w.disk w.events
  · have hloop := Keeps.forM (E := step.Effects) (f := step.takeDown)
      (fun left (w : World δ) =>
        Falling step.hardware.paths start.disk step.removed left w.disk w.events)
      (fun _ hfalling => hfalling.sole) (fun path left => step.takeDown_falling path) step.removed
    apply hloop.strengthen
    rintro w ⟨⟨⟨hlaw, hlocated⟩, -⟩, hsofar⟩
    refine ⟨hlaw, ?_, ?_⟩
    · intro path hpath hof
      rw [← hbackend] at hof hsofar
      rwa [← ExtTreeMap.isSome_getElem?_iff_mem, ← hsofar.disk_next hof,
        ExtTreeMap.isSome_getElem?_iff_mem]
    · intro interface hrunning
      obtain ⟨path, hpath, hreader⟩ := hlocated interface hrunning
      exact ⟨path, hpath, hreader, id⟩
  · intro _
    apply Keeps.bind fun _ (w : World δ) =>
      Rising step.hardware.paths rendered step.written w.disk w.events
    · have hremoved : ∀ path ∈ step.removed, rendered.holds path = false := by
        intro path hpath
        exact ((hshare.removed path).mp hpath).1.1
      have hput : Keeps (E := step.Effects) (Sole step.hardware.paths)
          (fun w => Rising step.hardware.paths rendered [] w.disk w.events) step.put
          fun _ w => Rising step.hardware.paths rendered [] w.disk w.events ∧
            ∀ file ∈ step.written, file.path ∈ w.disk := by
        apply (step.put_rising hremoved).returning
        rintro w ⟨⟩ w' - hreturns file hfile
        rw [← ExtTreeMap.isSome_getElem?_iff_mem, (hproper.placed hreturns).written file hfile]
        rfl
      apply hput.weaken
      · rintro w ⟨hlaw, hbefore, hruns⟩
        refine ⟨hlaw, ?_, by simp⟩
        intro interface hrunning
        obtain ⟨path, hpath, hreader, hkept⟩ := hruns interface hrunning
        refine ⟨path, hpath, hreader, ?_⟩
        have hof := Reader.backend_of hreader
        rcases hholds : rendered.holds path with _ | _
        · have hstale : path ∈ step.removed := by
            rw [hshare.removed, hbackend]
            exact ⟨⟨hholds, .inl ⟨hbefore path hpath hof, scanned_of_hostapd hof⟩⟩, hof⟩
          exact absurd (hkept hstale) List.not_mem_nil
        · rfl
      · rintro _ w ⟨hrising, hpresent⟩
        exact ⟨hrising.law, hrising.runs, hpresent⟩
    · intro _
      have hups : Keeps (E := step.Effects) (Sole step.hardware.paths)
          (fun w => Rising step.hardware.paths rendered step.written w.disk w.events)
          (step.written.forM step.bringUp)
          fun _ w => Rising step.hardware.paths rendered step.written w.disk w.events := by
        apply Keeps.forM_same step.written fun _ hrising => hrising.sole
        intro file hfile
        obtain ⟨⟨hmem, hof⟩, -⟩ := (hshare.written file).mp hfile
        rw [hbackend] at hof
        apply step.bringUp_rising hone hof _ hfile
        exact List.any_eq_true.mpr ⟨file, hmem, beq_self_eq_true _⟩
      exact hups.weaken (fun _ hrising => hrising) fun _ _ hrising => hrising.sole

end Share

/-! ## Runs -/

section Runs

variable [DecidableEq δ] (digest : String → δ) (hardware : Hardware) (state : Path)

/-- The runs in which every render holds at most one hostapd configuration. -/
def soleConf : Transition.System (Device δ) Act :=
  (applying digest hardware state).guarded fun _ act =>
    ∀ rendered, act = .apply rendered → OneConf hardware.paths rendered

/-- The runs in which every apply finds the interfaces it is to restart hostapd on
there. -/
def standing : Transition.System (Device δ) Act :=
  (applying digest hardware state).guarded fun d act =>
    ∀ rendered, act = .apply rendered →
      Standing hardware digest rendered d.world d.world.events

/-- What holds of a device as it boots, of any files and record, and is kept by every
apply, holds over every run. -/
theorem invariant_of_keeps {guard : Device δ → Act → Prop} (Inv : World δ → Prop)
    (hboot : Inv (Device.boot (δ := δ)).world)
    (hlose : ∀ w : World δ, Inv w → Inv { w with record := none })
    (happly : ∀ d rendered, guard d (.apply rendered) → Inv d.world →
      Keeps (E := effects δ hardware.paths) Inv (· = d.world)
        (apply digest hardware state rendered) fun _ => Inv)
    {d : Device δ} (hreach : ((applying digest hardware state).guarded guard).Reachable d) :
    Inv d.world := by
  induction hreach with
  | start hinit =>
      rw [hinit]
      exact hboot
  | @next d d' act hreach hstep ih =>
      obtain ⟨hguard, hstep⟩ := hstep
      cases act with
      | lose =>
          rw [hstep]
          exact hlose _ ih
      | apply rendered =>
          obtain ⟨out, hout, -⟩ := hstep
          exact (happly d rendered hguard ih _ rfl _ _ hout).1

/-- Over every run, an interface is deleted and its firewall closed only once hostapd was
stopped on it, and hostapd starts only behind a firewall opened for it.  Where every
render holds at most one hostapd configuration it starts only while it runs on no other
interface.  Where every apply finds the interfaces it is to restart it on there, it
starts only on one created since it was last deleted. -/
theorem applying_hostapd :
    (∀ d, (applying digest hardware state).Reachable d →
      Throughout StopsFirst d.world.events ∧ Throughout OpensFirst d.world.events) ∧
    (∀ d, (soleConf digest hardware state).Reachable d →
      Throughout OneAtATime d.world.events) ∧
    ∀ d, (standing digest hardware state).Reachable d →
      Throughout (CreatesFirst hardware) d.world.events := by
  have htrue : Steady (δ := δ) hardware.paths fun _ => True := by
    constructor <;> simp
  refine ⟨?_, ?_, ?_⟩
  · intro d hreach
    have hfree : ((applying digest hardware state).guarded fun _ _ => True).Reachable d := by
      induction hreach with
      | start hinit => exact .start hinit
      | next _ hstep ih => exact .next ih ⟨trivial, hstep⟩
    constructor
    · apply invariant_of_keeps digest hardware state (fun w => Throughout StopsFirst w.events)
        trivial (fun _ hw => hw) _ hfree
      intro d rendered _ hw
      exact keeps_apply ((aloof_throughout stopsFirst_other).steady _) htrue
        hostapdKeeps_stopsFirst hw trivial
    · apply invariant_of_keeps digest hardware state (fun w => Throughout OpensFirst w.events)
        trivial (fun _ hw => hw) _ hfree
      intro d rendered _ hw
      exact keeps_apply ((aloof_throughout opensFirst_other).steady _) htrue
        hostapdKeeps_opensFirst hw trivial
  · intro d hreach
    have hsole : Sole hardware.paths d.world := by
      apply invariant_of_keeps digest hardware state _ _ _ _ hreach
      · exact ⟨trivial, by intro interface hrunning; cases hrunning⟩
      · exact fun _ hw => hw
      · intro d rendered hguard hw
        exact keeps_apply
          (((aloof_throughout oneAtATime_other).steady _).and (steady_located _)) htrue
          (hostapdKeeps_oneAtATime (hguard rendered rfl)) hw trivial
    exact hsole.1
  · intro d hreach
    apply invariant_of_keeps digest hardware state
      (fun w => Throughout (CreatesFirst hardware) w.events) trivial (fun _ hw => hw) _ hreach
    intro d rendered hguard hw
    exact keeps_apply ((aloof_throughout (createsFirst_other hardware)).steady _)
      (aloof_standing.steady _) hostapdKeeps_createsFirst hw (hguard rendered rfl)

end Runs

/-! ## A hotspot taken down in part -/

/-- A device with one radio and an access point interface on it. -/
def radioDevice : Hardware where
  wired := []
  radios := [{
    station := "wlan0"
    accessPoint := some { interface := "ap0", alongside := .sharedChannel } }]
  paths := .system

/-- A render of a hotspot and nothing else. -/
def hotspotRender : Rendered where
  files := [{
    path := Paths.system.hostapdConf "ap0"
    contents := "interface=ap0\n"
    mode := SECRET }]
  distinct := by simp

/-- A render of nothing. -/
def noRender : Rendered where
  files := []
  distinct := by simp

/-- A device with a render applied, where the record saves or fails to. -/
def Device.radio (saves : Bool) (rendered : Rendered) (d : Device String) : Device String :=
  d.applied id radioDevice STATE
    (fun op =>
      match op with
      | .save _ => !saves
      | _ => false)
    rendered

/-- A hotspot brought up, taken away and brought up again, where the record of its going
saves or fails to. -/
def radioRun (saves : Bool) : Device String :=
  ((Device.boot.radio true hotspotRender).radio saves noRender).radio true hotspotRender

/-- A hotspot taken away whose record is not saved, and then put back: its record still
names it, so hostapd is restarted on an interface that was deleted and is not created. -/
theorem applying_uncreated :
    ¬ ∀ d, (applying (id : String → String) radioDevice STATE).Reachable d →
      Throughout (CreatesFirst radioDevice) d.world.events := by
  intro hclaim
  have hrun : (applying (id : String → String) radioDevice STATE).Reachable (radioRun false) :=
    (((Transition.System.Reachable.start rfl).next
      (applying_applied id radioDevice STATE _ hotspotRender .boot)).next
      (applying_applied id radioDevice STATE _ noRender _)).next
      (applying_applied id radioDevice STATE _ hotspotRender _)
  have huncreated : ¬ Throughout (CreatesFirst radioDevice) (radioRun false).world.events := by
    decide +kernel
  exact huncreated (hclaim _ hrun)

/-- A render none of whose files are recorded restarts nothing. -/
theorem standing_of_unrecorded {rendered : Rendered} {d : Device String}
    (hnone : ∀ file ∈ rendered.files,
      (loaded radioDevice d.world).contains file.path = false) :
    ∀ other, Act.apply rendered = .apply other →
      Standing radioDevice (id : String → String) other d.world d.world.events := by
  rintro other hsame file hfile interface - hcontains
  rw [← Act.apply.inj hsame] at hfile
  rw [hnone file hfile] at hcontains
  cases hcontains

/-- Where the record of its going saves, the hotspot's interface is created again. -/
theorem radio_created :
    Throughout (CreatesFirst radioDevice) (radioRun true).world.events := by
  apply (applying_hostapd (id : String → String) radioDevice STATE).2.2
  have hfirst : (standing (id : String → String) radioDevice STATE).Reachable
      (Device.boot.radio true hotspotRender) :=
    .next (a := .apply hotspotRender) (.start rfl)
      ⟨standing_of_unrecorded (by decide), applying_applied _ _ _ _ _ _⟩
  have hsecond : (standing (id : String → String) radioDevice STATE).Reachable
      ((Device.boot.radio true hotspotRender).radio true noRender) :=
    .next (a := .apply noRender) hfirst
      ⟨standing_of_unrecorded (by decide), applying_applied _ _ _ _ _ _⟩
  exact .next (a := .apply hotspotRender) hsecond
    ⟨standing_of_unrecorded (by decide +kernel), applying_applied _ _ _ _ _ _⟩

end Bliti.Network.Apply
