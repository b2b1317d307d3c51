import Bliti.Network.Apply.Steady

/-!
# Applying - laws of hostapd's calls

Laws on the calls of an apply, each given what was done before it: what is stopped
before an interface goes, what is opened and created before hostapd starts, and
that it starts on one interface at a time.
-/

namespace Bliti.Network.Apply

open Std (ExtTreeMap)
open Interruptible Render

variable {δ : Type}

/-! ## Laws -/

/-- A law of operations, given what was done before, kept by everything done. -/
def Throughout (law : Op δ → List (Event δ) → Prop) : List (Event δ) → Prop
  | [] => True
  | event :: earlier => law event.op earlier ∧ Throughout law earlier

instance (law : Op δ → List (Event δ) → Prop)
    [decide : ∀ op earlier, Decidable (law op earlier)] :
    (events : List (Event δ)) → Decidable (Throughout law events)
  | [] => .isTrue trivial
  | event :: earlier =>
      have : Decidable (Throughout law earlier) := instDecidableThroughout law earlier
      inferInstanceAs (Decidable (law event.op earlier ∧ Throughout law earlier))

/-- An interface is deleted, and its firewall closed, only once hostapd was stopped on
it. -/
def StopsFirst : Op δ → List (Event δ) → Prop
  | .call (.deleteAccessPoint interface), earlier
  | .call (.closeFirewall interface), earlier => stopped interface earlier = true
  | _, _ => True

/-- hostapd is started on an interface only once its firewall was opened. -/
def OpensFirst : Op δ → List (Event δ) → Prop
  | .call (.hostapd .stop _), _ => True
  | .call (.hostapd _ interface), earlier => opened interface earlier = true
  | _, _ => True

/-- hostapd is started on an access point interface only once that was created. -/
def CreatesFirst (hardware : Hardware) : Op δ → List (Event δ) → Prop
  | .call (.hostapd .stop _), _ => True
  | .call (.hostapd _ interface), earlier =>
      (hardware.accessPointRadio interface).isSome = true → created interface earlier = true
  | _, _ => True

instance (hardware : Hardware) : (op : Op δ) → (earlier : List (Event δ)) →
    Decidable (CreatesFirst hardware op earlier)
  | .call (.hostapd .start _), _ | .call (.hostapd .restart _), _ =>
      inferInstanceAs (Decidable (_ → _))
  | .call (.hostapd .stop _), _ | .call (.setRegulatoryDomain _), _
  | .call (.createAccessPoint _ _), _ | .call (.deleteAccessPoint _), _
  | .call (.openFirewall _), _ | .call (.closeFirewall _), _ | .call .restartIwd, _
  | .call .reloadNetworkd, _ | .call .reloadResolved, _ | .load, _ | .owned, _
  | .existsAt _, _ | .write _, _ | .remove _, _ | .save _, _ => .isTrue trivial

/-- hostapd is started on an interface only while it runs on no other. -/
def OneAtATime : Op δ → List (Event δ) → Prop
  | .call (.hostapd .stop _), _ => True
  | .call (.hostapd _ interface), earlier =>
      ∀ other, running other earlier = true → other = interface
  | _, _ => True

/-! ## What keeps them -/

/-- A call keeps and establishes properties of what was done. -/
theorem Step.keeps_call {step : Step δ} {call : Call} {Inv : World δ → Prop}
    {P Q : List (Event δ) → Prop} (hkept : ∀ w, P w.events → Inv w)
    (hpost : ∀ w, Q w.events → Inv w)
    (hok : ∀ earlier, P earlier → Q (⟨.call call, true⟩ :: earlier))
    (herror : ∀ earlier, P earlier → P (⟨.call call, false⟩ :: earlier)) :
    Keeps (E := step.Effects) Inv (fun w => P w.events) (step.system call)
      fun _ w => Q w.events := by
  apply step.keeps_system hkept
  · intro w hw
    have hcalled : Q ((w.took step.hardware.paths call).note (.call call) true).events := by
      simp only [World.note, World.took_events]
      exact hok _ hw
    exact ⟨hpost _ hcalled, hcalled⟩
  · intro w hw
    exact hkept _ (herror _ hw)

/-- A law that says nothing of the other operations is kept by them. -/
theorem aloof_throughout {law : Op δ → List (Event δ) → Prop}
    (hlaw : ∀ op earlier, op.ofHostapd = false → law op earlier) :
    Aloof (Throughout law) := by
  intro op ok earlier hop hkept
  exact ⟨hlaw op earlier hop, hkept⟩

/-- A law of hostapd's calls says nothing of the other operations. -/
theorem stopsFirst_other (op : Op δ) (earlier : List (Event δ)) (hop : op.ofHostapd = false) :
    StopsFirst op earlier := by
  unfold StopsFirst
  split
  · cases hop
  · cases hop
  · trivial

theorem opensFirst_other (op : Op δ) (earlier : List (Event δ)) (hop : op.ofHostapd = false) :
    OpensFirst op earlier := by
  unfold OpensFirst
  split
  · trivial
  · cases hop
  · trivial

theorem createsFirst_other (hardware : Hardware) (op : Op δ) (earlier : List (Event δ))
    (hop : op.ofHostapd = false) : CreatesFirst hardware op earlier := by
  unfold CreatesFirst
  split
  · trivial
  · cases hop
  · trivial

theorem oneAtATime_other (op : Op δ) (earlier : List (Event δ)) (hop : op.ofHostapd = false) :
    OneAtATime op earlier := by
  unfold OneAtATime
  split
  · trivial
  · cases hop
  · trivial

namespace Step

variable {step : Step δ}

/-- hostapd is stopped on an interface before it goes. -/
theorem takeDown_stopsFirst (path : Path) :
    Keeps (E := step.Effects) (fun w => Throughout StopsFirst w.events)
      (fun w => Throughout StopsFirst w.events) (step.takeDown path)
      fun _ w => Throughout StopsFirst w.events := by
  unfold takeDown
  split
  · exact .pure fun w hw => ⟨hw, hw⟩
  · rename_i interface _
    let Down : List (Event δ) → Prop := fun events =>
      Throughout StopsFirst events ∧ stopped interface events = true
    have hstop : Keeps (E := step.Effects) (fun w => Throughout StopsFirst w.events)
        (fun w => Throughout StopsFirst w.events) (step.system (.hostapd .stop interface))
        fun _ w => Down w.events := by
      apply step.keeps_call (fun _ hw => hw) (fun _ hw => hw.1)
      · intro earlier hkept
        exact ⟨⟨trivial, hkept⟩, by simp [stopped]⟩
      · intro earlier hkept
        exact ⟨trivial, hkept⟩
    have hclose : Keeps (E := step.Effects) (fun w => Throughout StopsFirst w.events)
        (fun w => Down w.events) (step.system (.closeFirewall interface))
        fun _ w => Down w.events := by
      apply step.keeps_call (fun _ hw => hw.1) (fun _ hw => hw.1)
      · intro earlier hdown
        exact ⟨⟨hdown.2, hdown.1⟩, hdown.2⟩
      · intro earlier hdown
        exact ⟨⟨hdown.2, hdown.1⟩, hdown.2⟩
    have hdelete : Keeps (E := step.Effects) (fun w => Throughout StopsFirst w.events)
        (fun w => Down w.events) (step.system (.deleteAccessPoint interface))
        fun _ w => Down w.events := by
      apply step.keeps_call (fun _ hw => hw.1) (fun _ hw => hw.1)
      · intro earlier hdown
        exact ⟨⟨hdown.2, hdown.1⟩, hdown.2⟩
      · intro earlier hdown
        exact ⟨⟨hdown.2, hdown.1⟩, hdown.2⟩
    apply Keeps.bind _ hstop
    intro _
    apply Keeps.bind _ hclose
    intro _
    split
    · exact hdelete.weaken (fun _ hw => hw) fun _ _ hw => hw.1
    · exact .pure fun w hw => ⟨hw.1, hw.1⟩

/-- A call that no law is about keeps a law. -/
theorem system_throughout {law : Op δ → List (Event δ) → Prop} {call : Call}
    (hlaw : ∀ earlier, law (.call call) earlier) :
    Keeps (E := step.Effects) (fun w => Throughout law w.events)
      (fun w => Throughout law w.events) (step.system call)
      fun _ w => Throughout law w.events := by
  apply step.keeps_call (fun _ hw => hw) (fun _ hw => hw)
  · intro earlier hkept
    exact ⟨hlaw earlier, hkept⟩
  · intro earlier hkept
    exact ⟨hlaw earlier, hkept⟩

/-- Where a law is not about creating an interface, that keeps it. -/
theorem create_throughout {law : Op δ → List (Event δ) → Prop} {interface : String}
    (hlaw : ∀ radio earlier, law (.call (.createAccessPoint radio interface)) earlier) :
    Keeps (E := step.Effects) (fun w => Throughout law w.events)
      (fun w => Throughout law w.events) (step.create interface)
      fun _ w => Throughout law w.events := by
  unfold create
  split
  · rename_i radio _
    exact step.system_throughout (hlaw radio)
  · exact .pure fun w hw => ⟨hw, hw⟩

/-- Bringing up a hotspot stops nothing and takes nothing away. -/
theorem bringUp_stopsFirst (file : File) :
    Keeps (E := step.Effects) (fun w => Throughout StopsFirst w.events)
      (fun w => Throughout StopsFirst w.events) (step.bringUp file)
      fun _ w => Throughout StopsFirst w.events := by
  unfold bringUp
  split
  · exact .pure fun w hw => ⟨hw, hw⟩
  · split
    · apply Keeps.bind _ (step.system_throughout fun _ => trivial)
      intro _
      exact step.system_throughout fun _ => trivial
    · apply Keeps.bind _ (step.create_throughout fun _ _ => trivial)
      intro _
      apply Keeps.bind _ (step.system_throughout fun _ => trivial)
      intro _
      exact step.system_throughout fun _ => trivial

/-- Taking down a hotspot starts nothing. -/
theorem takeDown_opensFirst (path : Path) :
    Keeps (E := step.Effects) (fun w => Throughout OpensFirst w.events)
      (fun w => Throughout OpensFirst w.events) (step.takeDown path)
      fun _ w => Throughout OpensFirst w.events := by
  unfold takeDown
  split
  · exact .pure fun w hw => ⟨hw, hw⟩
  · apply Keeps.bind _ (step.system_throughout fun _ => trivial)
    intro _
    apply Keeps.bind _ (step.system_throughout fun _ => trivial)
    intro _
    split
    · exact step.system_throughout fun _ => trivial
    · exact .pure fun w hw => ⟨hw, hw⟩

/-- Bringing up a hotspot, its firewall is opened before hostapd starts. -/
theorem bringUp_opensFirst (file : File) :
    Keeps (E := step.Effects) (fun w => Throughout OpensFirst w.events)
      (fun w => Throughout OpensFirst w.events) (step.bringUp file)
      fun _ w => Throughout OpensFirst w.events := by
  unfold bringUp
  split
  · exact .pure fun w hw => ⟨hw, hw⟩
  · rename_i interface _
    have hopen : Keeps (E := step.Effects) (fun w => Throughout OpensFirst w.events)
        (fun w => Throughout OpensFirst w.events) (step.system (.openFirewall interface))
        fun _ w => Throughout OpensFirst w.events ∧ opened interface w.events = true := by
      apply step.keeps_call
        (Q := fun events => Throughout OpensFirst events ∧ opened interface events = true)
        (fun _ hw => hw) (fun _ hw => hw.1)
      · intro earlier hkept
        exact ⟨⟨trivial, hkept⟩, by simp [opened]⟩
      · intro earlier hkept
        exact ⟨trivial, hkept⟩
    have hstart : ∀ action, Keeps (E := step.Effects) (fun w => Throughout OpensFirst w.events)
        (fun w => Throughout OpensFirst w.events ∧ opened interface w.events = true)
        (step.system (.hostapd action interface)) fun _ w => Throughout OpensFirst w.events := by
      intro action
      have hlaw : ∀ earlier : List (Event δ), opened interface earlier = true →
          OpensFirst (.call (.hostapd action interface)) earlier := by
        intro earlier hopened
        cases action with
        | start => exact hopened
        | restart => exact hopened
        | stop => trivial
      apply step.keeps_call
        (P := fun events => Throughout OpensFirst events ∧ opened interface events = true)
        (fun _ hw => hw.1) (fun _ hw => hw)
      · intro earlier hopened
        exact ⟨hlaw earlier hopened.2, hopened.1⟩
      · intro earlier hopened
        exact ⟨⟨hlaw earlier hopened.2, hopened.1⟩, hopened.2⟩
    split
    · exact .bind _ hopen fun _ => hstart .restart
    · apply Keeps.bind _ (step.create_throughout fun _ _ => trivial)
      intro _
      exact .bind _ hopen fun _ => hstart .start

/-- hostapd's share keeps what taking down and bringing up each hotspot of it does. -/
theorem keeps_hostapd {P : List (Event δ) → Prop} {Inv : World δ → Prop}
    (hkept : ∀ w, P w.events → Inv w) (haloof : Aloof P)
    (hdown : ∀ path ∈ step.removed, Keeps (E := step.Effects) Inv (fun w => P w.events)
      (step.takeDown path) fun _ w => P w.events)
    (hup : ∀ file ∈ step.written, Keeps (E := step.Effects) Inv (fun w => P w.events)
      (step.bringUp file) fun _ w => P w.events) :
    Keeps (E := step.Effects) Inv (fun w => P w.events) step.hostapd
      fun _ w => P w.events := by
  apply Keeps.bind _ (Keeps.forM_same step.removed hkept hdown)
  intro _
  apply Keeps.bind _ (haloof.put step hkept)
  intro _
  exact Keeps.forM_same step.written hkept hup

end Step

/-- An interface created is there until it is deleted. -/
theorem created_after {interface : String} {op : Op δ} {ok : Bool} {events : List (Event δ)}
    (hop : op ≠ .call (.deleteAccessPoint interface))
    (hcreated : created interface events = true) :
    created interface (⟨op, ok⟩ :: events) = true := by
  cases op with
  | call made =>
      cases made with
      | createAccessPoint radio on =>
          cases ok
          · exact hcreated
          · simp [created, hcreated]
      | deleteAccessPoint on =>
          have hne : on ≠ interface := by
            rintro rfl
            exact hop rfl
          simp [created, hcreated, hne]
      | _ => exact hcreated
  | _ => exact hcreated

section Created

variable [DecidableEq δ] {hardware : Hardware} {digest : String → δ} {rendered : Rendered}
  {start : World δ} {step : Step δ}

/-- The interfaces hostapd will be restarted on are there: that of each rendered
configuration the record names and an apply is to write again. -/
def Standing (hardware : Hardware) (digest : String → δ) (rendered : Rendered) (start : World δ)
    (events : List (Event δ)) : Prop :=
  ∀ file ∈ rendered.files, ∀ interface,
    Reader.of hardware.paths file.path = some (.hostapd interface) →
    (loaded hardware start).contains file.path = true →
    ¬ Spared digest (loaded hardware start) start file →
    (hardware.accessPointRadio interface).isSome = true → created interface events = true

/-- What is there stays there while no interface of a rendered configuration is
deleted. -/
theorem Standing.after {op : Op δ} {ok : Bool} {events : List (Event δ)}
    (hstanding : Standing hardware digest rendered start events)
    (hop : ∀ file ∈ rendered.files, ∀ interface,
      Reader.of hardware.paths file.path = some (.hostapd interface) →
      op ≠ .call (.deleteAccessPoint interface)) :
    Standing hardware digest rendered start (⟨op, ok⟩ :: events) := by
  intro file hfile interface hreader hcontains hfresh hradio
  exact created_after (hop file hfile interface hreader)
    (hstanding file hfile interface hreader hcontains hfresh hradio)

/-- The law of creation with what is there for it. -/
def Ready (hardware : Hardware) (digest : String → δ) (rendered : Rendered) (start : World δ)
    (events : List (Event δ)) : Prop :=
  Throughout (CreatesFirst hardware) events ∧
    Standing hardware digest rendered start events

/-- A call that neither starts hostapd nor deletes an interface rendered on keeps both. -/
theorem Ready.after {call : Call} {ok : Bool} {events : List (Event δ)}
    (hready : Ready hardware digest rendered start events)
    (hlaw : CreatesFirst hardware (.call call) events)
    (hop : ∀ file ∈ rendered.files, ∀ interface,
      Reader.of hardware.paths file.path = some (.hostapd interface) →
      call ≠ .deleteAccessPoint interface) :
    Ready hardware digest rendered start (⟨.call call, ok⟩ :: events) := by
  refine ⟨⟨hlaw, hready.1⟩, hready.2.after ?_⟩
  intro file hfile interface hreader hsame
  exact hop file hfile interface hreader (Op.call.inj hsame)

/-- Such a call, as a step of an apply. -/
theorem Step.system_ready {call : Call}
    (hlaw : ∀ earlier : List (Event δ), Ready hardware digest rendered start earlier →
      CreatesFirst hardware (.call call) earlier)
    (hop : ∀ file ∈ rendered.files, ∀ interface,
      Reader.of hardware.paths file.path = some (.hostapd interface) →
      call ≠ .deleteAccessPoint interface) :
    Keeps (E := step.Effects) (fun w => Throughout (CreatesFirst hardware) w.events)
      (fun w => Ready hardware digest rendered start w.events) (step.system call)
      fun _ w => Ready hardware digest rendered start w.events := by
  apply step.keeps_call (fun _ hw => hw.1) (fun _ hw => hw.1)
  · intro earlier hready
    exact hready.after (hlaw earlier hready) hop
  · intro earlier hready
    exact hready.after (hlaw earlier hready) hop

/-- The interface of a hostapd configuration taken away is none that one is rendered
for. -/
theorem Share.interface_ne (hshare : Share hardware digest rendered (loaded hardware start) start step)
    {path : Path} (hpath : path ∈ step.removed) {interface : String}
    (hinterface : hardware.paths.hostapdInterface path = some interface) {file : File}
    (hfile : file ∈ rendered.files) {other : String}
    (hreader : Reader.of hardware.paths file.path = some (.hostapd other)) :
    interface ≠ other := by
  rintro rfl
  have hof := Reader.backend_of hreader
  obtain ⟨on, hon, hsame⟩ := (Reader.of_eq_hostapd hof).mp hreader
  rw [← Reader.hostapd.inj hsame] at hon
  have hsamePath : file.path = path := by
    rw [Paths.hostapdConf_of_interface hon, Paths.hostapdConf_of_interface hinterface]
  exact hshare.rendered_kept hfile (hsamePath ▸ hpath)

/-- Taking down a hotspot deletes no interface rendered on. -/
theorem Step.takeDown_ready
    (hshare : Share hardware digest rendered (loaded hardware start) start step)
    (path : Path) (hpath : path ∈ step.removed) :
    Keeps (E := step.Effects) (fun w => Throughout (CreatesFirst hardware) w.events)
      (fun w => Ready hardware digest rendered start w.events) (step.takeDown path)
      fun _ w => Ready hardware digest rendered start w.events := by
  unfold takeDown
  rw [hshare.device]
  split
  · exact .pure fun w hw => ⟨hw.1, hw⟩
  · rename_i interface hinterface
    apply Keeps.bind _ (step.system_ready (by intro _ _; trivial) (by simp))
    intro _
    apply Keeps.bind _ (step.system_ready (by intro _ _; trivial) (by simp))
    intro _
    split
    · apply step.system_ready (by intro _ _; trivial)
      intro file hfile other hreader hsame
      exact hshare.interface_ne hpath hinterface hfile hreader
        (Call.deleteAccessPoint.inj hsame)
    · exact .pure fun w hw => ⟨hw.1, hw⟩

/-- Bringing up a hotspot, its interface is created before hostapd starts, or was. -/
theorem Step.bringUp_ready
    (hshare : Share hardware digest rendered (loaded hardware start) start step)
    (hrecord : ∀ path, Backend.of hardware.paths path = some step.backend →
      step.record.contains path = (loaded hardware start).contains path)
    (hbackend : step.backend = .hostapd) (file : File) (hfile : file ∈ step.written) :
    Keeps (E := step.Effects) (fun w => Throughout (CreatesFirst hardware) w.events)
      (fun w => Ready hardware digest rendered start w.events) (step.bringUp file)
      fun _ w => Ready hardware digest rendered start w.events := by
  obtain ⟨⟨hmem, hof⟩, hfresh⟩ := (hshare.written file).mp hfile
  unfold bringUp
  rw [hshare.device]
  split
  · exact .pure fun w hw => ⟨hw.1, hw⟩
  · rename_i interface hinterface
    have hreader : Reader.of hardware.paths file.path = some (.hostapd interface) := by
      rw [Reader.of_eq_hostapd (hbackend ▸ hof)]
      exact ⟨interface, hinterface, rfl⟩
    split
    · rename_i hcontains
      rw [hrecord file.path hof] at hcontains
      apply Keeps.bind _ (step.system_ready (by intro _ _; trivial) (by simp))
      intro _
      apply step.system_ready _ (by simp)
      intro earlier hready hradio
      exact hready.2 file hmem interface hreader hcontains hfresh hradio
    · let There : List (Event δ) → Prop := fun events =>
        Ready hardware digest rendered start events ∧
          ((hardware.accessPointRadio interface).isSome = true → created interface events = true)
      have hcreate : Keeps (E := step.Effects)
          (fun w => Throughout (CreatesFirst hardware) w.events)
          (fun w => Ready hardware digest rendered start w.events) (step.create interface)
          fun _ w => There w.events := by
        unfold create
        rw [hshare.device]
        split
        · apply step.keeps_call (fun _ hw => hw.1) (fun _ hw => hw.1.1)
          · intro earlier hready
            refine ⟨hready.after trivial (by simp), ?_⟩
            intro _
            simp [created]
          · intro earlier hready
            exact hready.after trivial (by simp)
        · rename_i hnone
          exact .pure fun w hw => ⟨hw.1, hw, by simp [hnone]⟩
      have hopen : Keeps (E := step.Effects)
          (fun w => Throughout (CreatesFirst hardware) w.events)
          (fun w => There w.events) (step.system (.openFirewall interface))
          fun _ w => There w.events := by
        apply step.keeps_call (fun _ hw => hw.1.1) (fun _ hw => hw.1.1)
        · intro earlier hthere
          exact ⟨hthere.1.after trivial (by simp),
            fun hradio => created_after (by simp) (hthere.2 hradio)⟩
        · intro earlier hthere
          exact ⟨hthere.1.after trivial (by simp),
            fun hradio => created_after (by simp) (hthere.2 hradio)⟩
      have hstart : Keeps (E := step.Effects)
          (fun w => Throughout (CreatesFirst hardware) w.events)
          (fun w => There w.events) (step.system (.hostapd .start interface))
          fun _ w => There w.events := by
        apply step.keeps_call (fun _ hw => hw.1.1) (fun _ hw => hw.1.1)
        · intro earlier hthere
          exact ⟨hthere.1.after hthere.2 (by simp),
            fun hradio => created_after (by simp) (hthere.2 hradio)⟩
        · intro earlier hthere
          exact ⟨hthere.1.after hthere.2 (by simp),
            fun hradio => created_after (by simp) (hthere.2 hradio)⟩
      apply Keeps.bind _ hcreate
      intro _
      apply Keeps.bind _ hopen
      intro _
      exact hstart.weaken (fun _ hw => hw) fun _ _ hw => hw.1

end Created

end Bliti.Network.Apply
