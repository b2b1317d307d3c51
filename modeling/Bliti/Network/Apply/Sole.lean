import Bliti.Network.Apply.Laws

/-!
# Applying - one hostapd at a time

While every render holds at most one hostapd configuration, each hostapd running
has its configuration on disk, so what is to run elsewhere is taken down first.
-/

namespace Bliti.Network.Apply

open Std (ExtTreeMap)
open Interruptible Render

variable {δ : Type}

section Sole

variable {paths : Paths}

/-- Each hostapd running has its configuration on disk. -/
def Located (paths : Paths) (w : World δ) : Prop :=
  ∀ interface, running interface w.events = true →
    ∃ path ∈ w.disk, Reader.of paths path = some (.hostapd interface)

/-- An operation that is not hostapd's has none run or stop. -/
theorem running_other {interface : String} {op : Op δ} {ok : Bool} {events : List (Event δ)}
    (hop : op.ofHostapd = false) :
    running interface (⟨op, ok⟩ :: events) = running interface events := by
  cases op with
  | call made =>
      cases made <;> first | rfl | cases hop
  | _ => rfl

/-- The other backends leave each hostapd its configuration. -/
theorem steady_located (paths : Paths) : Steady (δ := δ) paths (Located paths) where
  write := by
    intro w file _ hw ok
    refine ⟨?_, hw⟩
    intro interface hrunning
    rw [World.note, running_other rfl, World.write_events] at hrunning
    obtain ⟨path, hpath, hreader⟩ := hw interface hrunning
    refine ⟨path, ?_, hreader⟩
    simp only [World.note, World.write, World.changed_disk, ExtTreeMap.mem_insert]
    exact .inr hpath
  remove := by
    intro w path hother hw ok
    refine ⟨?_, hw⟩
    intro interface hrunning
    rw [World.note, running_other rfl, World.remove_events] at hrunning
    obtain ⟨found, hfound, hreader⟩ := hw interface hrunning
    refine ⟨found, ?_, hreader⟩
    simp only [World.note, World.remove_disk, ExtTreeMap.mem_erase]
    refine ⟨?_, hfound⟩
    intro hsame
    rw [Std.LawfulEqCmp.eq_of_compare hsame] at hother
    exact hother (Reader.backend_of hreader)
  save := by
    intro w record hw ok
    exact ⟨hw, hw⟩
  call := by
    intro w call hcall hw
    have hdisk : (w.took paths call).disk = w.disk := by
      unfold World.took
      split
      · split <;> rfl
      all_goals rfl
    have hcalled : (Op.call call : Op δ).ofHostapd = false := hcall
    constructor
    · intro interface hrunning
      rw [World.note, running_other hcalled, World.took_events] at hrunning
      obtain ⟨path, hpath, hreader⟩ := hw interface hrunning
      exact ⟨path, by simpa [World.note, hdisk] using hpath, hreader⟩
    · intro interface hrunning
      rw [World.note, running_other hcalled] at hrunning
      exact hw interface hrunning

/-- A render with at most one hostapd configuration. -/
def OneConf (paths : Paths) (rendered : Rendered) : Prop :=
  (rendered.files.filter fun file => Backend.of paths file.path = some .hostapd).length ≤ 1

/-- The hostapd configurations of such a render are of one interface. -/
theorem OneConf.eq {rendered : Rendered} (hone : OneConf paths rendered) {path other : Path}
    {interface on : String} (hpath : rendered.holds path = true)
    (hother : rendered.holds other = true)
    (hreader : Reader.of paths path = some (.hostapd interface))
    (hon : Reader.of paths other = some (.hostapd on)) : interface = on := by
  obtain ⟨file, hfile, hsame⟩ := List.any_eq_true.mp hpath
  obtain ⟨next, hnext, hsameNext⟩ := List.any_eq_true.mp hother
  rw [beq_iff_eq] at hsame hsameNext
  have hmem : ∀ {found : File} {reader : String}, found ∈ rendered.files →
      Reader.of paths found.path = some (.hostapd reader) →
      found ∈ rendered.files.filter fun file => Backend.of paths file.path = some .hostapd := by
    intro found reader hfound hfoundReader
    exact List.mem_filter.mpr ⟨hfound, decide_eq_true (Reader.backend_of hfoundReader)⟩
  have hfirst := hmem hfile (hsame ▸ hreader)
  have hsecond := hmem hnext (hsameNext ▸ hon)
  have heq : file = next := by
    unfold OneConf at hone
    generalize rendered.files.filter _ = confs at hone hfirst hsecond
    match confs with
    | [] => cases hfirst
    | [conf] => rw [List.mem_singleton.mp hfirst, List.mem_singleton.mp hsecond]
    | _ :: _ :: _ => simp at hone
  rw [← hsame, heq, hsameNext, hon] at hreader
  exact (Reader.hostapd.inj (Option.some.inj hreader)).symm

/-- What is kept of where hostapd runs. -/
def Sole (paths : Paths) (w : World δ) : Prop :=
  Throughout OneAtATime w.events ∧ Located paths w

/-- Calls leave the files alone. -/
@[simp]
theorem World.took_disk (w : World δ) (call : Call) : (w.took paths call).disk = w.disk := by
  unfold World.took
  split
  · split <;> rfl
  all_goals rfl

variable {step : Step δ}

/-- What a call of hostapd's share keeps: the files as they are, and what is said of
what was done. -/
theorem Step.keeps_calling {call : Call} {Q R : Disk → List (Event δ) → Prop}
    (hbefore : ∀ w : World δ, Q w.disk w.events → Sole paths w)
    (hafter : ∀ w : World δ, R w.disk w.events → Sole paths w)
    (hok : ∀ disk earlier, Q disk earlier → R disk (⟨.call call, true⟩ :: earlier))
    (herror : ∀ disk earlier, Q disk earlier → Q disk (⟨.call call, false⟩ :: earlier)) :
    Keeps (E := step.Effects) (Sole paths) (fun w => Q w.disk w.events)
      (step.system call) fun _ w => R w.disk w.events := by
  apply step.keeps_system hbefore
  · intro w hw
    have hcalled : R ((w.took step.hardware.paths call).note (.call call) true).disk
        ((w.took step.hardware.paths call).note (.call call) true).events := by
      simp only [World.note, World.took_events, World.took_disk]
      exact hok _ _ hw
    exact ⟨hafter _ hcalled, hcalled⟩
  · intro w hw
    exact hbefore _ (herror _ _ hw)

/-- While the hotspots of some configurations are still to be taken down: each hostapd
running has a configuration on disk, as it was at the start, and not one already
taken down. -/
structure Falling (paths : Paths) (start : Disk) (removed left : List Path) (disk : Disk)
    (events : List (Event δ)) : Prop where
  law : Throughout OneAtATime events
  before : ∀ path ∈ disk, Backend.of paths path = some .hostapd → path ∈ start
  runs : ∀ interface, running interface events = true →
    ∃ path ∈ disk, Reader.of paths path = some (.hostapd interface) ∧
      (path ∈ removed → path ∈ left)

/-- What falls is kept. -/
theorem Falling.sole {initial : Disk} {removed left : List Path} {w : World δ}
    (hfalling : Falling paths initial removed left w.disk w.events) : Sole paths w := by
  refine ⟨hfalling.law, ?_⟩
  intro interface hrunning
  obtain ⟨path, hpath, hreader, -⟩ := hfalling.runs interface hrunning
  exact ⟨path, hpath, hreader⟩

/-- A call that has no hostapd run keeps what falls. -/
theorem Falling.after {initial disk : Disk} {removed left next : List Path} {call : Call}
    {ok : Bool} {events : List (Event δ)}
    (hfalling : Falling paths initial removed left disk events)
    (hlaw : OneAtATime (.call call) events)
    (hrunning : ∀ interface, running interface (⟨.call call, ok⟩ :: events) = true →
      running interface events = true ∧ ∀ path, Reader.of paths path = some (.hostapd interface) →
        path ∈ left → path ∈ next) :
    Falling paths initial removed next disk (⟨.call call, ok⟩ :: events) where
  law := ⟨hlaw, hfalling.law⟩
  before := hfalling.before
  runs := by
    intro interface hruns
    obtain ⟨hstill, hnext⟩ := hrunning interface hruns
    obtain ⟨path, hpath, hreader, hleft⟩ := hfalling.runs interface hstill
    exact ⟨path, hpath, hreader, fun hmem => hnext path hreader (hleft hmem)⟩

/-- Taking down a hotspot, its hostapd stops first. -/
theorem Step.takeDown_falling {initial : Disk} {removed rest : List Path} (path : Path) :
    Keeps (E := step.Effects) (Sole step.hardware.paths)
      (fun w => Falling step.hardware.paths initial removed (path :: rest) w.disk w.events)
      (step.takeDown path)
      fun _ w => Falling step.hardware.paths initial removed rest w.disk w.events := by
  unfold takeDown
  split
  · rename_i hnone
    apply Keeps.pure
    intro w hfalling
    refine ⟨hfalling.sole, hfalling.law, hfalling.before, ?_⟩
    intro interface hrunning
    obtain ⟨found, hfound, hreader, hleft⟩ := hfalling.runs interface hrunning
    refine ⟨found, hfound, hreader, fun hmem => ?_⟩
    rcases List.mem_cons.mp (hleft hmem) with rfl | hrest
    · obtain ⟨on, hon, -⟩ := (Reader.of_eq_hostapd (Reader.backend_of hreader)).mp hreader
      rw [hnone] at hon
      cases hon
    · exact hrest
  · rename_i interface hinterface
    have hstop : Keeps (E := step.Effects) (Sole step.hardware.paths)
        (fun w => Falling step.hardware.paths initial removed (path :: rest) w.disk w.events)
        (step.system (.hostapd .stop interface))
        fun _ w => Falling step.hardware.paths initial removed rest w.disk w.events := by
      apply step.keeps_calling (fun _ hfalling => hfalling.sole)
        (fun _ hfalling => hfalling.sole)
      · intro disk earlier hfalling
        apply hfalling.after (by trivial)
        intro other hrunning
        simp only [running, Bool.and_eq_true, bne_iff_ne] at hrunning
        refine ⟨hrunning.2, fun found hreader hmem => ?_⟩
        rcases List.mem_cons.mp hmem with rfl | hrest
        · obtain ⟨on, hon, hsame⟩ :=
            (Reader.of_eq_hostapd (Reader.backend_of hreader)).mp hreader
          rw [hinterface] at hon
          rw [Reader.hostapd.inj hsame] at hrunning
          exact absurd (Option.some.inj hon) hrunning.1
        · exact hrest
      · intro disk earlier hfalling
        apply hfalling.after (by trivial)
        intro other hrunning
        exact ⟨hrunning, fun _ _ hmem => hmem⟩
    have hgoes : ∀ call, call = .closeFirewall interface ∨ call = .deleteAccessPoint interface →
        Keeps (E := step.Effects) (Sole step.hardware.paths)
          (fun w => Falling step.hardware.paths initial removed rest w.disk w.events)
          (step.system call)
          fun _ w => Falling step.hardware.paths initial removed rest w.disk w.events := by
      intro call hcall
      have hsame : ∀ (disk : Disk) (earlier : List (Event δ)) ok,
          Falling step.hardware.paths initial removed rest disk earlier →
          Falling step.hardware.paths initial removed rest disk (⟨.call call, ok⟩ :: earlier) := by
        intro disk earlier ok hfalling
        apply hfalling.after
        · rcases hcall with rfl | rfl <;> trivial
        · intro other hrunning
          refine ⟨?_, fun _ _ hmem => hmem⟩
          rcases hcall with rfl | rfl <;> exact hrunning
      apply step.keeps_calling (fun _ hfalling => hfalling.sole)
        (fun _ hfalling => hfalling.sole)
      · intro disk earlier hfalling
        exact hsame disk earlier true hfalling
      · intro disk earlier hfalling
        exact hsame disk earlier false hfalling
    apply Keeps.bind _ hstop
    intro _
    apply Keeps.bind _ (hgoes _ (.inl rfl))
    intro _
    split
    · exact hgoes _ (.inr rfl)
    · exact .pure fun w hfalling => ⟨hfalling.sole, hfalling⟩

/-- While hotspots are brought up: each hostapd running has its configuration on disk,
rendered, as are those written. -/
structure Rising (paths : Paths) (rendered : Rendered) (written : List File) (disk : Disk)
    (events : List (Event δ)) : Prop where
  law : Throughout OneAtATime events
  runs : ∀ interface, running interface events = true →
    ∃ path ∈ disk, Reader.of paths path = some (.hostapd interface) ∧
      rendered.holds path = true
  present : ∀ file ∈ written, file.path ∈ disk

/-- What rises is kept. -/
theorem Rising.sole {rendered : Rendered} {written : List File} {w : World δ}
    (hrising : Rising paths rendered written w.disk w.events) : Sole paths w := by
  refine ⟨hrising.law, ?_⟩
  intro interface hrunning
  obtain ⟨path, hpath, hreader, -⟩ := hrising.runs interface hrunning
  exact ⟨path, hpath, hreader⟩

/-- Putting files in place with none of the rendered ones taken away leaves each hostapd
running its configuration. -/
theorem Step.put_rising {rendered : Rendered}
    (hremoved : ∀ path ∈ step.removed, rendered.holds path = false) :
    Keeps (E := step.Effects) (Sole step.hardware.paths)
      (fun w => Rising step.hardware.paths rendered [] w.disk w.events) step.put
      fun _ w => Rising step.hardware.paths rendered [] w.disk w.events := by
  apply step.keeps_put fun _ hrising => hrising.sole
  · intro file _ w hrising ok
    refine ⟨⟨?_, ?_, by simp⟩, ⟨trivial, hrising.law⟩, hrising.runs, by simp⟩
    · simp only [World.note, World.write_events]
      exact ⟨trivial, hrising.law⟩
    · intro interface hrunning
      rw [World.note, running_other rfl, World.write_events] at hrunning
      obtain ⟨path, hpath, hreader⟩ := hrising.runs interface hrunning
      refine ⟨path, ?_, hreader⟩
      simp only [World.note, World.write, World.changed_disk, ExtTreeMap.mem_insert]
      exact .inr hpath
  · intro path hpath w hrising ok
    refine ⟨⟨?_, ?_, by simp⟩, ⟨trivial, hrising.law⟩, hrising.runs, by simp⟩
    · simp only [World.note, World.remove_events]
      exact ⟨trivial, hrising.law⟩
    · intro interface hrunning
      rw [World.note, running_other rfl, World.remove_events] at hrunning
      obtain ⟨found, hfound, hreader, hholds⟩ := hrising.runs interface hrunning
      refine ⟨found, ?_, hreader, hholds⟩
      simp only [World.note, World.remove_disk, ExtTreeMap.mem_erase]
      refine ⟨?_, hfound⟩
      intro hsame
      rw [← Std.LawfulEqCmp.eq_of_compare hsame, hremoved path hpath] at hholds
      cases hholds

/-- A call that starts no hostapd keeps what rises. -/
theorem Step.system_rising {rendered : Rendered} {written : List File} (call : Call)
    (hcall : ∀ action interface, call ≠ .hostapd action interface) :
    Keeps (E := step.Effects) (Sole paths)
      (fun w => Rising paths rendered written w.disk w.events) (step.system call)
      fun _ w => Rising paths rendered written w.disk w.events := by
  have hkept : ∀ (disk : Disk) (earlier : List (Event δ)) ok,
      Rising paths rendered written disk earlier →
      Rising paths rendered written disk (⟨.call call, ok⟩ :: earlier) := by
    intro disk earlier ok hrising
    refine ⟨⟨?_, hrising.law⟩, ?_, hrising.present⟩
    · cases call <;> first | trivial | exact absurd rfl (hcall _ _)
    · intro interface hrunning
      apply hrising.runs interface
      cases call <;> first | exact hrunning | exact absurd rfl (hcall _ _)
  apply step.keeps_calling (fun _ hrising => hrising.sole) (fun _ hrising => hrising.sole)
  · intro disk earlier
    exact hkept disk earlier true
  · intro disk earlier
    exact hkept disk earlier false

/-- Starting hostapd on a configuration rendered and in place keeps what rises: whatever
else runs has a configuration rendered, so that one. -/
theorem Step.start_rising {rendered : Rendered} {written : List File} {interface : String}
    {action : Hostapd} (haction : action ≠ .stop) (hone : OneConf paths rendered) {file : File}
    (hreader : Reader.of paths file.path = some (.hostapd interface))
    (hrendered : rendered.holds file.path = true) (hfile : file ∈ written) :
    Keeps (E := step.Effects) (Sole paths)
      (fun w => Rising paths rendered written w.disk w.events)
      (step.system (.hostapd action interface))
      fun _ w => Rising paths rendered written w.disk w.events := by
  have hkept : ∀ (disk : Disk) (earlier : List (Event δ)) ok,
      Rising paths rendered written disk earlier →
      Rising paths rendered written disk
        (⟨.call (.hostapd action interface), ok⟩ :: earlier) := by
    intro disk earlier ok hrising
    have halone : ∀ other, running other earlier = true → other = interface := by
      intro other hrunning
      obtain ⟨path, -, hon, hholds⟩ := hrising.runs other hrunning
      exact hone.eq hholds hrendered hon hreader
    have hruns : ∀ other,
        running other (⟨.call (.hostapd action interface), ok⟩ :: earlier) = true →
        other = interface := by
      intro other hrunning
      by_cases hearlier : running other earlier = true
      · exact halone other hearlier
      · cases action <;> simp_all [running]
    refine ⟨⟨?_, hrising.law⟩, ?_, hrising.present⟩
    · cases action with
      | start => exact halone
      | restart => exact halone
      | stop => trivial
    · intro other hrunning
      rw [hruns other hrunning]
      exact ⟨file.path, hrising.present file hfile, hreader, hrendered⟩
  apply step.keeps_calling (fun _ hrising => hrising.sole) (fun _ hrising => hrising.sole)
  · intro disk earlier
    exact hkept disk earlier true
  · intro disk earlier
    exact hkept disk earlier false

/-- Bringing up a hotspot whose configuration is in place, no other hostapd runs. -/
theorem Step.bringUp_rising {rendered : Rendered} {written : List File}
    (hone : OneConf step.hardware.paths rendered) {file : File}
    (hbackend : Backend.of step.hardware.paths file.path = some .hostapd)
    (hrendered : rendered.holds file.path = true) (hfile : file ∈ written) :
    Keeps (E := step.Effects) (Sole step.hardware.paths)
      (fun w => Rising step.hardware.paths rendered written w.disk w.events)
      (step.bringUp file)
      fun _ w => Rising step.hardware.paths rendered written w.disk w.events := by
  unfold bringUp
  split
  · exact .pure fun w hrising => ⟨hrising.sole, hrising⟩
  · rename_i interface hinterface
    have hreader : Reader.of step.hardware.paths file.path = some (.hostapd interface) :=
      (Reader.of_eq_hostapd hbackend).mpr ⟨interface, hinterface, rfl⟩
    split
    · apply Keeps.bind _ (step.system_rising (.openFirewall interface) (by simp))
      intro _
      exact step.start_rising (by simp) hone hreader hrendered hfile
    · apply Keeps.bind fun _ (w : World δ) =>
        Rising step.hardware.paths rendered written w.disk w.events
      · unfold create
        split
        · rename_i radio _
          exact step.system_rising (.createAccessPoint radio interface) (by simp)
        · exact .pure fun w hrising => ⟨hrising.sole, hrising⟩
      · intro _
        apply Keeps.bind _ (step.system_rising (.openFirewall interface) (by simp))
        intro _
        exact step.start_rising (by simp) hone hreader hrendered hfile

end Sole

end Bliti.Network.Apply
