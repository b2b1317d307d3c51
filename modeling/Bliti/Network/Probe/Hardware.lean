import Bliti.Network.Probe.Radio
import Bliti.Network.Render.Files

/-!
# Probing - what selection and rendering run on

The probed radios as selection has them and as rendering has them, in the order
they were probed.
-/

namespace Bliti.Network

/-- The access point interface created on the radio at a place among those probed. -/
def Render.accessPoint (index : Nat) : String :=
  "ap" ++ toString index

namespace Probe

/-- A probed radio as selection has it. -/
def selectRadio (radio : RadioInfo) : Select.Radio where
  station := radio.station
  accessPoint := radio.alongside

/-- What selection runs on. -/
def selectHardware (radios : List RadioInfo) (wired : List String) : Select.Hardware where
  wired := wired
  radios := radios.map selectRadio

/-- A probed radio as rendering has it, at its place among those probed. -/
def renderRadio : RadioInfo × Nat → Render.Radio
  | (radio, index) =>
      { station := radio.station
        accessPoint := radio.alongside.map fun alongside =>
          { interface := Render.accessPoint index, alongside := alongside } }

/-- What rendering runs on. -/
def renderHardware (radios : List RadioInfo) (wired : List String) (paths : Render.Paths) :
    Render.Hardware where
  wired := wired
  radios := radios.zipIdx.map renderRadio
  paths := paths

/-- A station is of at most one radio rendered. -/
theorem stations_renderHardware (radios : List RadioInfo) (wired : List String)
    (paths : Render.Paths) :
    (renderHardware radios wired paths).radios.map Render.Radio.station =
      radios.map RadioInfo.station := by
  have hstation : Render.Radio.station ∘ renderRadio = RadioInfo.station ∘ Prod.fst := by
    funext entry
    rfl
  rw [renderHardware, List.map_map, hstation, ← List.map_map, List.zipIdx_map_fst]

/-- Rendering finds each radio selection has by its station, with an access point where
selection has one. -/
theorem radio_renderHardware {radios : List RadioInfo} {wired : List String}
    (hdistinct : (radios.map RadioInfo.station).Nodup) {radio : Select.Radio}
    (hradio : radio ∈ (selectHardware radios wired).radios) (paths : Render.Paths) :
    ∃ found, (renderHardware radios wired paths).radio radio.station = some found ∧
      found.accessPoint.map Render.AccessPoint.alongside = radio.accessPoint := by
  obtain ⟨info, hinfo, rfl⟩ := List.mem_map.mp hradio
  obtain ⟨index, hat⟩ := List.mem_iff_getElem?.mp hinfo
  have hin : renderRadio (info, index) ∈ (renderHardware radios wired paths).radios :=
    List.mem_map.mpr ⟨_, List.mem_zipIdx_iff_getElem?.mpr hat, rfl⟩
  refine ⟨renderRadio (info, index), ?_, ?_⟩
  · rcases hfind : (renderHardware radios wired paths).radio info.station with _ | other
    · have hnone := List.find?_eq_none.mp hfind _ hin
      simp [renderRadio] at hnone
    · have hother : other ∈ (renderHardware radios wired paths).radios :=
        List.mem_of_find?_eq_some hfind
      have hstation : other.station = info.station := by simpa using List.find?_some hfind
      rw [← stations_renderHardware radios wired paths] at hdistinct
      rw [List.inj_on_of_nodup_map hdistinct hother hin hstation] at hfind
      exact hfind
  · cases halongside : info.alongside with
    | none => simp [renderRadio, selectRadio, halongside]
    | some alongside => simp [renderRadio, selectRadio, halongside]

end Probe

end Bliti.Network
