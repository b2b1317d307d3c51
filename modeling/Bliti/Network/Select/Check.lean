import Bliti.Network.Select.Types

/-!
# Selection - the rules that turn on the hardware

A document selection could not carry out is refused: a candidate naming an
interface the device does not have, or a hotspot with no radio able to run it.
-/

namespace Bliti.Network.Select

open Channel.Config

variable {φ : Type}

/-- A fault at the part of the document some segments name. -/
def invalid (segments : List Segment) (reason : String) : Invalid where
  atPath := path segments
  reason := reason

/-- The rules of one candidate, at its rank. -/
def checkAttachment (hardware : Hardware) (rank : Nat) (attachment : Attachment φ) :
    Except Invalid Unit :=
  let atMember (name : String) := [.name "attachments", .index rank, .name name]
  let checkWired (interface : String) : Except Invalid Unit :=
    if hardware.wired.contains interface then .ok ()
    else .error (invalid (atMember "interface")
      (Text.debug interface ++ " is not a wired interface on this device"))
  match attachment.kind with
  | .wiredDynamic interface => checkWired interface
  | .wiredStatic interface _ _ => checkWired interface
  | .wireless wireless =>
      if hardware.radios.isEmpty then
        .error (invalid (atMember "kind") "this device has no wireless interface")
      else
        match wireless.interface with
        | some interface =>
            if (hardware.radio interface).isNone then
              .error (invalid (atMember "interface")
                (Text.debug interface ++ " is not a wireless interface on this device"))
            else .ok ()
        | none => .ok ()

/-- The rules of the hotspot. -/
def checkHotspot (hardware : Hardware) (hotspot : Hotspot) : Except Invalid Unit := do
  let segments : List Segment :=
    match hotspot.interface with
    | some _ => [.name "hotspot", .name "interface"]
    | none => [.name "hotspot"]
  match hotspot.interface with
  | some interface =>
      match hardware.radio interface with
      | none =>
          .error (invalid segments
            (Text.debug interface ++ " is not a wireless interface on this device"))
      | some radio =>
          if radio.accessPoint.isNone then
            .error (invalid segments (interface ++ " cannot run a hotspot"))
  | none => pure ()
  if (hardware.hotspotRadios hotspot).isEmpty then
    .error (invalid segments "this device cannot run a hotspot")

/-- Refuse a document selection could not carry out on some hardware. -/
def check (document : Document φ) (hardware : Hardware) : Except Invalid Unit := do
  document.attachments.zipIdx.forM fun (attachment, rank) =>
    checkAttachment hardware rank attachment
  match document.hotspot with
  | none => pure ()
  | some hotspot => checkHotspot hardware hotspot

end Bliti.Network.Select
