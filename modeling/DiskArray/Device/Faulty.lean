import DiskArray.Device.Basic
import DiskArray.Fault

/-!
# A device that fails as planned

The plan watches the commands that reach the device. A call that the plan makes fail does not reach the
device behind it, so it is not counted there and changes nothing.
-/

namespace DiskArray

/-- A device whose calls fail as planned. -/
structure FaultyDevice (δ : Type) where
  device : δ
  plan : Fault.Plan Command DeviceError

namespace FaultyDevice

variable {δ : Type} [Controller δ]

/-- Lets a call through to the device. -/
def forward (f : FaultyDevice δ) (code : UInt32) (buffer : Option Block) : Reply (FaultyDevice δ) :=
  let reply := Controller.operate f.device code buffer
  { reply with device := { f with device := reply.device } }

/-- Carries out a code, or fails as planned. Codes that do not decode are not watched. -/
def operate (f : FaultyDevice δ) (code : UInt32) (buffer : Option Block) : Reply (FaultyDevice δ) :=
  match Operation.decode code with
  | .error _ => f.forward code buffer
  | .ok op =>
    match Fault.Plan.call op.command f.plan with
    | (some e, plan) => { result := .error e, buffer, device := { f with plan }, log := [] }
    | (none, plan) => forward { f with plan } code buffer

instance : Controller (FaultyDevice δ) := ⟨operate⟩

end FaultyDevice

end DiskArray
