import DiskArray.Device.Command
import DiskArray.Device.Error
import DiskArray.Geometry
import DiskArray.Text.Numeral

/-!
# Driver errors

Why the driver refuses a request or gives it up. Each error has a return code below zero; a request given
up because the device failed also tells how many bytes were transferred before.
-/

namespace DiskArray

/-- Why a request fails. -/
inductive DriverError where
  | alreadyMounted
  | alreadyUnmounted
  | notMounted
  | lengthTooLarge (length : Nat)
  | badBuffer
  | outOfRange (start length : Nat)
  | permissionDenied
  /-- The device failed; the bytes before `transferred` are done and stay so. -/
  | device (command : Command) (source : DeviceError) (transferred : Nat)
deriving DecidableEq, Repr

namespace DriverError

def code : DriverError → Int
  | .alreadyMounted => -1
  | .alreadyUnmounted => -1
  | .outOfRange _ _ => -1
  | .lengthTooLarge _ => -2
  | .notMounted => -3
  | .badBuffer => -4
  | .device _ _ _ => -4
  | .permissionDenied => -5

/-- Bytes transferred before the failure. -/
def transferred : DriverError → Nat
  | .device _ _ transferred => transferred
  | _ => 0

def message : DriverError → String
  | .alreadyMounted => "Array is already mounted"
  | .alreadyUnmounted => "Array is not mounted, nothing to unmount"
  | .notMounted => "Array is not mounted"
  | .lengthTooLarge length =>
    "Transfer of " ++ toString length ++ " bytes exceeds the " ++ toString maxTransfer ++ " byte limit"
  | .badBuffer => "Missing or undersized buffer"
  | .outOfRange start length =>
    "Range [" ++ Text.hexNumber 1 start ++ ", +" ++ toString length ++
      ") is outside the linear address space"
  | .permissionDenied => "Write permission has not been granted"
  | .device command source transferred =>
    "Device " ++ command.name ++ " failed after " ++ toString transferred ++ " bytes: " ++
      source.message ++ " (jbod errno " ++ toString source.code ++ ")"

end DriverError

end DiskArray
