/-!
# Device errors

The twelve errors of the device. Each has a number, from one on, and a text.
-/

namespace DiskArray

/-- Why the device refuses an operation. -/
inductive DeviceError where
  | unmounted
  | alreadyMounted
  | alreadyUnmounted
  | cacheLoadFail
  | cacheWriteFail
  | badCommand
  | badDiskNumber
  | badBlockNumber
  | badRead
  | badWrite
  | writePermissionAlreadyGranted
  | writePermissionAlreadyRevoked
deriving DecidableEq, Repr

namespace DeviceError

def code : DeviceError → Nat
  | .unmounted => 1
  | .alreadyMounted => 2
  | .alreadyUnmounted => 3
  | .cacheLoadFail => 4
  | .cacheWriteFail => 5
  | .badCommand => 6
  | .badDiskNumber => 7
  | .badBlockNumber => 8
  | .badRead => 9
  | .badWrite => 10
  | .writePermissionAlreadyGranted => 11
  | .writePermissionAlreadyRevoked => 12

def message : DeviceError → String
  | .unmounted => "JBOD is not mounted"
  | .alreadyMounted => "JBOD is already mounted"
  | .alreadyUnmounted => "JBOD is already unmounted"
  | .cacheLoadFail => "Failed to load block cache"
  | .cacheWriteFail => "Failed to write block cache"
  | .badCommand => "Invalid JBOD command"
  | .badDiskNumber => "Invalid disk number"
  | .badBlockNumber => "Invalid block number"
  | .badRead => "Block read failed"
  | .badWrite => "Block write failed"
  | .writePermissionAlreadyGranted => "Write permission already granted"
  | .writePermissionAlreadyRevoked => "Write permission already revoked"

end DeviceError

end DiskArray
