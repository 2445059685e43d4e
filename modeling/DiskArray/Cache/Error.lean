import DiskArray.Geometry

/-!
# Cache errors

Why the cache refuses a call, and the bounds on its capacity.
-/

namespace DiskArray

namespace Cache

/-- Least capacity of a cache that is in use. -/
abbrev minCapacity : Nat := 2

/-- Greatest capacity. -/
abbrev maxCapacity : Nat := 4096

end Cache

/-- Why the cache refuses a call. -/
inductive CacheError where
  | uninitialized
  | alreadyCreated
  | disabled
  | capacityOutOfBounds (capacity : Nat)
  | duplicateKey (id : BlockId)
deriving DecidableEq, Repr

def CacheError.message : CacheError → String
  | .uninitialized => "Cache has not been created"
  | .alreadyCreated => "Cache already exists"
  | .disabled => "Cache is disabled"
  | .capacityOutOfBounds n =>
    "Cache capacity " ++ toString n ++ " is outside [" ++ toString Cache.minCapacity ++ ", " ++
      toString Cache.maxCapacity ++ "]"
  | .duplicateKey id =>
    "Block (disk " ++ toString id.disk ++ ", block " ++ toString id.block ++ ") is already cached"

end DiskArray
