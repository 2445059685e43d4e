/-!
# Eviction policies

Which block leaves a full cache: the one used last, or the one not used for the longest time.
-/

namespace DiskArray

/-- The choice of the block that leaves a full cache. -/
inductive EvictionPolicy where
  | mostRecent
  | leastRecent
deriving DecidableEq, Repr, Inhabited

/-- A name, in lower case, that no policy has. -/
structure PolicyError where
  name : String
deriving DecidableEq, Repr

def PolicyError.message (e : PolicyError) : String :=
  "unknown eviction policy '" ++ e.name ++ "'"

namespace EvictionPolicy

def name : EvictionPolicy → String
  | .mostRecent => "mru"
  | .leastRecent => "lru"

/-- The policy with a name, in any letter case of ASCII. -/
def ofName (text : String) : Except PolicyError EvictionPolicy :=
  let lower := String.ofList (text.toList.map Char.toLower)
  if lower = "mru" then .ok .mostRecent
  else if lower = "lru" then .ok .leastRecent
  else .error ⟨lower⟩

/-- Whether a block with stamp `a` leaves rather than one with stamp `b`. -/
def prefers : EvictionPolicy → (a b : Nat) → Bool
  | .mostRecent, a, b => b < a
  | .leastRecent, a, b => a < b

end EvictionPolicy

end DiskArray
