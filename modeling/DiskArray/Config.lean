import DiskArray.Cache.Error
import DiskArray.Cache.Policy
import DiskArray.Log
import DiskArray.Text.Blank
import DiskArray.Text.Numeral

/-!
# Configuration

Four environment variables set the array up; a variable that is not set leaves its default. They are
read in a fixed order, and the first value that cannot be read is the error.
-/

namespace DiskArray

/-- What can be set. -/
inductive Setting where
  | disk | cache | eviction | log
deriving DecidableEq, Repr

namespace Setting

def all : List Setting := [.disk, .cache, .eviction, .log]

/-- The environment variable of a setting. -/
def variableName : Setting → String
  | .disk => "MDADM_DISK"
  | .cache => "MDADM_CACHE"
  | .eviction => "MDADM_EVICTION"
  | .log => "MDADM_LOG"

end Setting

/-- The values of the variables that are set. -/
abbrev Environment := Setting → Option String

/-- How the array is set up. -/
structure Config where
  /-- Path of the disk image. -/
  image : String := "jbod.img"
  /-- Capacity of the cache, which is not in use without one. -/
  cacheEntries : Option Nat := none
  policy : EvictionPolicy := .mostRecent
  threshold : Log.Threshold := .upTo .warn
deriving DecidableEq, Repr

namespace Config

/-- What is wrong with a value. -/
inductive Reason where
  | notANumber
  | capacity
  | policy (e : PolicyError)
  | level
deriving DecidableEq, Repr

def Reason.message : Reason → String
  | .notANumber => "not a number"
  | .capacity =>
    "must be 0 or within [" ++ toString Cache.minCapacity ++ ", " ++ toString Cache.maxCapacity ++ "]"
  | .policy e => e.message
  | .level => "expected off, error, warn, info, debug or trace"

end Config

/-- A value that cannot be read. -/
structure ConfigError where
  setting : Setting
  /-- The value as it was given. -/
  value : String
  reason : Config.Reason
deriving DecidableEq, Repr

def ConfigError.message (e : ConfigError) : String :=
  "Invalid " ++ e.setting.variableName ++ "='" ++ e.value ++ "': " ++ e.reason.message

namespace Config

/-- The path in a value; an empty one counts as not set. -/
def readImage (value : String) : String := if value.isEmpty then ({} : Config).image else value

/-- The capacity in a value, where zero means no cache. -/
def readCapacity (value : String) : Except Reason (Option Nat) :=
  match Text.readUnsigned 10 (Text.trimChars value.toList) with
  | none => .error .notANumber
  | some 0 => .ok none
  | some n => if Cache.minCapacity ≤ n ∧ n ≤ Cache.maxCapacity then .ok (some n) else .error .capacity

/-- The policy in a value. -/
def readPolicy (value : String) : Except Reason EvictionPolicy :=
  (EvictionPolicy.ofName (Text.trim value)).mapError .policy

/-- The log's threshold in a value. -/
def readThreshold (value : String) : Except Reason Log.Threshold :=
  match Log.Threshold.ofName? (Text.trim value) with
  | some t => .ok t
  | none => .error .level

/-- Reads one setting, if it is set. -/
def readSetting {α : Type} (env : Environment) (setting : Setting) (default : α)
    (read : String → Except Reason α) : Except ConfigError α :=
  match env setting with
  | none => .ok default
  | some value => (read value).mapError fun reason => { setting, value, reason }

/-- The configuration that an environment asks for. -/
def ofEnvironment (env : Environment) : Except ConfigError Config := do
  let image ← readSetting env .disk ({} : Config).image (.ok ∘ readImage)
  let cacheEntries ← readSetting env .cache none readCapacity
  let policy ← readSetting env .eviction .mostRecent readPolicy
  let threshold ← readSetting env .log (.upTo .warn) readThreshold
  return { image, cacheEntries, policy, threshold }

end Config

end DiskArray
