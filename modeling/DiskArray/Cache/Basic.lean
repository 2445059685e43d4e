import DiskArray.Block
import DiskArray.Cache.Error
import DiskArray.Cache.Policy
import DiskArray.Outcome

/-!
# The block cache

A row of slots, each empty or holding one block under its name. A clock counts the uses: whoever finds,
overwrites or puts in a block gives its slot the next stamp. A full cache makes room by its policy, which
compares stamps; of equal stamps the first slot counts. A cache without slots is not in use.
-/

namespace DiskArray

namespace Cache

/-- A block in the cache. -/
structure Entry where
  id : BlockId
  block : Block
  /-- The clock at its last use. -/
  stamp : Nat
deriving DecidableEq

/-- A place for one block. -/
abbrev Slot := Option Entry

/-- The first slot that holds a block, and what it holds. -/
def findIn (id : BlockId) : List Slot → Option (Nat × Entry)
  | [] => none
  | some e :: rest =>
    if e.id = id then some (0, e) else (findIn id rest).map fun (i, e) => (i + 1, e)
  | none :: rest => (findIn id rest).map fun (i, e) => (i + 1, e)

/-- The first of the filled slots that the policy prefers to all others, and what it holds. -/
def victimIn (policy : EvictionPolicy) : List Slot → Option (Nat × Entry)
  | [] => none
  | none :: rest => (victimIn policy rest).map fun (i, e) => (i + 1, e)
  | some e :: rest =>
    match victimIn policy rest with
    | some (i, later) => if policy.prefers later.stamp e.stamp then some (i + 1, later) else some (0, e)
    | none => some (0, e)

end Cache

/-- The cache. -/
structure Cache where
  policy : EvictionPolicy
  slots : List Cache.Slot := []
  clock : Nat := 0
  queries : Nat := 0
  hits : Nat := 0

namespace Cache

/-- A cache that is not in use. -/
def unused (policy : EvictionPolicy) : Cache := { policy }

instance : Inhabited Cache := ⟨unused .mostRecent⟩

def capacity (c : Cache) : Nat := c.slots.length

/-- Number of blocks held. -/
def size (c : Cache) : Nat := c.slots.countP Option.isSome

def isEmpty (c : Cache) : Bool := c.size == 0

/-- Whether the cache is in use. -/
def isEnabled (c : Cache) : Bool := !c.slots.isEmpty

/-- The slot that holds a block, and what it holds. -/
def find? (c : Cache) (id : BlockId) : Option (Nat × Entry) := findIn id c.slots

/-- The first empty slot. -/
def vacancy? (c : Cache) : Option Nat := c.slots.findIdx? Option.isNone

/-- The slot to be emptied, and what it holds. -/
def victim? (c : Cache) : Option (Nat × Entry) := victimIn c.policy c.slots

/-- Fills a slot; its stamp is the next tick of the clock. -/
def fill (c : Cache) (slot : Nat) (id : BlockId) (block : Block) : Cache :=
  { c with
    clock := c.clock + 1
    slots := c.slots.set slot (some { id, block, stamp := c.clock + 1 }) }

/-! ### Capacity -/

/-- Whether a cache may have this capacity. -/
def CapacityOk (n : Nat) : Prop := minCapacity ≤ n ∧ n ≤ maxCapacity

instance (n : Nat) : Decidable (CapacityOk n) := inferInstanceAs (Decidable (_ ∧ _))

/-- Takes the cache into use. -/
def create (c : Cache) (n : Nat) : Except CacheError Cache :=
  if c.isEnabled then .error .alreadyCreated
  else if CapacityOk n then .ok { c with slots := List.replicate n none, clock := 0 }
  else .error (.capacityOutOfBounds n)

/-- Takes the cache out of use and forgets all counts. -/
def destroy (c : Cache) : Except CacheError Cache :=
  if c.isEnabled then .ok (unused c.policy) else .error .uninitialized

/-- Gives the cache another capacity: the first slots stay as they are, new ones are empty. A cache not in
use is taken into use. -/
def resize (c : Cache) (n : Nat) : Except CacheError Cache :=
  if CapacityOk n then
    if c.isEnabled then
      .ok { c with slots := c.slots.take n ++ List.replicate (n - c.slots.length) none }
    else c.create n
  else .error (.capacityOutOfBounds n)

/-! ### Blocks -/

/-- Looks a block up. Every look-up of a cache in use is counted; a hit is a use of the block. -/
def lookup (c : Cache) (id : BlockId) : Except CacheError (Option Block × Cache) :=
  if c.isEnabled then
    let c := { c with queries := c.queries + 1 }
    match c.find? id with
    | some (i, e) => .ok (some e.block, { c.fill i id e.block with hits := c.hits + 1 })
    | none => .ok (none, c)
  else .error .disabled

/-- Looks a block up for a caller who hands in a buffer, which a hit fills: whether it was one, and the buffer. -/
def lookupInto (c : Cache) (id : BlockId) (buffer : Block) : Except CacheError Bool × Block :=
  match c.lookup id with
  | .ok (some block, _) => (.ok true, block)
  | .ok (none, _) => (.ok false, buffer)
  | .error e => (.error e, buffer)

/-- Overwrites a block that is held; there is no answer if it is not. -/
def update? (c : Cache) (id : BlockId) (block : Block) : Option Cache :=
  (c.find? id).map fun (i, _) => c.fill i id block

/-- The slot that takes the next block: an empty one, or else the victim's. -/
def nextSlot? (c : Cache) : Option Nat :=
  match c.vacancy? with
  | some i => some i
  | none => c.victim?.map (·.1)

/-- Puts in a block that is not held. -/
def insert (c : Cache) (id : BlockId) (block : Block) : Except CacheError Cache :=
  if c.isEnabled then
    match c.find? id, c.nextSlot? with
    | some _, _ => .error (.duplicateKey id)
    | none, some i => .ok (c.fill i id block)
    | none, none => .error .disabled
  else .error .disabled

/-! ### Records -/

/-- A record of the cache. -/
def record (level : Log.Level) (message : String) : Log.Record := ⟨level, "jbod_mdadm::cache", message⟩

/-- The record of a block that makes room, if putting in a block takes one. -/
def evictionLog (c : Cache) (id : BlockId) : List Log.Record :=
  match c.find? id, c.vacancy?, c.victim? with
  | none, none, some (i, e) =>
    [record .trace
      ("evicting (disk " ++ toString e.id.disk ++ ", block " ++ toString e.id.block ++ ") from slot " ++
        toString i)]
  | _, _, _ => []

/-- A change of the capacity. -/
inductive Request where
  | create (capacity : Nat)
  | resize (capacity : Nat)
  | destroy
deriving DecidableEq, Repr

/-- The cache after a change of its capacity. -/
def apply (c : Cache) : Request → Except CacheError Cache
  | .create n => c.create n
  | .resize n => c.resize n
  | .destroy => c.destroy

/-- The record of a cache taken into use. -/
def creationRecord (c : Cache) (n : Nat) : Log.Record :=
  record .debug ("block cache created with " ++ toString n ++ " entries (" ++ c.policy.name ++ ")")

/-- The record of a change that succeeds. -/
def changeRecord (c : Cache) : Request → Log.Record
  | .create n => c.creationRecord n
  | .resize n =>
    if c.isEnabled then
      record .debug
        ("block cache resized from " ++ toString c.capacity ++ " to " ++ toString n ++ " entries")
    else c.creationRecord n
  | .destroy => record .debug "block cache destroyed"

/-- Carries out a change of the capacity. -/
def serve (c : Cache) (r : Request) : Outcome Cache CacheError Unit :=
  .ofExcept c (c.apply r) [c.changeRecord r]

end Cache

end DiskArray
