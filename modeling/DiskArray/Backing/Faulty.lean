import DiskArray.Backing.Basic
import DiskArray.Fault

/-!
# A backing disk that fails as planned

The plan watches the reads and the writes. A call that the plan makes fail does not reach the disk.
-/

namespace DiskArray

/-- The two kinds of call that a backing disk answers. -/
inductive Access where
  | read | write
deriving DecidableEq, Repr

/-- A backing disk that fails as planned. -/
structure FaultyDisk (β : Type) where
  disk : β
  plan : Fault.Plan Access DiskError

instance {β : Type} [Backing β] : Backing (FaultyDisk β) where
  readBlock f i :=
    match Fault.Plan.call .read f.plan with
    | (some e, plan) => (.error e, { f with plan })
    | (none, plan) =>
      let (answer, disk) := Backing.readBlock f.disk i
      (answer, { disk, plan })
  writeBlock f i b :=
    match Fault.Plan.call .write f.plan with
    | (some e, plan) => (.error e, { f with plan })
    | (none, plan) =>
      let (answer, disk) := Backing.writeBlock f.disk i b
      (answer, { disk, plan })

end DiskArray
