/-!
# Device commands

The ten commands of the device, in the order of their codes.
-/

namespace DiskArray

/-- What the device can be told to do. -/
inductive Command where
  | mount | unmount | seekToDisk | seekToBlock | readBlock | writeBlock | signBlock | reserved
  | writePermission | revokeWritePermission
deriving DecidableEq, Repr

namespace Command

/-- Every command, in the order of the codes. -/
def all : List Command :=
  [.mount, .unmount, .seekToDisk, .seekToBlock, .readBlock, .writeBlock, .signBlock, .reserved,
    .writePermission, .revokeWritePermission]

/-- The code of a command; codes run from zero without gaps. -/
def code : Command → Fin 10
  | .mount => 0
  | .unmount => 1
  | .seekToDisk => 2
  | .seekToBlock => 3
  | .readBlock => 4
  | .writeBlock => 5
  | .signBlock => 6
  | .reserved => 7
  | .writePermission => 8
  | .revokeWritePermission => 9

/-- The command with a code. -/
def ofCode? (n : Nat) : Option Command := all[n]?

theorem ofCode?_code (c : Command) : ofCode? c.code = some c := by
  cases c <;> rfl

theorem code_inj {c d : Command} : c.code = d.code ↔ c = d := by
  cases c <;> cases d <;> decide

def name : Command → String
  | .mount => "MOUNT"
  | .unmount => "UNMOUNT"
  | .seekToDisk => "SEEK_TO_DISK"
  | .seekToBlock => "SEEK_TO_BLOCK"
  | .readBlock => "READ_BLOCK"
  | .writeBlock => "WRITE_BLOCK"
  | .signBlock => "SIGN_BLOCK"
  | .reserved => "RESERVED"
  | .writePermission => "WRITE_PERMISSION"
  | .revokeWritePermission => "REVOKE_WRITE_PERMISSION"

end Command

/-- How often each command was carried out, successfully or not. -/
structure Tally where
  counts : Vector Nat 10
deriving DecidableEq

namespace Tally

def zero : Tally := ⟨Vector.replicate 10 0⟩

instance : Inhabited Tally := ⟨zero⟩

/-- The count of one command. -/
def of (t : Tally) (c : Command) : Nat := t.counts[c.code]

/-- Counts one more of a command. -/
def bump (t : Tally) (c : Command) : Tally := ⟨t.counts.set c.code (t.counts[c.code] + 1)⟩

@[simp] theorem of_zero (c : Command) : zero.of c = 0 := by simp [of, zero]

theorem of_bump (t : Tally) (c d : Command) :
    (t.bump c).of d = if c = d then t.of d + 1 else t.of d := by
  simp only [of, bump, Fin.getElem_fin, Vector.getElem_set]
  by_cases h : c = d
  · subst h
    simp
  · have : c.code.val ≠ d.code.val := fun e => h (Command.code_inj.1 (Fin.ext e))
    simp [h, this]

end Tally

end DiskArray
