import DiskArray.Cache.Statistics
import DiskArray.Driver.Basic
import DiskArray.Shell.Command
import DiskArray.Shell.Help
import DiskArray.Shell.Output
import DiskArray.Text.HexDump

/-!
# Carrying out commands

A command acts on the driver and shows the user what came of it. Formatting asks first; the answers the
user gives are taken one by one. A command that fails has shown what it had to show before it failed.
-/

namespace DiskArray.Shell

open Text

/-- Why a command fails. -/
inductive CommandError where
  | driver (e : DriverError)
  | cache (e : CacheError)
  /-- The question could not be asked. -/
  | noAnswer
deriving DecidableEq, Repr

def CommandError.message : CommandError → String
  | .driver e => e.message
  | .cache e => e.message
  | .noAnswer => "IO error: not a terminal"

/-- Whether the user agrees; there is no answer where the user cannot be asked. -/
abbrev Answer := Option Bool

/-- A yes-or-no question. -/
structure Question where
  text : String
  /-- The answer of a user who only presses enter. -/
  default : Bool
deriving DecidableEq, Repr

/-- The question before formatting. -/
def formatQuestion : Question := ⟨"Zero every block of the array?", false⟩

/-- What a command leaves behind. -/
structure Effect (β : Type) where
  driver : Driver (Device β)
  /-- Answers not yet used up. -/
  answers : List Answer
  output : Output := {}
  asked : Option Question := none
  failure : Option CommandError := none

namespace Effect

variable {β : Type}

/-- A command that only shows something. -/
def shows (driver : Driver (Device β)) (answers : List Answer) (lines : List Styled) : Effect β :=
  { driver, answers, output := .lines lines }

/-- A command done by one request to the driver; what is shown may depend on the value it gives. -/
def ofOutcome {ε α : Type} (answers : List Answer) (wrap : ε → CommandError)
    (o : Outcome (Driver (Device β)) ε α) (lines : Driver (Device β) → α → List Styled) : Effect β :=
  match o.result with
  | .ok a =>
    { driver := o.state, answers, output := .logged o.log ++ .lines (lines o.state a) }
  | .error e =>
    { driver := o.state, answers, output := .logged o.log, failure := some (wrap e) }

end Effect

variable {β : Type}

/-! ### What is shown -/

/-- The line of a name and its value. -/
def labelled (name : String) (value : Styled) : Styled := colored .blue name :: plain ": " :: value

/-- Yes in green or no in red. -/
def yesNo (b : Bool) : Span := if b then colored .green "yes" else colored .red "no"

/-- How full the cache is. -/
def occupancy (c : Cache) : String := toString c.size ++ "/" ++ toString c.capacity

/-- The state of the array. -/
def statusLines (d : Driver (Device β)) : List Styled :=
  let count (c : DiskArray.Command) := toString (d.device.tally.of c)
  [[bold .brightYellow "📊 Array Status"],
    labelled "Mounted" [yesNo d.mounted],
    labelled "Writable" [yesNo d.writable],
    labelled "Cache"
      (if d.cache.isEnabled then
        [plain (occupancy d.cache ++ " entries (" ++ d.cache.policy.name ++ ")")]
      else [colored .brightBlack "disabled"]),
    labelled "Signed blocks" [plain (toString d.device.signatures.size)],
    labelled "Device ops"
      [plain ("seek " ++ count .seekToDisk ++ "/" ++ count .seekToBlock ++ ", read " ++ count .readBlock ++
        ", write " ++ count .writeBlock)]]

/-- The state of the cache. -/
def cacheLines (c : Cache) : List Styled :=
  [[bold .brightYellow "📊 Cache"],
    labelled "Entries" [plain (occupancy c ++ " (" ++ c.policy.name ++ ")")],
    labelled "Clock" [plain (toString c.clock)],
    labelled "Hits" [plain c.statistics]] ++
  if c.isEmpty then [[colored .brightBlack "No blocks cached yet"]] else []

/-- An address as it is shown. -/
def shownAddress (address : UInt32) : Span := colored .cyan (hexNumber 1 address.toNat)

/-- The commands, as the user is told. -/
def helpLines : List Styled :=
  [[bold .brightCyan "📘 mdadm Commands"], [colored .brightBlack helpText]]

/-- What was read. -/
def readLines (address : UInt32) (count : Nat) (bytes : List UInt8) : List Styled :=
  [plain "📖 Read ", colored .cyan (toString count), plain " bytes at ", shownAddress address] ::
    (hexDump address.toNat bytes).map fun row => [colored .brightBlack row]

/-- That something was written. -/
def writtenLine (verb : String) (count : Nat) (address : UInt32) : Styled :=
  [plain ("✏️  " ++ verb ++ " "), colored .green (toString count), plain " bytes at ", shownAddress address]

/-- That a block was signed. -/
def signedLine (d : Driver (Device β)) (disk block : UInt8) : Styled :=
  let digest := match d.device.signatures.get? disk block with
    | some digest => hexBytes digest.toList
    | none => ""
  [plain ("🔏 Signed disk " ++ toString disk.toNat ++ " block " ++ toString block.toNat ++ ": "),
    colored .brightMagenta digest]

/-- That the cache has a new capacity. -/
def capacityLine (verb : String) (capacity : UInt64) : Styled :=
  [plain ("🗃️  Cache " ++ verb ++ " "), colored .green (toString capacity.toNat), plain " entries"]

/-! ### Formatting -/

/-- The zeros of one write while formatting. -/
def zeros : List UInt8 := List.replicate maxTransfer 0

/-- Where the writes of a format start. -/
def formatAddresses : List Nat := (List.range (totalSize / maxTransfer)).map (· * maxTransfer)

/-- Writes zeros to each address, until one write fails. -/
def zeroAll {δ : Type} [Controller δ] (d : Driver δ) : List Nat → Outcome (Driver δ) DriverError Unit
  | [] => .done d ()
  | address :: rest =>
    (d.write address maxTransfer (some zeros)).andThen fun d _ => zeroAll d rest

variable [Backing β]

/-- Asks, and zeros the whole array if the user agrees. -/
def format (d : Driver (Device β)) (answers : List Answer) : Effect β :=
  match answers.head?.join with
  | none =>
    { driver := d, answers := answers.tail, asked := some formatQuestion, failure := some .noAnswer }
  | some false =>
    { Effect.shows d answers.tail [[colored .brightBlack "Format cancelled"]] with
      asked := some formatQuestion }
  | some true =>
    let effect := Effect.ofOutcome answers.tail .driver (zeroAll d formatAddresses) fun _ _ => []
    { effect with
      asked := some formatQuestion
      output := .line [plain "💾 Formatting array..."] ++ effect.output }

/-! ### Commands -/

/-- Reads bytes and shows them. A request that is too long is left to the driver to refuse, so the buffer is
never longer than one transfer. -/
def executeRead (d : Driver (Device β)) (answers : List Answer) (address length : UInt32) : Effect β :=
  let buffer := List.replicate (min length.toNat maxTransfer) 0
  let o := d.read address.toNat length.toNat (some buffer)
  Effect.ofOutcome answers .driver o.toOutcome fun _ n => readLines address n (o.buffer.getD [])

/-- Writes bytes. A length has 32 bits; for more bytes than that the largest one is asked for, which the driver
refuses. -/
def executeWrite (d : Driver (Device β)) (answers : List Answer) (address : UInt32) (data : List UInt8) :
    Effect β :=
  let length := min data.length (UInt32.size - 1)
  Effect.ofOutcome answers .driver (d.write address.toNat length (some data)) fun _ n =>
    [writtenLine "Wrote" n address]

/-- Writes one byte again and again. -/
def executeFill (d : Driver (Device β)) (answers : List Answer) (address length : UInt32) (byte : UInt8) :
    Effect β :=
  let data := List.replicate (min length.toNat maxTransfer) byte
  Effect.ofOutcome answers .driver (d.write address.toNat length.toNat (some data)) fun _ n =>
    [writtenLine "Filled" n address ++ [plain " with ", colored .cyan (hexNumber 2 byte.toNat)]]

/-- Carries out a cache command. -/
def executeCache (d : Driver (Device β)) (answers : List Answer) : CacheCommand → Effect β
  | .create n =>
    .ofOutcome answers .cache (d.serveCache (.create n.toNat)) fun _ _ =>
      [capacityLine "created with" n]
  | .resize n =>
    .ofOutcome answers .cache (d.serveCache (.resize n.toNat)) fun _ _ =>
      [capacityLine "resized to" n]
  | .destroy =>
    .ofOutcome answers .cache (d.serveCache .destroy) fun _ _ => [[colored .red "🗑️ Cache destroyed"]]
  | .stats => .shows d answers (cacheLines d.cache)

/-- Carries out a command. -/
def execute (d : Driver (Device β)) (answers : List Answer) : Command → Effect β
  | .help => .shows d answers helpLines
  | .mount =>
    .ofOutcome answers .driver d.mount fun _ _ => [[colored .green "✅ Array mounted"]]
  | .unmount =>
    .ofOutcome answers .driver d.unmount fun _ _ => [[colored .yellow "📤 Array unmounted"]]
  | .grant => .shows d.grant answers [[colored .green "🔓 Write permission granted"]]
  | .revoke => .shows d.revoke answers [[colored .yellow "🔒 Write permission revoked"]]
  | .status => .shows d answers (statusLines d)
  | .read address length => executeRead d answers address length
  | .write address data => executeWrite d answers address data
  | .fill address length byte => executeFill d answers address length byte
  | .sign disk block =>
    .ofOutcome answers .driver (d.sign disk block) fun d _ => [signedLine d disk block]
  | .cache command => executeCache d answers command
  | .format => format d answers
  | .exit => .shows d answers [[bold .yellow "👋 Exiting mdadm shell..."]]

end DiskArray.Shell
