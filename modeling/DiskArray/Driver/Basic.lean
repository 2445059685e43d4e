import DiskArray.Cache.Basic
import DiskArray.Device.Basic
import DiskArray.Driver.Chunk
import DiskArray.Driver.Error

/-!
# The driver

The driver shows the device as one linear address space. It keeps a mounted flag and a write permission
of its own, cuts transfers into chunks, seeks before every access to a block, and looks blocks up in
the cache before it reads them. Writes go through to the device; afterwards the cache holds what was
written.

A request is first checked as a whole, and refused without any effect. A transfer that fails halfway
keeps the chunks that are done.
-/

namespace DiskArray

/-- The driver of a device. -/
structure Driver (δ : Type) where
  device : δ
  cache : Cache
  mounted : Bool := false
  writable : Bool := false

namespace Driver

variable {δ : Type}

/-- A record of the driver. -/
def record (level : Log.Level) (message : String) : Log.Record :=
  ⟨level, "jbod_mdadm::storage::driver", message⟩

/-- The record that a chunk is being transferred. -/
def chunkRecord (verb : String) (c : Chunk) : Log.Record :=
  let loc := c.location
  record .trace
    (verb ++ " chunk BlockAddr \x7b disk: " ++ toString loc.disk ++ ", block: " ++ toString loc.block ++
      ", offset: " ++ toString loc.offset ++ " \x7d len " ++ toString c.size)

/-! ### Steps -/

/-- Keeps in the cache what a block holds now. -/
def remember (d : Driver δ) (id : BlockId) (block : Block) : Outcome (Driver δ) DriverError Unit :=
  match d.cache.update? id block with
  | some cache => .done { d with cache } ()
  | none =>
    match d.cache.insert id block with
    | .ok cache => (Outcome.done { d with cache } ()).logged (d.cache.evictionLog id)
    | .error _ => .done d ()

variable [Controller δ]

/-- Has the device carry out an operation; gives back the buffer. Where it fails, `done` bytes of the
transfer were finished before. -/
def issue (d : Driver δ) (op : Operation) (buffer : Option Block) (done : Nat) :
    Outcome (Driver δ) DriverError (Option Block) :=
  let reply := Controller.operate d.device op.encode buffer
  let d := { d with device := reply.device }
  match reply.result with
  | .ok _ => { result := .ok reply.buffer, state := d, log := reply.log }
  | .error e =>
    { result := .error (.device op.command e done)
      state := d
      log := reply.log ++
        [record .warn
          (op.command.name ++ " failed after " ++ toString done ++ " bytes: " ++ e.message)] }

/-- Puts the cursor of the device on a block. -/
def seek (d : Driver δ) (id : BlockId) (done : Nat) : Outcome (Driver δ) DriverError Unit :=
  (d.issue (.of .seekToDisk id.disk 0) none done).andThen fun d _ =>
    (d.issue (.of .seekToBlock 0 id.block) none done).andThen fun d _ => .done d ()

/-- Reads a block from the device and keeps it in the cache. -/
def fetch (d : Driver δ) (id : BlockId) (done : Nat) : Outcome (Driver δ) DriverError Block :=
  (d.seek id done).andThen fun d _ =>
    (d.issue (.bare .readBlock) (some Block.zero) done).andThen fun d buffer =>
      let block := buffer.getD Block.zero
      (d.remember id block).andThen fun d _ => .done d block

/-- What a block holds: as the cache has it, or else as the device reads it. -/
def load (d : Driver δ) (id : BlockId) (done : Nat) : Outcome (Driver δ) DriverError Block :=
  match d.cache.lookup id with
  | .ok (some block, cache) => .done { d with cache } block
  | .ok (none, cache) => fetch { d with cache } id done
  | .error _ => d.fetch id done

/-- Writes a block to the device and keeps it in the cache. -/
def store (d : Driver δ) (id : BlockId) (block : Block) (done : Nat) :
    Outcome (Driver δ) DriverError Unit :=
  (d.seek id done).andThen fun d _ =>
    (d.issue (.bare .writeBlock) (some block) done).andThen fun d buffer =>
      d.remember id (buffer.getD block)

/-! ### State -/

/-- Mounts the array. -/
def mount (d : Driver δ) : Outcome (Driver δ) DriverError Unit :=
  if d.mounted then .fail d .alreadyMounted
  else
    (d.issue (.bare .mount) none 0).andThen fun d _ =>
      { result := .ok (), state := { d with mounted := true }, log := [record .info "array mounted"] }

/-- Unmounts the array. -/
def unmount (d : Driver δ) : Outcome (Driver δ) DriverError Unit :=
  if d.mounted then
    (d.issue (.bare .unmount) none 0).andThen fun d _ =>
      { result := .ok (), state := { d with mounted := false }, log := [record .info "array unmounted"] }
  else .fail d .alreadyUnmounted

/-- Permits writing; a permission already there stays. -/
def grant (d : Driver δ) : Driver δ := { d with writable := true }

/-- Takes the permission to write back. -/
def revoke (d : Driver δ) : Driver δ := { d with writable := false }

/-- Changes the capacity of the cache. -/
def serveCache (d : Driver δ) (r : Cache.Request) : Outcome (Driver δ) CacheError Unit :=
  let o := d.cache.serve r
  { result := o.result, state := { d with cache := o.state }, log := o.log }

/-- Has the device sign a block. -/
def sign (d : Driver δ) (disk block : UInt8) : Outcome (Driver δ) DriverError Unit :=
  if !d.mounted then .fail d .notMounted
  else if diskCount ≤ disk.toNat then
    .fail d (.outOfRange (disk.toNat * diskSize + block.toNat * blockSize) blockSize)
  else
    (d.seek ⟨disk.toNat, block.toNat⟩ 0).andThen fun d _ =>
      (d.issue (.bare .signBlock) none 0).andThen fun d _ => .done d ()

/-! ### Transfers -/

/-- A buffer that is missing or too small for a transfer; none is needed for no bytes. -/
def bufferTooSmall (buffer : Option (List UInt8)) (length : Nat) : Bool :=
  match buffer with
  | some bytes => bytes.length < length
  | none => 0 < length

/-- Why a read is refused. -/
def refuseRead? (d : Driver δ) (start length : Nat) (buffer : Option (List UInt8)) :
    Option DriverError :=
  if !d.mounted then some .notMounted
  else if maxTransfer < length then some (.lengthTooLarge length)
  else if bufferTooSmall buffer length then some .badBuffer
  else if totalSize < start + length then some (.outOfRange start length)
  else none

/-- Why a write is refused. Writing no bytes is allowed anywhere. -/
def refuseWrite? (d : Driver δ) (start length : Nat) (data : Option (List UInt8)) :
    Option DriverError :=
  if !d.mounted then some .notMounted
  else if !d.writable then some .permissionDenied
  else if maxTransfer < length then some (.lengthTooLarge length)
  else if bufferTooSmall data length then some .badBuffer
  else if 0 < length && decide (totalSize < start + length) then some (.outOfRange start length)
  else none

/-- Reads chunk after chunk; `done` bytes were read before. Gives the bytes of the chunks that could be
read, also if a later one fails. -/
def readChunks (d : Driver δ) (done : Nat) :
    List Chunk → List UInt8 × Outcome (Driver δ) DriverError Unit
  | [] => ([], .done d ())
  | c :: rest =>
    let loaded := (d.load c.location.blockId done).logged [chunkRecord "read" c]
    match loaded.result with
    | .error e => ([], { result := .error e, state := loaded.state, log := loaded.log })
    | .ok block =>
      let next := loaded.state.readChunks (done + c.size) rest
      (block.slice c.location.offset c.size ++ next.1, next.2.logged loaded.log)

/-- What a read leaves behind: besides the outcome, the caller's buffer. -/
structure ReadOutcome (δ : Type) extends Outcome (Driver δ) DriverError Nat where
  buffer : Option (List UInt8)

/-- Reads `length` bytes from an address on into a buffer. Gives the number of bytes; what was read before
a failure stays in the buffer. -/
def read (d : Driver δ) (start length : Nat) (buffer : Option (List UInt8)) : ReadOutcome δ :=
  match d.refuseRead? start length buffer with
  | some e => { Outcome.fail d e with buffer }
  | none =>
    let done := d.readChunks 0 (chunks start length)
    { done.2.andThen fun d _ => .done d length with
      buffer := buffer.map fun old => done.1 ++ old.drop done.1.length }

/-- What a block holds after a chunk of it was written: a chunk that is not the whole block needs what the
block holds now. -/
def prepare (d : Driver δ) (c : Chunk) (data : List UInt8) (done : Nat) :
    Outcome (Driver δ) DriverError Block :=
  let offset := c.location.offset
  if c.isWhole then .done d (Block.zero.overlay offset data)
  else (d.load c.location.blockId done).andThen fun d block => .done d (block.overlay offset data)

/-- Writes chunk after chunk, taking their bytes from the front of `data`; `done` bytes were written
before. -/
def writeChunks (d : Driver δ) (done : Nat) (data : List UInt8) :
    List Chunk → Outcome (Driver δ) DriverError Unit
  | [] => .done d ()
  | c :: rest =>
    ((d.prepare c (data.take c.size) done).andThen fun d block =>
      (d.store c.location.blockId block done).andThen fun d _ =>
        d.writeChunks (done + c.size) (data.drop c.size) rest).logged [chunkRecord "write" c]

/-- Writes the first `length` bytes of `data` to an address. Gives the number of bytes. -/
def write (d : Driver δ) (start length : Nat) (data : Option (List UInt8)) :
    Outcome (Driver δ) DriverError Nat :=
  match d.refuseWrite? start length data with
  | some e => .fail d e
  | none =>
    (d.writeChunks 0 (data.getD []) (chunks start length)).andThen fun d _ => .done d length

end Driver

end DiskArray
