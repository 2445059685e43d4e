import DiskArray.Driver.Basic

/-!
# Runs of the driver

What the users of a driver may ask for, one thing after the other: requests for the array, changes of the cache's
capacity and look-ups in the cache. A run gives the requests with their answers and the driver afterwards.
-/

namespace DiskArray.Driver

/-- A request for the array. -/
inductive Request where
  | mount
  | unmount
  | grant
  | revoke
  | read (start length : Nat) (buffer : Option (List UInt8))
  | write (start length : Nat) (data : Option (List UInt8))
  | sign (disk block : UInt8)
deriving DecidableEq, Repr

/-- What comes back: the result, and for a transfer the caller's buffer too. -/
inductive Answer where
  | state (result : Except DriverError Unit)
  | transfer (result : Except DriverError Nat) (buffer : Option (List UInt8))

/-- A step of a run. -/
inductive Step where
  | request (r : Request)
  | cache (r : Cache.Request)
  | lookup (id : BlockId)
deriving DecidableEq, Repr

variable {δ : Type}

/-- Looks a block up in the driver's cache. -/
def lookup (d : Driver δ) (id : BlockId) : Driver δ :=
  match d.cache.lookup id with
  | .ok (_, cache) => { d with cache }
  | .error _ => d

variable [Controller δ]

/-- Carries out a request. -/
def serve (d : Driver δ) : Request → Answer × Driver δ
  | .mount => (.state d.mount.result, d.mount.state)
  | .unmount => (.state d.unmount.result, d.unmount.state)
  | .grant => (.state (.ok ()), d.grant)
  | .revoke => (.state (.ok ()), d.revoke)
  | .read start length buffer =>
    let o := d.read start length buffer
    (.transfer o.result o.buffer, o.state)
  | .write start length data =>
    let o := d.write start length data
    (.transfer o.result data, o.state)
  | .sign disk block => (.state (d.sign disk block).result, (d.sign disk block).state)

/-- Takes steps one after the other; gives the requests with their answers, and the driver afterwards. -/
def run (d : Driver δ) : List Step → List (Request × Answer) × Driver δ
  | [] => ([], d)
  | .request r :: steps =>
    let served := d.serve r
    let later := served.2.run steps
    ((r, served.1) :: later.1, later.2)
  | .cache r :: steps => (d.serveCache r).state.run steps
  | .lookup id :: steps => (d.lookup id).run steps

end DiskArray.Driver
