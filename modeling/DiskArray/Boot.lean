import DiskArray.Backing.Image
import DiskArray.Config
import DiskArray.Driver.Basic
import DiskArray.Signature.Sidecar

/-!
# Booting

The image is opened, and grown to the size of the array if it is shorter, which the system may refuse; the
signatures are read; the cache is taken into use if one is configured. Progress is told on the way. The first
stage that fails ends the boot, and what was done to the image stays.
-/

namespace DiskArray

/-- The driver of the array on a disk image. -/
abbrev ImageDriver := Driver (Device Image)

namespace Boot

/-- What the boot is busy with. -/
inductive Stage where
  | openImage | allocate | loadSignatures | buildCache
deriving DecidableEq, Repr

def Stage.text : Stage → String
  | .openImage => "🧠 Opening disk image..."
  | .allocate => "🪶 Allocating disk image..."
  | .loadSignatures => "🔏 Loading block signatures..."
  | .buildCache => "⚙️  Building block cache..."

/-- What is told while the boot goes on: a stage begins, or so many per cent are done. -/
inductive Message where
  | step (stage : Stage)
  | progress (percent : Nat)
deriving DecidableEq, Repr

/-- Why a boot fails. -/
inductive Error where
  | image (e : FileError)
  | signatures (e : Signature.LoadError)
  | cache (e : CacheError)
deriving DecidableEq, Repr

def Error.message : Error → String
  | .image e => e.message
  | .signatures e => e.message
  | .cache e => e.message

/-- What a boot leaves behind. The driver is the result; the state is the files. -/
structure Report extends Outcome Store Error ImageDriver where
  messages : List Message

namespace Report

/-- A boot that fails. -/
def failed (store : Store) (e : Error) (messages : List Message) : Report :=
  { Outcome.fail store e with messages }

/-- The report with messages that were told before. -/
def told (messages : List Message) (r : Report) : Report := { r with messages := messages ++ r.messages }

end Report

/-- The cache that is configured. -/
def buildCache (config : Config) : Outcome Cache CacheError Unit :=
  let cache := Cache.unused config.policy
  match config.cacheEntries with
  | some n => cache.serve (.create n)
  | none => .done cache ()

/-- What is told before the cache is there. -/
def cacheMessages (config : Config) : List Message :=
  if config.cacheEntries.isSome then [.step .buildCache] else []

/-- The stage after the signatures are read. -/
def finish (config : Config) (image : Image) (signatures : SignatureTable) : Report :=
  let cache := buildCache config
  match cache.result with
  | .error e => Report.failed image.store (.cache e) (cacheMessages config)
  | .ok _ =>
    { result := .ok { device := { backing := image, signatures }, cache := cache.state }
      state := image.store
      log := cache.log
      messages := cacheMessages config ++ [.progress 100] }

/-- The stages after the image is long enough. -/
def loadSignatures (config : Config) (image : Image) : Report :=
  Report.told [.step .loadSignatures] <|
    match SignatureTable.load image.store (Signature.sidecarPath config.image) with
    | .error e => Report.failed image.store (.signatures e) []
    | .ok signatures => Report.told [.progress 70] (finish config image signatures)

/-- Makes an image as long as the array. -/
def grow (image : Image) : Except FileError Image :=
  match image.store.resizeAt image.place totalSize with
  | .error e => .error e
  | .ok store => .ok { image with store }

/-- Grows an image that is short. -/
def allocate (image : Image) : Except FileError Image :=
  match image.store.sizeAt image.place with
  | .error e => .error e
  | .ok size => if size < totalSize then grow image else .ok image

/-- What is told before an image is long enough: that it is short, once its length is known. -/
def allocateMessages (image : Image) : List Message :=
  match image.store.sizeAt image.place with
  | .error _ => []
  | .ok size => if size < totalSize then [.step .allocate] else []

/-- Boots the array that a configuration asks for. -/
def run (config : Config) (store : Store) : Report :=
  Report.told [.step .openImage] <|
    match store.openFile config.image with
    | .error e => Report.failed store (.image e) []
    | .ok (place, store) =>
      Report.told (allocateMessages { store, place }) <|
        match allocate { store, place } with
        | .error e => Report.failed store (.image e) []
        | .ok image => Report.told [.progress 40] (loadSignatures config image)

end Boot

end DiskArray
