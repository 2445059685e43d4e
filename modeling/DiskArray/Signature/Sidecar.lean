import DiskArray.Files.Store
import DiskArray.Signature.Codec

/-!
# The sidecar

The signatures of an image are kept in a file beside it. A sidecar that is missing stands for an empty
table; one that is there has to be whole.
-/

namespace DiskArray

namespace Signature

/-- Why a sidecar cannot be read. -/
inductive LoadError where
  /-- It cannot be opened. -/
  | opening (e : FileError)
  /-- It can be opened but not read. -/
  | reading (e : FileError)
  /-- It ends too early. -/
  | truncated
deriving DecidableEq, Repr

def LoadError.message : LoadError → String
  | .opening e => e.message
  | .reading e => "io error: " ++ e.message
  | .truncated => "io error: failed to fill whole buffer"

/-- The sidecar's path. -/
def sidecarPath (image : String) : String := image ++ ".sig"

end Signature

namespace SignatureTable

/-- The table in the bytes of a sidecar. -/
def ofSidecar (bytes : List UInt8) : Except Signature.LoadError SignatureTable :=
  match decode bytes with
  | some t => .ok t
  | none => .error .truncated

/-- Reads the table at a path. -/
def load (s : Store) (path : String) : Except Signature.LoadError SignatureTable :=
  match s.lookup path with
  | .error .notFound => .ok empty
  | .error e => .error (.opening e)
  | .ok (_, .file f) => ofSidecar f.bytes
  | .ok _ => .error (.reading .isDirectory)

/-- Writes the table to a path. -/
def save (t : SignatureTable) (s : Store) (path : String) : Except FileError Store :=
  s.save path t.encode

end SignatureTable

end DiskArray
