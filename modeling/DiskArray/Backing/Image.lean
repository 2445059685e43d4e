import DiskArray.Backing.Basic
import DiskArray.Files.Store

/-!
# Disk images

The array on one open file. A block that does not lie wholly inside the file cannot be read; a write
behind the end makes the file grow. The store is part of the image, for the file can change under it.
-/

namespace DiskArray

/-- An open image: the files, and the place of the one that holds the blocks. -/
structure Image where
  store : Store
  place : Files.Place

namespace Image

/-- The image's content. -/
def file (m : Image) : File := m.store.content m.place

instance : Backing Image where
  readBlock m i :=
    match m.file.readBlock? i with
    | some b => (.ok b, m)
    | none => (.error .unexpectedEnd, m)
  writeBlock m i b := (.ok (), { m with store := m.store.modify m.place (·.writeBlock i b) })

end Image

end DiskArray
