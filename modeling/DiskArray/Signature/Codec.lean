import DiskArray.Signature.Table

/-!
# Signature files

A file holds the number of entries as eight bytes, least significant first, and then for each entry
its disk, its block and its thirty-two digest bytes. Writing keeps the order of the table; reading
takes the entries in any order and pays no heed to what follows the last one.
-/

namespace DiskArray

namespace Signature

/-- A number as `width` bytes, least significant first. -/
def littleEndian : (width : Nat) → Nat → List UInt8
  | 0, _ => []
  | width + 1, n => UInt8.ofNat n :: littleEndian width (n / 256)

/-- The number that bytes, least significant first, stand for. -/
def ofLittleEndian : List UInt8 → Nat
  | [] => 0
  | b :: bs => b.toNat + 256 * ofLittleEndian bs

/-- The thirty-four bytes of an entry. -/
def Entry.toBytes (e : Entry) : List UInt8 := e.disk :: e.block :: e.digest.toList

/-- Bytes of one entry. -/
abbrev entrySize : Nat := 34

/-- The entry that bytes start with, if there are enough of them. -/
def Entry.ofBytes? (bytes : List UInt8) : Option Entry :=
  match bytes with
  | disk :: block :: rest =>
    if h : (rest.take 32).length = 32 then some ⟨disk, block, ⟨⟨rest.take 32⟩, h⟩⟩ else none
  | _ => none

/-- The first `count` entries of a row of bytes. -/
def readEntries : (count : Nat) → List UInt8 → Option (List Entry)
  | 0, _ => some []
  | count + 1, bytes =>
    match Entry.ofBytes? bytes with
    | some e => (readEntries count (bytes.drop entrySize)).map (e :: ·)
    | none => none

end Signature

namespace SignatureTable

/-- The bytes of a signature file. -/
def encode (t : SignatureTable) : List UInt8 :=
  Signature.littleEndian 8 t.size ++ t.entries.flatMap Signature.Entry.toBytes

/-- The table in a signature file; there is none if the file ends too early. -/
def decode (bytes : List UInt8) : Option SignatureTable :=
  if bytes.length < 8 then none
  else
    let count := Signature.ofLittleEndian (bytes.take 8)
    (Signature.readEntries count (bytes.drop 8)).map ofEntries

end SignatureTable

end DiskArray
