import DiskArray.Text.Numeral

/-!
# Hex dumps

Rows of sixteen bytes: the address of the first one, the bytes in hexadecimal in a column of fixed
width, and the same bytes as text with a point for each that cannot be printed.
-/

namespace DiskArray.Text

/-- Bytes in one row. -/
abbrev dumpWidth : Nat := 16

/-- The printable ASCII character of a byte, or a point. -/
def printable (b : UInt8) : Char :=
  if 0x20 ≤ b ∧ b ≤ 0x7e then Char.ofNat b.toNat else '.'

/-- The hexadecimal column of a row. -/
def hexColumn (row : List UInt8) : String :=
  padEnd 47 (" ".intercalate (row.map hexByte))

/-- The text column of a row. -/
def textColumn (row : List UInt8) : String := String.ofList (row.map printable)

/-- One row, whose first byte has the address `start`. -/
def dumpRow (start : Nat) (row : List UInt8) : String :=
  hexNumber 6 start ++ "  " ++ hexColumn row ++ "  |" ++ textColumn row ++ "|"

/-- The rows of a dump whose first byte has the address `start`. -/
def hexDump (start : Nat) (bytes : List UInt8) : List String :=
  if _h : bytes = [] then []
  else dumpRow start (bytes.take dumpWidth) :: hexDump (start + dumpWidth) (bytes.drop dumpWidth)
termination_by bytes.length
decreasing_by
  have := List.length_pos_iff.2 _h
  simp only [List.length_drop, dumpWidth]
  omega

end DiskArray.Text
