import DiskArray.Text.Blank
import DiskArray.Text.Numeral

/-!
# The number grammar of commands

A number is decimal, or hexadecimal behind `0x` or `0X`. Underscores may stand anywhere behind the
marker and count for nothing, blanks around the number are dropped, and the value is below 2 ^ 64.
-/

namespace DiskArray.Text

/-- A text, already without blanks around it, that is no number. -/
structure NumberError where
  text : String
deriving DecidableEq, Repr

def NumberError.message (e : NumberError) : String :=
  "'" ++ e.text ++ "' is not a valid number"

/-- The base in which a number is written, and what stands behind its marker. -/
def splitMarker : List Char → Nat × List Char
  | '0' :: 'x' :: body => (16, body)
  | '0' :: 'X' :: body => (16, body)
  | body => (10, body)

/-- The value of a number without blanks around it. -/
def numberValue (cs : List Char) : Option Nat :=
  let (base, body) := splitMarker cs
  readUnsigned base (body.filter (· != '_'))

/-- Reads a number. -/
def parseNumber (s : String) : Except NumberError Nat :=
  let trimmed := trim s
  match numberValue trimmed.toList with
  | some v => .ok v
  | none => .error ⟨trimmed⟩

end DiskArray.Text
