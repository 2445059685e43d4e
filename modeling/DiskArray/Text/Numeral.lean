/-!
# Numerals

Writing a number in a base, padded to a width, and reading one back digit by digit.
-/

namespace DiskArray.Text

/-- The text with `fill` put in front until it has `width` characters. -/
def padStart (width : Nat) (fill : Char) (s : String) : String :=
  String.ofList (List.replicate (width - s.length) fill ++ s.toList)

/-- The text followed by blanks up to `width` characters. -/
def padEnd (width : Nat) (s : String) : String :=
  String.ofList (s.toList ++ List.replicate (width - s.length) ' ')

/-- Lower-case hexadecimal digits of a number, at least `width` of them. -/
def hexDigits (width n : Nat) : String :=
  padStart width '0' (String.ofList (Nat.toDigits 16 n))

/-- A number in hexadecimal behind its marker, as `0x1f`. -/
def hexNumber (width n : Nat) : String := "0x" ++ hexDigits width n

/-- A byte as two hexadecimal digits. -/
def hexByte (b : UInt8) : String := hexDigits 2 b.toNat

/-- Bytes as hexadecimal digits, two for each. -/
def hexBytes (bytes : List UInt8) : String := String.join (bytes.map hexByte)

/-- The value of a digit, either letter case, if it is one in this base. -/
def digitValue (base : Nat) (c : Char) : Option Nat :=
  let v :=
    if '0' ≤ c ∧ c ≤ '9' then c.toNat - '0'.toNat
    else if 'a' ≤ c ∧ c ≤ 'z' then c.toNat - 'a'.toNat + 10
    else if 'A' ≤ c ∧ c ≤ 'Z' then c.toNat - 'A'.toNat + 10
    else base
  if v < base then some v else none

/-- Reads digits behind a number already read: each one multiplies it by the base. -/
def readDigitsFrom (base value : Nat) : List Char → Option Nat
  | [] => some value
  | c :: cs =>
    match digitValue base c with
    | some d => readDigitsFrom base (value * base + d) cs
    | none => none

/-- The value of a row of digits; there must be at least one. -/
def readDigits (base : Nat) (cs : List Char) : Option Nat :=
  if cs.isEmpty then none else readDigitsFrom base 0 cs

/-- A numeral below 2 ^ 64: one optional plus sign, then digits. -/
def readUnsigned (base : Nat) (cs : List Char) : Option Nat :=
  let digits := match cs with
    | '+' :: rest => rest
    | _ => cs
  match readDigits base digits with
  | some v => if v < UInt64.size then some v else none
  | none => none

end DiskArray.Text
