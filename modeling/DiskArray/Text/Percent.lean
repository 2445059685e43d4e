import DiskArray.Text.Numeral

/-!
# Percentages

A rate is computed in double precision: a count is rounded to a double, and so is each product and each quotient. Its
text has one decimal; it is the rounding of that double and not of the ratio, and a half goes to the even neighbour.
-/

namespace DiskArray.Text

/-- A quotient rounded to the nearest whole number, a half to the even one. -/
def roundDiv (num den : Nat) : Nat :=
  let q := num / den
  let twice := 2 * (num % den)
  if twice < den then q
  else if den < twice then q + 1
  else if q % 2 = 0 then q else q + 1

/-- A double: `mantissa * 2 ^ exponent`, with 53 binary digits in the mantissa unless it is zero. -/
structure Binary64 where
  mantissa : Nat
  exponent : Int
deriving DecidableEq, Repr

namespace Binary64

/-- The double nearest to a quotient, a tie to the even mantissa; the exponent is not bounded. -/
def ofRatio (num den : Nat) : Binary64 :=
  if num = 0 then ⟨0, 0⟩ else
  let scaled (e : Int) : Nat × Nat := (num <<< (-e).toNat, den <<< e.toNat)
  let low : Int := Int.ofNat num.log2 - Int.ofNat den.log2 - 53
  let e := if (scaled low).1 / (scaled low).2 < 1 <<< 53 then low else low + 1
  let m := roundDiv (scaled e).1 (scaled e).2
  if m = 1 <<< 53 then ⟨1 <<< 52, e + 1⟩ else ⟨m, e⟩

/-- The double nearest to a count. -/
def ofNat (n : Nat) : Binary64 := ofRatio n 1

/-- The double times or over a power of two; zero stays as it is. -/
def scale (x : Binary64) (e : Int) : Binary64 := if x.mantissa = 0 then x else { x with exponent := x.exponent + e }

/-- The double nearest to a product. -/
def mul (x y : Binary64) : Binary64 := (ofNat (x.mantissa * y.mantissa)).scale (x.exponent + y.exponent)

/-- The double nearest to a quotient, if the divisor is not zero. -/
def div (x y : Binary64) : Binary64 := (ofRatio x.mantissa y.mantissa).scale (x.exponent - y.exponent)

/-- The 64 bits of a double that is zero or in the normal range. -/
def bits (x : Binary64) : UInt64 :=
  if x.mantissa = 0 then 0
  else UInt64.ofNat ((x.exponent + 1075).toNat <<< 52 + (x.mantissa - 1 <<< 52))

/-- The double with one decimal. -/
def oneDecimal (x : Binary64) : String :=
  let tenths := roundDiv ((10 * x.mantissa) <<< x.exponent.toNat) (1 <<< (-x.exponent).toNat)
  toString (tenths / 10) ++ "." ++ toString (tenths % 10)

end Binary64

/-- The percentage `100 * part / whole`, multiplied first, which has no value when the whole is zero. -/
def percentage (part whole : Nat) : Option Binary64 :=
  if whole = 0 then none
  else some (((Binary64.ofNat 100).mul (Binary64.ofNat part)).div (Binary64.ofNat whole))

/-- A percentage in a column of six characters, as ` 66.7%`. -/
def percentText (x : Binary64) : String := padStart 5 ' ' x.oneDecimal ++ "%"

end DiskArray.Text
