import RegisterMachine.Double
import RegisterMachine.Numeral

namespace RegisterMachine

namespace Double

/-- The double nearest to `digits * 10 ^ exponent`. Beyond the range of doubles the answer is known
from the size alone. -/
def ofDecimal (digits : Nat) (exponent : Int) : Double :=
  if digits = 0 then ofInt 0
  else
    let leading := exponent + (Nat.toDigits 10 digits).length
    if 310 < leading then infinity
    else if leading < -330 then ofInt 0
    else ofFloat (Float.ofScientific digits (exponent < 0) exponent.natAbs)

/-- What stands before and after the first character of the given kind. -/
def splitAtFirst (p : Char → Bool) (cs : List Char) : List Char × Option (List Char) :=
  match cs.span (fun c => !p c) with
  | (before, []) => (before, none)
  | (before, _ :: after) => (before, some after)

/-- The power of ten behind the mark, or zero where there is no mark. -/
def exponentPart? : Option (List Char) → Option Int
  | none => some 0
  | some cs => Numeral.integer? cs

/-- A number without its sign: digits with at most one point, at least one digit, and perhaps a
power of ten. -/
def unsigned? (cs : List Char) : Option Double :=
  let (mantissa, power) := splitAtFirst (fun c => c = 'e' ∨ c = 'E') cs
  let (whole, decimals) := splitAtFirst (· = '.') mantissa
  let places := decimals.getD []
  match Numeral.natural? (whole ++ places), exponentPart? power with
  | some digits, some exponent => some (ofDecimal digits (exponent - places.length))
  | _, _ => none

/-- The names of the values that are no finite number, in any case. -/
def named? (cs : List Char) : Option Double :=
  match String.ofList (cs.map Char.toLower) with
  | "inf" => some infinity
  | "infinity" => some infinity
  | "nan" => some nan
  | _ => none

/-- A name or a number without its sign. -/
def magnitude? (cs : List Char) : Option Double :=
  (named? cs).or (unsigned? cs)

/-- Reads a double with an optional sign. -/
def read? : List Char → Option Double
  | '-' :: cs => (magnitude? cs).map negate
  | '+' :: cs => magnitude? cs
  | cs => magnitude? cs

end Double

end RegisterMachine
