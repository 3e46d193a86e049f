import RegisterMachine.Double.Shortest

namespace RegisterMachine

/-- Where numbers are written out in full and how the others mark their power of ten. -/
structure DoubleFormat where
  leastPositional : Int
  greatestPositional : Int
  exponentMark : Char

/-- Numbers from one thousandth up to, but not including, ten million are written in full. -/
def Double.format : DoubleFormat := ⟨-3, 6, 'E'⟩

namespace DoubleFormat

/-- The digits behind the decimal point, of which there is at least one. -/
def decimals (digits : List Char) : List Char :=
  if digits.isEmpty then ['0'] else digits

/-- The digits of a number whose first digit stands for `10 ^ leading`, written in full. -/
def positional (digits : List Char) (leading : Int) : List Char :=
  if leading < 0 then
    '0' :: '.' :: (List.replicate (-leading - 1).toNat '0' ++ digits)
  else
    let whole := leading.toNat + 1
    digits.take whole ++ List.replicate (whole - digits.length) '0' ++
      '.' :: decimals (digits.drop whole)

/-- One digit before the point, the others behind it, and the power of ten. -/
def scientific (mark : Char) (digits : List Char) (leading : Int) : List Char :=
  digits.take 1 ++ '.' :: decimals (digits.drop 1) ++ mark :: (toString leading).toList

/-- The text of a positive decimal number; zeros at its end are not digits of it. -/
def decimal (f : DoubleFormat) (n : Decimal) : List Char :=
  let written := Nat.toDigits 10 n.digits
  let leading := n.exponent + written.length - 1
  let digits := (written.reverse.dropWhile (· = '0')).reverse
  if f.leastPositional ≤ leading ∧ leading ≤ f.greatestPositional then
    positional digits leading
  else
    scientific f.exponentMark digits leading

end DoubleFormat

/-- The text of a double: the fewest digits that are read back as the same number. -/
def Double.text (d : Double) : String :=
  if d.isNaN then "NaN"
  else
    let minus := if d.hasMinus then "-" else ""
    if d.isInfinite then minus ++ "Infinity"
    else if d.isZero then minus ++ "0.0"
    else minus ++ String.ofList (Double.format.decimal d.shortest)

end RegisterMachine
