import ModularGlsl.Decimal.Shortest

/-!
# Text of decimals

Where the point of a decimal lies near its digits it is written positionally
with a digit on either side of the point, elsewhere with an exponent.  The
bounds and the words for special values are those of a format.
-/

namespace ModularGlsl
namespace Decimal

/-- How numbers are written. -/
structure Format where
  /-- The least place of the point that is written positionally. -/
  leastPoint : Int
  /-- The greatest place of the point that is written positionally. -/
  greatestPoint : Int
  /-- What stands before the exponent. -/
  exponentMark : String
  /-- The text of what is no number. -/
  notANumber : String
  /-- The text of the positive infinity. -/
  infinity : String

/-- Digits with a point among, before or after them. -/
def positional (decimal : Digits) : String :=
  let count : Int := decimal.digits.length
  if decimal.point ≤ 0 then
    "0." ++ String.ofList (List.replicate (-decimal.point).toNat '0' ++ decimal.digits)
  else if count ≤ decimal.point then
    String.ofList
      (decimal.digits ++ List.replicate (decimal.point - count).toNat '0') ++ ".0"
  else
    String.ofList (decimal.digits.take decimal.point.toNat) ++ "." ++
      String.ofList (decimal.digits.drop decimal.point.toNat)

/-- The first digit, the point and the other digits if there are any, and the
exponent of the first digit. -/
def scientific
    (mark : String)
    (decimal : Digits) : String :=
  let fraction :=
    match decimal.digits.drop 1 with
    | [] => ""
    | rest => "." ++ String.ofList rest
  String.ofList (decimal.digits.take 1) ++ fraction ++ mark ++ toString (decimal.point - 1)

namespace Format

/-- The text of a positive number. -/
def magnitude
    (format : Format)
    (number : Binary64) : String :=
  let decimal := shortest number
  if format.leastPoint ≤ decimal.point ∧ decimal.point ≤ format.greatestPoint then
    positional decimal
  else
    scientific format.exponentMark decimal

/-- The text of a number. -/
def text
    (format : Format)
    (number : Binary64) : String :=
  let sign := if number.isNegative then "-" else ""
  if number.isSpecial then
    if number.fraction = 0 then sign ++ format.infinity else format.notANumber
  else if number.isZero then
    sign ++ "0.0"
  else
    sign ++ format.magnitude number

end Format
end Decimal
end ModularGlsl
