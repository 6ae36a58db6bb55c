/-!
# Shortest decimals

A number in the 64-bit binary format is an integer times a power of two.  The
decimals that are read back as it form an interval around it, whose ends belong
to it when the integer is even.  Among the decimals of this interval with the
fewest digits the nearest one is chosen; of two equally near ones, the larger.
-/

namespace ModularGlsl
namespace Decimal

/-- A number in the 64-bit binary format, given by its bits. -/
structure Binary64 where
  /-- Sign, exponent and fraction. -/
  bits : UInt64
  deriving DecidableEq, Repr, Inhabited

namespace Binary64

/-- The fraction bits. -/
def fraction (number : Binary64) : Nat :=
  number.bits.toNat % Nat.pow 2 52

/-- The exponent bits. -/
def exponentBits (number : Binary64) : Nat :=
  number.bits.toNat / Nat.pow 2 52 % Nat.pow 2 11

/-- Whether the sign bit is set. -/
def isNegative (number : Binary64) : Bool :=
  Nat.pow 2 63 ≤ number.bits.toNat

/-- Whether the exponent marks an infinity or no number at all. -/
def isSpecial (number : Binary64) : Bool :=
  number.exponentBits == 2047

/-- Whether the number is zero. -/
def isZero (number : Binary64) : Bool :=
  number.exponentBits == 0 && number.fraction == 0

/-- The integer that a power of two multiplies. -/
def significand (number : Binary64) : Nat :=
  if number.exponentBits = 0 then
    number.fraction
  else
    Nat.pow 2 52 + number.fraction

/-- The exponent of the power of two. -/
def exponent (number : Binary64) : Int :=
  (max number.exponentBits 1 : Nat) - 1075

/-- Whether the next smaller number is only half as far away as the next
larger one. -/
def isNarrowBelow (number : Binary64) : Bool :=
  number.fraction == 0 && 1 < number.exponentBits

end Binary64

/-- The number of decimal digits. -/
def digitCount (value : Nat) : Nat :=
  (Nat.toDigits 10 value).length

/-- A positive number and the interval around it, as numerators over one
denominator. -/
structure Interval where
  /-- The numerator of the lower end. -/
  low : Nat
  /-- The numerator of the number. -/
  middle : Nat
  /-- The numerator of the upper end. -/
  high : Nat
  /-- The common denominator. -/
  denominator : Nat
  /-- Whether the ends belong to the interval. -/
  closed : Bool

namespace Interval

/-- The decimals that are read back as a number: half the way to either
neighbour, in quarters of the last binary place. -/
def ofBinary (number : Binary64) : Interval :=
  let significand := number.significand
  let below := if number.isNarrowBelow then 1 else 2
  let quarter := number.exponent - 2
  let scale := Nat.pow 2 quarter.toNat
  { low := (4 * significand - below) * scale
    middle := 4 * significand * scale
    high := (4 * significand + 2) * scale
    denominator := Nat.pow 2 (-quarter).toNat
    closed := significand % 2 == 0 }

/-- The exponent of the leading decimal digit of the number. -/
def leadingExponent (interval : Interval) : Int :=
  if interval.denominator ≤ interval.middle then
    digitCount (interval.middle / interval.denominator) - 1
  else
    -digitCount ((interval.denominator - 1) / interval.middle)

/-- The interval in units of a power of ten. -/
def scaled
    (interval : Interval)
    (unit : Int) : Interval :=
  let up := Nat.pow 10 (-unit).toNat
  { low := interval.low * up
    middle := interval.middle * up
    high := interval.high * up
    denominator := interval.denominator * Nat.pow 10 unit.toNat
    closed := interval.closed }

/-- Whether an integer lies in the interval. -/
def contains
    (interval : Interval)
    (candidate : Nat) : Bool :=
  let point := candidate * interval.denominator
  if interval.closed then
    interval.low ≤ point && point ≤ interval.high
  else
    interval.low < point && point < interval.high

/-- The integer of the interval that is nearest to the number, if one of its
two neighbours lies in the interval. -/
def nearest? (interval : Interval) : Option Nat :=
  let down := interval.middle / interval.denominator
  let rest := interval.middle % interval.denominator
  match interval.contains down, interval.contains (down + 1) with
  | true, true => some (if 2 * rest < interval.denominator then down else down + 1)
  | true, false => some down
  | false, true => some (down + 1)
  | false, false => none

end Interval

/-- The digits of a decimal fraction and the place of its point: the value is
the fraction whose digits follow the point, times ten to the power of the
place. -/
structure Digits where
  /-- The digits, without a zero at the end. -/
  digits : List Char
  /-- How many digits stand before the point. -/
  point : Int

/-- The digits of an integer times a power of ten. -/
def Digits.ofScaled
    (value : Nat)
    (unit : Int) : Digits :=
  let digits := Nat.toDigits 10 value
  { digits := (digits.reverse.dropWhile (· == '0')).reverse
    point := digits.length + unit }

/-- The shortest decimal with a given number of digits, if there is one. -/
def withDigits?
    (interval : Interval)
    (count : Nat) : Option Digits :=
  let unit := interval.leadingExponent - count
  (interval.scaled unit).nearest?.map fun value => Digits.ofScaled value unit

/-- The shortest decimal that is read back as a positive number.  Seventeen
digits always suffice. -/
def shortest (number : Binary64) : Digits :=
  let interval := Interval.ofBinary number
  ((List.range 17).findSome? (withDigits? interval)).getD ⟨['0'], 1⟩

end Decimal
end ModularGlsl
