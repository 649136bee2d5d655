import Wiring.Decimal.Numeral

/-!
# Binary floating-point numbers

A binary format has a precision and a range of exponents.  A decimal number is rounded to the
nearest number `significand · 2 ^ exponent` of the format, to the even significand when two are
equally near; all computations are exact.
-/

namespace Wiring
namespace Decimal

/-- Precision and exponent range of a binary format. -/
structure BinaryFormat where
  /-- Number of bits of a significand. -/
  precision : Nat
  /-- Least exponent of a significand. -/
  leastExponent : Int
  /-- Greatest exponent of a significand. -/
  greatestExponent : Int
  deriving DecidableEq, Repr

/-- Double precision. -/
def BinaryFormat.double : BinaryFormat := ⟨53, -1074, 971⟩

/-- Single precision. -/
def BinaryFormat.single : BinaryFormat := ⟨24, -149, 104⟩

/-- Positive number `significand · 2 ^ exponent`. -/
structure BinaryNumber where
  /-- Integral significand. -/
  significand : Nat
  /-- Power of two by which the significand is scaled. -/
  exponent : Int
  deriving DecidableEq, Repr

/-- Result of rounding a magnitude. -/
inductive Rounded where
  | zero
  | finite (number : BinaryNumber)
  | infinite
  deriving DecidableEq, Repr

/-- Quotient rounded to the nearest integer, to the even one when two are equally near. -/
def roundQuotient (numerator denominator : Nat) : Nat :=
  let quotient := numerator / denominator
  let twice := 2 * (numerator % denominator)
  if denominator < twice || (twice == denominator && quotient % 2 == 1) then quotient + 1
  else quotient

/-- Numerator and denominator of a fraction scaled by a power of a base. -/
def scale (base : Nat) (exponent : Int) (fraction : Nat × Nat) : Nat × Nat :=
  if 0 ≤ exponent then (fraction.1 * Nat.pow base exponent.toNat, fraction.2)
  else (fraction.1, fraction.2 * Nat.pow base (-exponent).toNat)

namespace BinaryFormat

/-- Least number with more bits than a significand. -/
def overflow (format : BinaryFormat) : Nat := Nat.pow 2 format.precision

/-- Least significand that uses every bit. -/
def leading (format : BinaryFormat) : Nat := Nat.pow 2 (format.precision - 1)

/-- Exponent at which a positive fraction has as many significand bits as the format allows. -/
def exponentFor (format : BinaryFormat) (fraction : Nat × Nat) : Int :=
  let estimate : Int := (Nat.log2 fraction.1 : Int) - Nat.log2 fraction.2 - format.precision
  let (numerator, denominator) := scale 2 (-estimate) fraction
  let exponent := if numerator < denominator * format.overflow then estimate else estimate + 1
  max exponent format.leastExponent

/-- Nearest number of the format to a positive fraction. -/
def roundFraction (format : BinaryFormat) (fraction : Nat × Nat) : Rounded :=
  let exponent := format.exponentFor fraction
  let (numerator, denominator) := scale 2 (-exponent) fraction
  let significand := roundQuotient numerator denominator
  let number : BinaryNumber :=
    if significand = format.overflow then ⟨format.leading, exponent + 1⟩
    else ⟨significand, exponent⟩
  if number.significand = 0 then .zero
  else if format.greatestExponent < number.exponent then .infinite
  else .finite number

/-- Number of decimal digits of a positive number. -/
def decimalLength (value : Nat) : Nat := (Nat.toDigits 10 value).length

/-- Bound on the decimal magnitude beyond which every format overflows or underflows. -/
def decimalBound : Int := 400

/-- Nearest number of the format to the magnitude of a numeral. -/
def round (format : BinaryFormat) (numeral : Numeral) : Rounded :=
  let magnitude := numeral.exponent + decimalLength numeral.coefficient
  if numeral.coefficient = 0 then .zero
  else if decimalBound < magnitude then .infinite
  else if magnitude < -decimalBound then .zero
  else format.roundFraction (scale 10 numeral.exponent (numeral.coefficient, 1))

end BinaryFormat
end Decimal
end Wiring
