import Wiring.Decimal.Binary

/-!
# Shortest decimal text of a binary number

Every number of a binary format owns an interval of reals that round to it.  The shortest decimal is
a point of the coarsest decimal grid that has a point in this interval, namely the nearer of the two
neighbours of the number, the upper one when both are equally near.  A layout says which decimals
are written positionally.
-/

namespace Wiring
namespace Decimal

/-- A number between the ends of its rounding interval, and the step of a decimal grid, all four as
multiples of one unit. -/
structure GridView where
  /-- Lower end of the interval. -/
  low : Nat
  /-- The number itself. -/
  value : Nat
  /-- Upper end of the interval. -/
  high : Nat
  /-- Whether the ends round to the number. -/
  closed : Bool
  /-- Distance of neighbouring grid points. -/
  step : Nat
  deriving DecidableEq, Repr

namespace GridView

/-- Whether a point rounds to the number. -/
def admits (view : GridView) (point : Nat) : Bool :=
  if view.closed then view.low ≤ point && point ≤ view.high
  else view.low < point && point < view.high

/-- Coefficient of the nearest grid neighbour that rounds to the number, if there is one. -/
def nearest? (view : GridView) : Option Nat :=
  let below := view.value / view.step
  match view.admits (below * view.step), view.admits ((below + 1) * view.step) with
  | true, true => some (if 2 * (view.value % view.step) < view.step then below else below + 1)
  | true, false => some below
  | false, true => some (below + 1)
  | false, false => none

end GridView

namespace BinaryFormat

/-- The number in a quarter of its least bit, seen on the grid of a power of ten.  The gap below a
power of two is half as wide as the gap above. -/
def gridView (format : BinaryFormat) (number : BinaryNumber) (power : Int) : GridView :=
  let narrow := number.significand = format.leading ∧
    format.leastExponent < number.exponent
  let quarter := (scale 2 (number.exponent - 2) (scale 10 (-power) (1, 1)))
  { low := (4 * number.significand - if narrow then 1 else 2) * quarter.1
    value := 4 * number.significand * quarter.1
    high := (4 * number.significand + 2) * quarter.1
    closed := number.significand % 2 == 0
    step := quarter.2 }

/-- Power of ten above a number: one hundred thousand bits are at most 30103 decimal digits. -/
def powerAbove (number : BinaryNumber) : Int :=
  (number.exponent + Nat.log2 number.significand + 1) * 30103 / 100000 + 2

/-- Search of grids from coarse to fine; the finest grid tried has the nearest neighbour below. -/
def search (format : BinaryFormat) (number : BinaryNumber) (power : Int) : Nat → Nat × Int
  | 0 =>
      let view := format.gridView number power
      (view.value / view.step, power)
  | grids + 1 =>
      match (format.gridView number power).nearest? with
      | some coefficient => (coefficient, power)
      | none => format.search number (power - 1) grids

/-- Coefficient and power of ten of the shortest decimal that rounds to a number. -/
def shortest (format : BinaryFormat) (number : BinaryNumber) : Nat × Int :=
  format.search number (powerAbove number) format.precision

end BinaryFormat

/-- Range of decimal exponents written positionally. -/
structure Layout where
  /-- Least exponent of the leading digit of a positional text. -/
  leastPositional : Int
  /-- Least exponent of the leading digit above the positional range. -/
  exponential : Int
  deriving DecidableEq, Repr

namespace Layout

/-- Digits with the decimal point in front of the last `places` of them; at least one digit stands
on each side of the point. -/
def positional (digits : List Char) (power : Int) : List Char :=
  if 0 ≤ power then digits ++ List.replicate power.toNat '0' ++ ['.', '0']
  else
    let places := (-power).toNat
    let padded := List.replicate (places + 1 - digits.length) '0' ++ digits
    padded.take (padded.length - places) ++ '.' :: padded.drop (padded.length - places)

/-- Digits with the decimal point after the first one, and the exponent of that digit. -/
def scientific (digits : List Char) (exponent : Int) : List Char :=
  let mantissa :=
    match digits with
    | first :: second :: rest => first :: '.' :: second :: rest
    | _ => digits
  mantissa ++ 'e' :: (toString exponent).toList

/-- Text of `coefficient · 10 ^ power`. -/
def render (layout : Layout) (coefficient : Nat) (power : Int) : List Char :=
  let digits := Nat.toDigits 10 coefficient
  let exponent := power + digits.length - 1
  if layout.leastPositional ≤ exponent ∧ exponent < layout.exponential then
    positional digits power
  else
    scientific digits exponent

end Layout

/-- Text of a numeral rounded to a binary format, unless it overflows. -/
def canonicalText? (format : BinaryFormat) (layout : Layout) (numeral : Numeral) :
    Option (List Char) :=
  let sign := if numeral.negative then ['-'] else []
  match format.round numeral with
  | .zero => some (sign ++ ['0', '.', '0'])
  | .finite number =>
      let (coefficient, power) := format.shortest number
      some (sign ++ layout.render coefficient power)
  | .infinite => none

end Decimal
end Wiring
