/-!
# Decimal numerals

Numerals are read from characters without blanks.  An integer is an optional sign and digits; a
general numeral may also have a decimal point and an exponent, and needs a digit before or after
the point.
-/

namespace Wiring
namespace Decimal

/-- Sign in front of a numeral, and the characters after it. -/
def takeSign : List Char → Bool × List Char
  | '-' :: rest => (true, rest)
  | '+' :: rest => (false, rest)
  | chars => (false, chars)

/-- Value of decimal digits. -/
def digitsValue (digits : List Char) : Nat :=
  digits.foldl (fun value digit => 10 * value + (digit.toNat - '0'.toNat)) 0

/-- Number of magnitude given by digits alone. -/
def natural? (chars : List Char) : Option Nat :=
  if chars.isEmpty then none else if chars.all Char.isDigit then some (digitsValue chars) else none

/-- Integer of an optional sign and one or more digits. -/
def integer? (chars : List Char) : Option Int :=
  let (negative, digits) := takeSign chars
  (natural? digits).map fun value => if negative then -(value : Int) else value

/-- Decimal number `coefficient · 10 ^ exponent` with a sign of its own. -/
structure Numeral where
  /-- Whether the number has a minus sign, which zero may have too. -/
  negative : Bool
  /-- All digits as one number. -/
  coefficient : Nat
  /-- Power of ten by which the coefficient is scaled. -/
  exponent : Int
  deriving DecidableEq, Repr

/-- Exponent part of a numeral; nothing stands for exponent zero. -/
def exponent? : List Char → Option Int
  | [] => some 0
  | 'e' :: rest | 'E' :: rest => integer? rest
  | _ => none

/-- Digits after an optional decimal point, and the characters after them. -/
def takeFraction : List Char → List Char × List Char
  | '.' :: rest => (rest.takeWhile Char.isDigit, rest.dropWhile Char.isDigit)
  | chars => ([], chars)

/-- General decimal numeral. -/
def numeral? (chars : List Char) : Option Numeral :=
  let (negative, unsigned) := takeSign chars
  let whole := unsigned.takeWhile Char.isDigit
  let (fraction, rest) := takeFraction (unsigned.dropWhile Char.isDigit)
  if (whole ++ fraction).isEmpty then none
  else
    (exponent? rest).map fun exponent =>
      { negative
        coefficient := digitsValue (whole ++ fraction)
        exponent := exponent - fraction.length }

end Decimal
end Wiring
