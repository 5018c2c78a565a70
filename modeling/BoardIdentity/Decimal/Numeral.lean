import BoardIdentity.Decimal.Binary64

/-!
# Decimal numerals

A numeral is digits with an optional point among or around them and an optional power of ten, in
front of which a sign may stand.  It denotes an exact fraction; `Numeral.toBits` is the double
nearest to it.
-/

namespace BoardIdentity

/-- The number `digits * 10 ^ exponent`, or its negative. -/
structure Numeral where
  negative : Bool
  digits : Nat
  exponent : Int
  deriving DecidableEq, Repr

namespace Numeral

/-! ## Reading -/

/-- The number that decimal digits denote, highest first. -/
def ofDigits (digits : List Char) : Nat :=
  digits.foldl (fun value c => 10 * value + (c.toNat - '0'.toNat)) 0

/-- Splits a sign off; without one the number is not negative. -/
def splitSign : List Char → Bool × List Char
  | '-' :: rest => (true, rest)
  | '+' :: rest => (false, rest)
  | rest => (false, rest)

/-- The power of ten behind the digits: nothing, or the letter `e` and a signed whole number. -/
def exponent? : List Char → Option Int
  | [] => some 0
  | mark :: rest =>
    let (negative, digits) := splitSign rest
    if (mark = 'e' ∨ mark = 'E') ∧ digits ≠ [] ∧ digits.all Char.isDigit then
      some (if negative then -(ofDigits digits) else ofDigits digits)
    else
      none

/-- Reads a numeral.  There has to be a digit on one side of the point. -/
def parse? (text : List Char) : Option Numeral := do
  let (negative, text) := splitSign text
  let whole := text.takeWhile Char.isDigit
  let text := text.dropWhile Char.isDigit
  let (fraction, text) := match text with
    | '.' :: rest => (rest.takeWhile Char.isDigit, rest.dropWhile Char.isDigit)
    | _ => ([], text)
  guard (whole ++ fraction ≠ [])
  let exponent ← exponent? text
  return {
    negative
    digits := ofDigits (whole ++ fraction)
    exponent := exponent - fraction.length }

/-! ## Value -/

/-- The bits of the nearest double, its sign apart.  Powers of ten far outside the range of doubles
are answered without being computed. -/
def magnitudeBits (numeral : Numeral) : Nat :=
  let order := numeral.exponent + (numeral.digits.log2 / 3 : Nat)
  if numeral.digits = 0 then 0
  else if numeral.exponent > 400 then Binary64.infinityBits
  else if order < -400 then 0
  else
    Binary64.roundToBits (numeral.digits * Nat.pow 10 numeral.exponent.toNat)
      (Nat.pow 10 (-numeral.exponent).toNat)

def toBits (numeral : Numeral) : UInt64 :=
  UInt64.ofNat (numeral.magnitudeBits + if numeral.negative then Binary64.signBit else 0)

end Numeral

end BoardIdentity
