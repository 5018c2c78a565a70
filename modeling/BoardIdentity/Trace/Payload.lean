import BoardIdentity.Decimal.Numeral
import BoardIdentity.Decimal.Shortest

/-!
# Trace payloads

The values that a trace carries: the payload of a fresh ring, whole numbers, and floating-point
numbers.  Payloads of different kinds differ, and floating-point payloads compare as numbers do, so
that a payload which is not a number differs even from itself.
-/

namespace BoardIdentity.Trace

/-- What an event carries. -/
inductive Payload where
  | initial
  | whole (n : Int)
  | real (x : Float)

instance : BEq Payload where
  beq
    | .initial, .initial => true
    | .whole m, .whole n => m == n
    | .real x, .real y => x == y
    | _, _ => false

/-! ## Text of floating-point numbers -/

namespace RealText

/-- Reads a floating-point number: a numeral, or one of the words for infinity and for what is not a
number, in either case and with a sign in front. -/
def parse? (text : String) : Option Float :=
  let chars := text.toList
  let (negative, rest) := Numeral.splitSign chars
  let sign (x : Float) := if negative then -x else x
  match String.ofList (rest.map Char.toLower) with
  | "inf" | "infinity" => some (sign (Float.ofBits 0x7ff0000000000000))
  | "nan" => some (sign (Float.ofBits 0x7ff8000000000000))
  | _ => (Numeral.parse? chars).map fun numeral => Float.ofBits numeral.toBits

/-- The least power of ten of the first digit that is written positionally. -/
def leastPositional : Int := -4

/-- The greatest power of ten of the first digit that is written positionally. -/
def greatestPositional : Int := 15

/-- Positional notation, with at least one digit on either side of the point. -/
def positional (digits : List Char) (exponent : Int) : List Char :=
  if 0 ≤ exponent then
    digits ++ List.replicate exponent.toNat '0' ++ ['.', '0']
  else
    let places := (-exponent).toNat
    let padded := List.replicate (places + 1 - digits.length) '0' ++ digits
    padded.take (padded.length - places) ++ '.' :: padded.drop (padded.length - places)

/-- One digit, the others behind a point if there are any, and the power of ten of the first. -/
def scientific (digits : List Char) (order : Int) : List Char :=
  let (first, others) := (digits.take 1, digits.drop 1)
  first ++ (if others = [] then [] else '.' :: others) ++ 'e' :: (toString order).toList

/-- Writes the shortest decimal that reads back, with a power of ten behind it if its first digit
lies outside the positional range. -/
def write (x : Float) : String :=
  let bits := x.toBits.toNat
  let sign := if bits < Binary64.signBit then [] else ['-']
  let magnitude := bits % Binary64.signBit
  if magnitude > Binary64.infinityBits then "NaN"
  else
    let unsigned : List Char :=
      if magnitude = Binary64.infinityBits then ['i', 'n', 'f']
      else if magnitude = 0 then ['0', '.', '0']
      else
        let decimal := Shortest.ofParts (Binary64.parts magnitude)
        let digits := Nat.toDigits 10 decimal.digits
        let order := decimal.exponent + digits.length - 1
        if leastPositional ≤ order ∧ order ≤ greatestPositional then
          positional digits decimal.exponent
        else
          scientific digits order
    String.ofList (sign ++ unsigned)

end RealText

end BoardIdentity.Trace
