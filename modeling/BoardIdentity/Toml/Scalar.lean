import BoardIdentity.Text.Hex
import BoardIdentity.Toml.DateTime
import BoardIdentity.Toml.Value

/-!
# Bare values

A value that stands without quotes is a truth value, a number, or a date or time; the forms exclude
each other.  Digits may be grouped by single underscores.  Decimal numbers may have a sign but no
leading zeros; numbers to another base have neither.

A text that looks like a whole number need not be one: `1_f` and `0x` are values that denote no
number, which matters only to a reader of the value.
-/

namespace BoardIdentity.Toml.Scalar

open Hex (isDigitOf ofDigits)

/-! ## Digits -/

/-- Digits to a base with the underscores between them left out; there has to be a digit on either
side of each underscore. -/
def ungroup? (base : Nat) : List Char → Option (List Char)
  | [] => none
  | [c] => if isDigitOf base c then some [c] else none
  | c :: '_' :: rest => if isDigitOf base c then (ungroup? base rest).map (c :: ·) else none
  | c :: rest => if isDigitOf base c then (ungroup? base rest).map (c :: ·) else none

/-- Decimal digits without a leading zero, zero itself apart. -/
def whole? (text : List Char) : Option (List Char) := do
  let digits ← ungroup? 10 text
  guard (digits.length = 1 ∨ digits.head? ≠ some '0')
  return digits

/-! ## Numbers -/

def integer? : List Char → Option Value
  | '0' :: 'x' :: digits => return .integer (ofDigits 16 (← ungroup? 16 digits))
  | '0' :: 'o' :: digits => return .integer (ofDigits 8 (← ungroup? 8 digits))
  | '0' :: 'b' :: digits => return .integer (ofDigits 2 (← ungroup? 2 digits))
  | text => do
    let (negative, text) := Numeral.splitSign text
    let number : Int := ofDigits 10 (← whole? text)
    return .integer (if negative then -number else number)

/-- The digits behind the point, if there is a point. -/
def fraction? : List Char → Option (List Char)
  | '.' :: digits => ungroup? 10 digits
  | _ => some []

/-- The power of ten, if there is one. -/
def power? : List Char → Option Int
  | _ :: text => do
    let (negative, text) := Numeral.splitSign text
    let number : Int := ofDigits 10 (← ungroup? 10 text)
    return if negative then -number else number
  | [] => some 0

/-- A number with a point or a power of ten. -/
def decimal? (text : List Char) : Option Value := do
  let isMark (c : Char) := c = 'e' || c = 'E'
  let (negative, text) := Numeral.splitSign text
  let (mantissa, power) := (text.takeWhile (!isMark ·), text.dropWhile (!isMark ·))
  let (whole, fraction) := (mantissa.takeWhile (· != '.'), mantissa.dropWhile (· != '.'))
  guard (fraction ≠ [] ∨ power ≠ [])
  let whole ← whole? whole
  let fraction ← fraction? fraction
  let power ← power? power
  return .float (some {
    negative
    digits := ofDigits 10 (whole ++ fraction)
    exponent := power - fraction.length })

/-! ## Words -/

/-- Infinity, or what is not a number, with a sign or without. -/
def special? (text : List Char) : Option Value :=
  match String.ofList (Numeral.splitSign text).2 with
  | "inf" => some (.float none)
  | "nan" => some (.float none)
  | _ => none

def boolean? (text : List Char) : Option Value :=
  match String.ofList text with
  | "true" => some (.boolean true)
  | "false" => some (.boolean false)
  | _ => none

def dateTime? (text : List Char) : Option Value :=
  if DateTime.isValid text then some (.dateTime (String.ofList text)) else none

/-! ## Unreadable numbers -/

/-- Whether every underscore stands between two hexadecimal digits. -/
def isGrouped (text : List Char) : Bool :=
  text.getLast? != some '_' &&
    (text.zip text.tail).all fun (before, after) =>
      (after != '_' || isDigitOf 16 before) && (before != '_' || isDigitOf 16 after)

/-- Whether a text begins like grouped decimal digits, without a leading zero, and has nothing in it
that makes it a decimal fraction or two texts. -/
def isGroupedNumber (text : List Char) : Bool :=
  let (_, number) := Numeral.splitSign text
  let behind := number.dropWhile Char.isDigit
  number.head?.any (fun c => c.isDigit && c != '0') && behind.head? = some '_' &&
    !behind.any (· ∈ ['.', 'e', 'E', ' ']) && isGrouped text

/-- What passes for a whole number without being one: the mark of a base with no digits behind it,
or grouped decimal digits with other characters among them. -/
def unreadable? (text : List Char) : Option Value :=
  if text ∈ [['0', 'x'], ['0', 'o'], ['0', 'b']] ∨ isGroupedNumber text then
    some (.unreadable (String.ofList text))
  else
    none

/-! ## All bare values -/

/-- The value that a text without quotes stands for. -/
def ofText? (text : List Char) : Option Value :=
  boolean? text <|> integer? text <|> decimal? text <|> special? text <|> dateTime? text <|>
    unreadable? text

end BoardIdentity.Toml.Scalar
