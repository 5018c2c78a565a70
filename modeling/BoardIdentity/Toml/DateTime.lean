/-!
# Dates and times

A date, a time of day, or both with a `T` or one space in between, to which the distance from
universal time may be added.  Every number has a fixed count of digits, seconds may be left out, and
fractions of a second may have any number of digits.  The day has to exist in its month.
-/

namespace BoardIdentity.Toml.DateTime

/-! ## Numbers -/

/-- Takes a number of exactly `count` digits off the front. -/
def number? (count : Nat) (text : List Char) : Option (Nat × List Char) :=
  let digits := text.take count
  if digits.length = count ∧ digits.all Char.isDigit then
    some (digits.foldl (fun value c => 10 * value + (c.toNat - '0'.toNat)) 0, text.drop count)
  else
    none

/-- Takes one character off the front, if it is among the given ones. -/
def mark? (marks : List Char) : List Char → Option (List Char)
  | [] => none
  | c :: rest => if c ∈ marks then some rest else none

/-! ## Dates -/

/-- Leap years are those divisible by four, of the full centuries only every fourth. -/
def isLeapYear (year : Nat) : Bool :=
  year % 4 = 0 && (year % 100 ≠ 0 || year % 400 = 0)

def daysIn (year month : Nat) : Nat :=
  if month = 2 then (if isLeapYear year then 29 else 28)
  else if month = 4 ∨ month = 6 ∨ month = 9 ∨ month = 11 then 30
  else 31

def date? (text : List Char) : Option (List Char) := do
  let (year, text) ← number? 4 text
  let text ← mark? ['-'] text
  let (month, text) ← number? 2 text
  let text ← mark? ['-'] text
  let (day, text) ← number? 2 text
  guard (1 ≤ month ∧ month ≤ 12 ∧ 1 ≤ day ∧ day ≤ daysIn year month)
  return text

/-! ## Times -/

/-- Takes seconds off the front, with a fraction if there is one.  A minute may have a sixty-first
second. -/
def seconds? (text : List Char) : Option (List Char) := do
  let (second, text) ← number? 2 text
  guard (second ≤ 60)
  match text with
  | '.' :: fraction =>
    guard ((fraction.takeWhile Char.isDigit) ≠ [])
    return fraction.dropWhile Char.isDigit
  | _ => return text

def time? (text : List Char) : Option (List Char) := do
  let (hour, text) ← number? 2 text
  let text ← mark? [':'] text
  let (minute, text) ← number? 2 text
  guard (hour ≤ 23 ∧ minute ≤ 59)
  match text with
  | ':' :: text => seconds? text
  | _ => return text

/-- Takes the distance from universal time off the front, if there is one. -/
def offset? (text : List Char) : Option (List Char) :=
  match text with
  | [] => some []
  | _ => mark? ['Z', 'z'] text <|> do
    let text ← mark? ['+', '-'] text
    let (hour, text) ← number? 2 text
    let text ← mark? [':'] text
    let (minute, text) ← number? 2 text
    guard (hour ≤ 23 ∧ minute ≤ 59)
    return text

/-- Whether the text is a date, a time or both, and nothing else. -/
def isValid (text : List Char) : Bool :=
  match date? text with
  | some [] => true
  | some text => ((mark? ['T', 't', ' '] text).bind time?).bind offset? = some []
  | none => time? text = some []

end BoardIdentity.Toml.DateTime
