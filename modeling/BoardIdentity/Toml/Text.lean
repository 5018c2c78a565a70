import BoardIdentity.Text.Hex
import BoardIdentity.Toml.Front

/-!
# Strings of a document

A string stands between one or three quotes of either kind.  Between double quotes a backslash
starts an escape; between single quotes every character stands for itself.  Strings in three quotes
may run over several lines, leave out a line break right behind the opening quotes, and may end in
up to two quotes of their own.

The readers below start behind the opening quotes.
-/

namespace BoardIdentity.Toml.Text

/-! ## Characters -/

/-- Tab is the only control character that text may hold. -/
def isTextChar (c : Char) : Bool :=
  c = '\t' || (' ' ≤ c && c ≠ '\x7f')

/-- The characters that leave a gap between words of a line. -/
def isBlank (c : Char) : Bool :=
  c = ' ' || c = '\t'

/-! ## Escapes -/

/-- The character that an escape stands for, and how many characters spell it. -/
structure Escape where
  char : Char
  width : Nat

/-- The character whose number the next `count` digits give. -/
def codePoint? (count : Nat) (text : List Char) : Option Escape := do
  let digits := text.take count
  guard (digits.length = count)
  let number ← Hex.number? digits
  if valid : number.isValidChar then
    return { char := Char.ofNatAux number valid, width := count + 1 }
  else
    none

/-- The escape that starts behind a backslash. -/
def escape? : List Char → Option Escape
  | 'b' :: _ => some { char := '\x08', width := 1 }
  | 't' :: _ => some { char := '\t', width := 1 }
  | 'n' :: _ => some { char := '\n', width := 1 }
  | 'f' :: _ => some { char := '\x0c', width := 1 }
  | 'r' :: _ => some { char := '\r', width := 1 }
  | 'e' :: _ => some { char := '\x1b', width := 1 }
  | '"' :: _ => some { char := '"', width := 1 }
  | '\\' :: _ => some { char := '\\', width := 1 }
  | 'x' :: digits => codePoint? 2 digits
  | 'u' :: digits => codePoint? 4 digits
  | 'U' :: digits => codePoint? 8 digits
  | _ => none

/-! ## Strings of one line -/

/-- Reads the rest of a string in double quotes. -/
def basic : (text : List Char) → Option (Front Char (List Char) text)
  | [] => none
  | '"' :: _ => some (.one [])
  | '\\' :: rest => do
    let escape ← escape? rest
    let front ← basic (rest.drop escape.width)
    return ((front.map (escape.char :: ·)).within (length_drop_le escape.width rest)).behind
  | c :: rest =>
    if isTextChar c then do
      let front ← basic rest
      return (front.map (c :: ·)).behind
    else
      none
termination_by text => text.length
decreasing_by
  · exact Nat.lt_succ_of_le (length_drop_le _ rest)
  · exact Nat.lt_succ_self _

/-- Reads the rest of a string in single quotes. -/
def literal : (text : List Char) → Option (Front Char (List Char) text)
  | [] => none
  | '\'' :: _ => some (.one [])
  | c :: rest =>
    if isTextChar c then do
      let front ← literal rest
      return (front.map (c :: ·)).behind
    else
      none

/-! ## Strings of several lines -/

/-- Leaves out a line break right behind the opening quotes. -/
def dropBreak : List Char → List Char
  | '\n' :: rest => rest
  | '\r' :: '\n' :: rest => rest
  | text => text

theorem length_dropBreak_le (text : List Char) : (dropBreak text).length ≤ text.length := by
  unfold dropBreak
  split <;> simp
  omega

def dropSpace : List Char → List Char
  | ' ' :: rest => dropSpace rest
  | '\t' :: rest => dropSpace rest
  | '\n' :: rest => dropSpace rest
  | '\r' :: '\n' :: rest => dropSpace rest
  | text => text

theorem length_dropSpace_le (text : List Char) : (dropSpace text).length ≤ text.length := by
  fun_induction dropSpace text <;> simp_all <;> omega

/-- Whether only blanks stand in front of the next line break. -/
def endsLine (text : List Char) : Bool :=
  match text.dropWhile isBlank with
  | '\n' :: _ => true
  | '\r' :: '\n' :: _ => true
  | _ => false

/-- Reads the rest of a string in three double quotes.  A backslash at the end of a line leaves out
the break and all space up to the next character. -/
def multilineBasic : (text : List Char) → Option (Front Char (List Char) text)
  | [] => none
  | '"' :: '"' :: '"' :: '"' :: '"' :: _ =>
    some (Front.one ['"', '"']).behind.behind.behind.behind
  | '"' :: '"' :: '"' :: '"' :: _ => some (Front.one ['"']).behind.behind.behind
  | '"' :: '"' :: '"' :: _ => some (Front.one []).behind.behind
  | '\\' :: rest =>
    if endsLine rest then do
      let front ← multilineBasic (dropSpace rest)
      return (front.within (length_dropSpace_le rest)).behind
    else do
      let escape ← escape? rest
      let front ← multilineBasic (rest.drop escape.width)
      return ((front.map (escape.char :: ·)).within (length_drop_le escape.width rest)).behind
  | '\r' :: '\n' :: rest => do
    let front ← multilineBasic rest
    return (front.map ('\r' :: '\n' :: ·)).behind.behind
  | c :: rest =>
    if isTextChar c || c = '\n' then do
      let front ← multilineBasic rest
      return (front.map (c :: ·)).behind
    else
      none
termination_by text => text.length
decreasing_by
  · exact Nat.lt_succ_of_le (length_dropSpace_le rest)
  · exact Nat.lt_succ_of_le (length_drop_le _ rest)
  · exact Nat.lt_add_right 1 (Nat.lt_succ_self _)
  · exact Nat.lt_succ_self _

/-- Reads the rest of a string in three single quotes. -/
def multilineLiteral : (text : List Char) → Option (Front Char (List Char) text)
  | [] => none
  | '\'' :: '\'' :: '\'' :: '\'' :: '\'' :: _ =>
    some (Front.one ['\'', '\'']).behind.behind.behind.behind
  | '\'' :: '\'' :: '\'' :: '\'' :: _ => some (Front.one ['\'']).behind.behind.behind
  | '\'' :: '\'' :: '\'' :: _ => some (Front.one []).behind.behind
  | '\r' :: '\n' :: rest => do
    let front ← multilineLiteral rest
    return (front.map ('\r' :: '\n' :: ·)).behind.behind
  | c :: rest =>
    if isTextChar c || c = '\n' then do
      let front ← multilineLiteral rest
      return (front.map (c :: ·)).behind
    else
      none

end BoardIdentity.Toml.Text
