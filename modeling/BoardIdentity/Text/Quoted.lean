import BoardIdentity.Text.Printable

/-!
# Quoted text

Text is written between double quotes.  The quote and the backslash carry a backslash, as do tab,
line feed, carriage return and the zero character under their usual letters; every other character
that does not show by itself is written as its number in hexadecimal between braces.
-/

namespace BoardIdentity.Quoted

/-- The written form of one character. -/
def encodeChar (c : Char) : List Char :=
  match c with
  | '\x00' => ['\\', '0']
  | '\t' => ['\\', 't']
  | '\r' => ['\\', 'r']
  | '\n' => ['\\', 'n']
  | '"' => ['\\', '"']
  | '\\' => ['\\', '\\']
  | _ =>
    if Printable.isPrintable c then [c]
    else ['\\', 'u', '\x7b'] ++ Nat.toDigits 16 c.toNat ++ ['\x7d']

/-- The written form of a text, without the quotes around it. -/
def encode (text : List Char) : List Char :=
  text.flatMap encodeChar

/-- The written form of a text. -/
def quote (text : String) : String :=
  String.ofList ('"' :: encode text.toList ++ ['"'])

end BoardIdentity.Quoted
