import BoardIdentity.Toml.Text

/-!
# Tokens of a document

A document is cut into punctuation, strings, line breaks, blank space, and words: everything else up
to the next character that has a meaning of its own.  A comment counts as blank space.
-/

namespace BoardIdentity.Toml

/-- A piece of a document. -/
inductive Token where
  | dot
  | equals
  | comma
  | openBracket
  | closeBracket
  | openBrace
  | closeBrace
  | lineBreak
  | blank (text : List Char)
  | word (text : List Char)
  | string (multiline : Bool) (text : List Char)
  deriving DecidableEq, Repr

namespace Token

/-- Words end in front of these characters.  Quotes are not among them, so that a word with a quote
in it stays one word and is refused as such. -/
def endsWord (c : Char) : Bool :=
  c ∈ ['.', '=', ',', '[', ']', '\x7b', '\x7d', ' ', '\t', '#', '\r', '\n']

def endsComment (c : Char) : Bool :=
  c = '\r' || c = '\n'

/-- Takes the first token off a text. -/
def front? : (text : List Char) → Option (Front Char Token text)
  | [] => none
  | '.' :: _ => some (.one .dot)
  | '=' :: _ => some (.one .equals)
  | ',' :: _ => some (.one .comma)
  | '[' :: _ => some (.one .openBracket)
  | ']' :: _ => some (.one .closeBracket)
  | '\x7b' :: _ => some (.one .openBrace)
  | '\x7d' :: _ => some (.one .closeBrace)
  | '\n' :: _ => some (.one .lineBreak)
  | '\r' :: '\n' :: _ => some (Front.one .lineBreak).behind
  | '\r' :: _ => none
  | '#' :: rest => do
    guard ((rest.takeWhile (!endsComment ·)).all Text.isTextChar)
    return (Front.one (.blank [])).leaving (rest.dropWhile (!endsComment ·))
      (length_dropWhile_le _ rest)
  | '"' :: '"' :: '"' :: rest => do
    let front ← Text.multilineBasic (Text.dropBreak rest)
    let front := (front.map (.string true)).within (Text.length_dropBreak_le rest)
    return front.behind.behind.behind
  | '\'' :: '\'' :: '\'' :: rest => do
    let front ← Text.multilineLiteral (Text.dropBreak rest)
    let front := (front.map (.string true)).within (Text.length_dropBreak_le rest)
    return front.behind.behind.behind
  | '"' :: rest => do
    let front ← Text.basic rest
    return (front.map (.string false)).behind
  | '\'' :: rest => do
    let front ← Text.literal rest
    return (front.map (.string false)).behind
  | c :: rest =>
    let belongs (c : Char) := if Text.isBlank c then Text.isBlank else (!endsWord ·)
    let run := c :: rest.takeWhile (belongs c)
    let token := if Text.isBlank c then .blank run else .word run
    some ((Front.one token).leaving (rest.dropWhile (belongs c)) (length_dropWhile_le _ rest))

def scan? (text : List Char) : Option (List Token) :=
  if text = [] then some []
  else
    match front? text with
    | none => none
    | some front => (scan? front.rest).map (front.value :: ·)
termination_by text.length
decreasing_by exact front.rest_lt

end Token

end BoardIdentity.Toml
