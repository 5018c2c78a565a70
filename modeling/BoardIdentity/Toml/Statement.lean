import BoardIdentity.Toml.Scalar
import BoardIdentity.Toml.Table
import BoardIdentity.Toml.Token

/-!
# Statements of a document

A document is a sequence of statements, one to a line: a key with its value, the header of a table,
or the header of one more element of an array of tables.  Inside brackets and braces, which may be
nested only so deep, a statement may run over several lines, but not within a dotted key.
-/

namespace BoardIdentity.Toml

/-- A line of a document. -/
inductive Statement where
  | entry (key : Key) (value : Value)
  | header (key : Key)
  | element (key : Key)
  deriving Repr

/-- Arrays and tables in values, and the parts of a key, are nested at most this deep. -/
def nestingLimit : Nat := 80

namespace Statement

/-! ## Space -/

/-- Space within a line. -/
def isBlank : Token → Bool
  | .blank _ => true
  | _ => false

/-- Space within brackets and braces. -/
def isSpace : Token → Bool
  | .blank _ => true
  | .lineBreak => true
  | _ => false

/-- Takes the end of a line off the front: blank space, then a line break or the end. -/
def lineEnd? (tokens : List Token) : Option (List Token) :=
  match tokens.dropWhile isBlank with
  | [] => some []
  | .lineBreak :: rest => some rest
  | _ => none

theorem length_lineEnd?_le {tokens rest : List Token} (ended : lineEnd? tokens = some rest) :
    rest.length ≤ tokens.length := by
  have shorter := length_dropWhile_le isBlank tokens
  unfold lineEnd? at ended
  split at ended <;> simp_all
  omega

/-! ## Keys -/

/-- The characters of a key without quotes. -/
def isKeyChar (c : Char) : Bool :=
  c.isAlphanum || c = '_' || c = '-'

/-- The text of one part of a key. -/
def keyPart? : Token → Option String
  | .word text => if text.all isKeyChar then some (String.ofList text) else none
  | .string false text => some (String.ofList text)
  | _ => none

/-- Reads the parts of a key, with blank space around the dots between them and behind the last. -/
def keyParts? : (tokens : List Token) → Option (Front Token (List String) tokens)
  | [] => none
  | token :: tokens => do
    let part ← keyPart? token
    match behind_eq : tokens.dropWhile isBlank with
    | .dot :: behind =>
      have behind_lt := length_lt_of_dropWhile_eq_cons behind_eq
      have rest_le := Nat.le_trans (length_dropWhile_le isBlank behind) (Nat.le_of_lt behind_lt)
      let front ← keyParts? (behind.dropWhile isBlank)
      return ((front.map (part :: ·)).within rest_le).behind
    | _ =>
      return (Front.one [part]).leaving (tokens.dropWhile isBlank)
        (length_dropWhile_le isBlank tokens)
termination_by tokens => tokens.length
decreasing_by exact Nat.lt_succ_of_le rest_le

def key? (tokens : List Token) : Option (Front Token Key tokens) := do
  let front ← keyParts? tokens
  match front.value with
  | [] => none
  | first :: others =>
    guard (others.length < nestingLimit)
    return front.map fun _ => Key.ofParts first others

/-! ## Values -/

/-- The text of a bare value: words and dots, and the blank space between them. -/
def bareText : List Token → List Char
  | .word text :: rest => text ++ bareText rest
  | .dot :: rest => '.' :: bareText rest
  | .blank text :: rest =>
    let behind := bareText rest
    if behind = [] then [] else text ++ behind
  | _ => []

/-- Whether a token belongs to a bare value or is blank space behind it. -/
def isBare : Token → Bool
  | .word _ => true
  | .dot => true
  | .blank _ => true
  | _ => false

/-- Reads a bare value with the blank space behind it. -/
def bare? (first : List Char) (tokens : List Token) :
    Option (Front Token Value (.word first :: tokens)) := do
  let value ← Scalar.ofText? (first ++ bareText tokens)
  return (Front.one value).leaving (tokens.dropWhile isBare) (length_dropWhile_le isBare tokens)

/-- Reads the rest of a list between brackets or braces: items with commas in between and possibly
behind the last, space around everything, and the closing token. -/
def items? {α : Type} (close : Token)
    (item? : (tokens : List Token) → Option (Front Token α tokens)) (tokens : List Token) :
    Option (Front Token (List α) tokens) :=
  match rest_eq : tokens.dropWhile isSpace with
  | [] => none
  | token :: rest =>
    have shorter := length_lt_of_dropWhile_eq_cons rest_eq
    if token = close then some { value := [], rest, rest_lt := shorter }
    else
      match item? (token :: rest) with
      | none => none
      | some first =>
        have first_le := Nat.le_trans (Nat.le_of_lt_succ first.rest_lt) (Nat.le_of_lt shorter)
        match after_eq : first.rest.dropWhile isSpace with
        | .comma :: after =>
          have after_lt : after.length < tokens.length :=
            Nat.lt_of_lt_of_le (length_lt_of_dropWhile_eq_cons after_eq) first_le
          (items? close item? after).map fun others =>
            (others.map (first.value :: ·)).within (Nat.le_of_lt after_lt)
        | token :: after =>
          if token = close then
            some {
              value := [first.value]
              rest := after
              rest_lt := Nat.lt_of_lt_of_le (length_lt_of_dropWhile_eq_cons after_eq) first_le }
          else
            none
        | [] => none
termination_by tokens.length

/-- Reads a key, the equals sign, and a value, with space of a given kind around the sign. -/
def pair? (space : Token → Bool)
    (value? : (tokens : List Token) → Option (Front Token Value tokens))
    (tokens : List Token) : Option (Front Token (Key × Value) tokens) := do
  let key ← key? tokens
  let key := key.leaving (key.rest.dropWhile space) (length_dropWhile_le space key.rest)
  let key ← key.expect? .equals
  let front ← value? (key.rest.dropWhile space)
  return (front.map (key.value, ·)).within
    (Nat.le_trans (length_dropWhile_le space key.rest) (Nat.le_of_lt key.rest_lt))

/-- Reads a value, inside of which arrays and tables may be nested `depth` deep. -/
def value? : (depth : Nat) → (tokens : List Token) → Option (Front Token Value tokens)
  | _, .string _ text :: _ => some (.one (.string (String.ofList text)))
  | _, .word text :: rest => bare? text rest
  | depth + 1, .openBracket :: rest => do
    let front ← items? .closeBracket (value? depth) rest
    return (front.map (.array false)).behind
  | depth + 1, .openBrace :: rest => do
    let front ← items? .closeBrace (pair? isSpace (value? depth)) rest
    let entries ← Table.ofPairs? front.value
    return (front.map fun _ => .table .inline entries).behind
  | _, _ => none

/-! ## Statements -/

def spacedKey? (tokens : List Token) : Option (Front Token Key tokens) := do
  let front ← key? (tokens.dropWhile isBlank)
  return front.within (length_dropWhile_le isBlank tokens)

/-- Reads one statement, without the end of its line. -/
def front? : (tokens : List Token) → Option (Front Token Statement tokens)
  | .openBracket :: .openBracket :: tokens => do
    let key ← (← spacedKey? tokens).expect? .closeBracket
    let key ← key.expect? .closeBracket
    return (key.map .element).behind.behind
  | .openBracket :: tokens => do
    let key ← (← spacedKey? tokens).expect? .closeBracket
    return (key.map .header).behind
  | tokens => do
    let front ← pair? isBlank (value? nestingLimit) tokens
    return front.map fun (key, value) => .entry key value

/-- Reads one statement with the space in front of it and the end of its line. -/
def line? (tokens : List Token) : Option (Front Token Statement tokens) := do
  let front ← front? (tokens.dropWhile isSpace)
  match ended : lineEnd? front.rest with
  | none => none
  | some rest =>
    return (front.leaving rest (length_lineEnd?_le ended)).within
      (length_dropWhile_le isSpace tokens)

def ofTokens? (tokens : List Token) : Option (List Statement) :=
  if tokens.all isSpace then some []
  else
    match line? tokens with
    | none => none
    | some line => (ofTokens? line.rest).map (line.value :: ·)
termination_by tokens.length
decreasing_by exact line.rest_lt

end Statement

end BoardIdentity.Toml
