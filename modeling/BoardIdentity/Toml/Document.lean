import BoardIdentity.Toml.Statement

/-!
# A parser of documents

A document is the table that its statements fill (`document?`).  The entries that follow a header
belong to the table that it opens.

Numbers are exact until they are handed out, in one of the widths that readers know.  `tree?` is the
parser for a reader who decodes what is under one key by itself and leaves all the rest alone: there
every number has to fit, and what looks like a whole number has to be one.
-/

namespace BoardIdentity.Toml

/-- A document that is being filled, with the path of the table that is open. -/
structure Draft where
  entries : Entries := []
  header : List String := []

def Draft.add? (draft : Draft) : Statement → Option Draft
  | .entry key value => do
    return { draft with entries := ← Table.addBelow? draft.header key value draft.entries }
  | .header key => do
    return { entries := ← Table.openTable? key draft.entries, header := key.path ++ [key.name] }
  | .element key => do
    return { entries := ← Table.openElement? key draft.entries, header := key.path ++ [key.name] }

/-- The top-level entries of a document.  A byte order mark in front is left out. -/
def document? (text : String) : Option Entries := do
  let chars := match text.toList with
    | '\ufeff' :: chars => chars
    | chars => chars
  let statements ← Statement.ofTokens? (← Token.scan? chars)
  let draft ← statements.foldlM Draft.add? {}
  return draft.entries

/-! ## Widths -/

/-- The first number beyond the widest signed numbers that readers know, which have 128 bits. -/
def signedBound : Int := Int.ofNat (1 <<< 127)

/-- Whether a signed or an unsigned number of 128 bits can hold the integer. -/
def integerFits (n : Int) : Bool :=
  -signedBound ≤ n && n < 2 * signedBound

/-- Whether a number stays finite when it is rounded to a double. -/
def floatFits (numeral : Option Numeral) : Bool :=
  numeral.all (·.magnitudeBits < Binary64.infinityBits)

mutual

/-- Whether every number in the value can be handed out. -/
def Value.isRepresentable : Value → Bool
  | .integer n => integerFits n
  | .float numeral => floatFits numeral
  | .unreadable _ => false
  | .array _ items => areRepresentable items
  | .table _ entries => entriesAreRepresentable entries
  | _ => true

def areRepresentable : List Value → Bool
  | [] => true
  | item :: items => item.isRepresentable && areRepresentable items

def entriesAreRepresentable : List (String × Value) → Bool
  | [] => true
  | (_, value) :: entries => value.isRepresentable && entriesAreRepresentable entries

end

/-- The tree of a text for a reader of one key. -/
def tree? (key : String) : Parser := fun text =>
  (document? text).filter fun entries => entriesAreRepresentable (entries.filter (·.1 != key))

end BoardIdentity.Toml
