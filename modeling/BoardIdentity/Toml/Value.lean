import BoardIdentity.Decimal.Numeral

/-!
# Documents as trees

A document is a tree of tables, arrays and scalars, with exact numbers.  Whoever reads a
configuration is given a `Parser`, which turns texts into such trees.

A table may remember how it came to be and an array whether it may still grow, for parsers to whom
that decides what later lines of a document may add to them.
-/

namespace BoardIdentity.Toml

/-! ## Values -/

/-- How a table came to be: written between braces, and complete; opened by a header of its own;
named only in the header of a table below it; named only in front of a dot of a key. -/
inductive TableForm where
  | inline
  | header
  | implied
  | dotted
  deriving DecidableEq, Repr

/-- A node of a tree.  Infinity and what is not a number are floats without a numeral, and what
looks like a whole number but denotes none is unreadable. -/
inductive Value where
  | string (text : String)
  | integer (n : Int)
  | float (numeral : Option Numeral)
  | boolean (value : Bool)
  | dateTime (text : String)
  | unreadable (text : String)
  | array (growing : Bool) (items : List Value)
  | table (form : TableForm) (entries : List (String × Value))
  deriving Repr

/-- The keys of a table and their values. -/
abbrev Entries := List (String × Value)

/-- The top-level entries of a text, if it is a document. -/
abbrev Parser := String → Option Entries

end BoardIdentity.Toml
