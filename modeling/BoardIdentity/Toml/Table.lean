import BoardIdentity.Toml.Value

/-!
# Building tables

Tables are filled line by line.  A key leads from a table to the one that its last part is an entry
of; the tables on the way are created where they are missing.  A table that is complete, or that was
opened in another manner, cannot be led through, and no entry is ever written twice.
-/

namespace BoardIdentity.Toml

/-! ## Keys -/

/-- A key: the parts in front of its last dot, and the last part. -/
structure Key where
  path : List String
  name : String
  deriving DecidableEq, Repr

def Key.ofParts (first : String) (others : List String) : Key where
  path := (first :: others).dropLast
  name := (first :: others).getLast (by simp)

namespace Table

/-! ## Entries -/

/-- The entries with the value of a key replaced, or the key added behind the others. -/
def set (name : String) (value : Value) : Entries → Entries
  | [] => [(name, value)]
  | (other, old) :: entries =>
    if other = name then (name, value) :: entries else (other, old) :: set name value entries

/-- The entries with one more key, which must be new. -/
def add? (name : String) (value : Value) (entries : Entries) : Option Entries :=
  if (entries.lookup name).isSome then none else some (entries ++ [(name, value)])

/-! ## Following a path -/

/-- Whether a path may lead through a table, depending on how the path is written: the path of a
dotted key (`dotted`), or that of a header (`implied`).  A dotted key may only pass tables that no
header has opened; a header may pass all but complete ones. -/
def mayPass (written form : TableForm) : Bool :=
  match written with
  | .dotted => form = .implied || form = .dotted
  | _ => form ≠ .inline

/-- Changes the table at the end of a path.  Missing tables on the way take their form from the way
the path is written.  In an array that may still grow, the path leads into the last table. -/
def change? (written : TableForm) (action : TableForm → Entries → Option Entries) :
    (path : List String) → TableForm → Entries → Option Entries
  | [], form, entries => action form entries
  | name :: path, _, entries =>
    match entries.lookup name with
    | none => do
      let inner ← change? written action path written []
      return set name (.table written inner) entries
    | some (.table form inner) => do
      guard (mayPass written form)
      let inner ← change? written action path form inner
      return set name (.table form inner) entries
    | some (.array true items) =>
      match items.getLast? with
      | some (.table form inner) => do
        let inner ← change? written action path form inner
        return set name (.array true (items.dropLast ++ [.table form inner])) entries
      | _ => none
    | some _ => none

/-! ## Entries, headers and elements -/

/-- Writes an entry.  A dotted key may not add to a table that was created otherwise. -/
def insert? (key : Key) (value : Value) (form : TableForm) (entries : Entries) :
    Option Entries :=
  let write (form : TableForm) (entries : Entries) : Option Entries := do
    guard (key.path = [] ∨ form = .dotted)
    add? key.name value entries
  change? .dotted write key.path form entries

/-- Opens the table of a header, which must be new or named only by headers of tables below it. -/
def openTable? (key : Key) (entries : Entries) : Option Entries :=
  let write (_ : TableForm) (entries : Entries) : Option Entries :=
    match entries.lookup key.name with
    | some (.table .implied inner) => some (set key.name (.table .header inner) entries)
    | _ => add? key.name (.table .header []) entries
  change? .implied write key.path .header entries

/-- Opens one more element of an array of tables. -/
def openElement? (key : Key) (entries : Entries) : Option Entries :=
  let write (_ : TableForm) (entries : Entries) : Option Entries :=
    match entries.lookup key.name with
    | some (.array true items) =>
      some (set key.name (.array true (items ++ [.table .header []])) entries)
    | _ => add? key.name (.array true [.table .header []]) entries
  change? .implied write key.path .header entries

/-- Writes an entry into the table that a header opened last. -/
def addBelow? (header : List String) (key : Key) (value : Value) (entries : Entries) :
    Option Entries :=
  change? .implied (insert? key value) header .header entries

/-- The entries of a table written between braces. -/
def ofPairs? (pairs : List (Key × Value)) : Option Entries :=
  pairs.foldlM (fun entries (key, value) => insert? key value .inline entries) []

end Table

end BoardIdentity.Toml
