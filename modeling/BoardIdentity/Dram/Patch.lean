import BoardIdentity.Dram.Timing

/-!
# Patching a table

A table and its overrides are both kept in register order, so one forward pass is enough.  The
cursor marks the latest entry that was overwritten, and a search never looks at anything before it.
An override that finds nothing from there on leaves no entry to search, so that all overrides after
it are dropped as well.

A step of the pass is `Patch.apply`; `Patch.run` is the whole pass.  `Patch.apply_eq` says what the
loop of a step comes to, in terms of the search `Patch.find?`.
-/

namespace BoardIdentity.Dram

/-- A table that is being patched, and the position from which the next search starts. -/
structure Patch where
  table : List Setting
  cursor : Nat := 0
  deriving DecidableEq, Repr

namespace Patch

/-- Goes through the entries that are ahead of the cursor, which moves along, until one has the
override's register.  That one gets the override's value. -/
def applyFrom (patch : Patch) (override : Setting) : (ahead : List Setting) → Option Nat × Patch
  | [] => (none, patch)
  | entry :: ahead =>
    if entry.register = override.register then
      (some patch.cursor, { patch with
        table := patch.table.set patch.cursor { entry with value := override.value } })
    else applyFrom { patch with cursor := patch.cursor + 1 } override ahead

/-- Overwrites the entry that the override's register finds and leaves the cursor on it, so that a
repeated register finds the same entry.  If it finds none, the cursor moves to the table's end. -/
def apply (patch : Patch) (override : Setting) : Option Nat × Patch :=
  patch.applyFrom override (patch.table.drop patch.cursor)

/-- What one override did: the entry that it overwrote, if any, and where the cursor is now. -/
structure Step where
  hit : Option Nat
  cursor : Nat
  deriving DecidableEq, Repr

/-- Applies overrides in order. -/
def run (patch : Patch) : List Setting → List Step × Patch
  | [] => ([], patch)
  | override :: overrides =>
    let (hit, next) := patch.apply override
    let (steps, final) := next.run overrides
    ({ hit, cursor := next.cursor } :: steps, final)

/-- How many of the overrides found an entry. -/
def hits (steps : List Step) : Nat :=
  steps.countP (·.hit.isSome)

/-! ## The search of a step -/

/-- The position of the first entry with the register that the cursor has not passed. -/
def find? (patch : Patch) (register : UInt32) : Option Nat :=
  ((patch.table.drop patch.cursor).findIdx? (·.register == register)).map (patch.cursor + ·)

/-- An override finds an entry of its own register that the cursor has not passed. -/
theorem find?_eq_some {patch : Patch} {register : UInt32} {index : Nat}
    (found : patch.find? register = some index) :
    patch.cursor ≤ index ∧ ∃ inside : index < patch.table.length,
      patch.table[index].register = register := by
  obtain ⟨skipped, searched, rfl⟩ := Option.map_eq_some_iff.mp found
  obtain ⟨inside, matching, -⟩ := List.findIdx?_eq_some_iff_getElem.mp searched
  rw [List.length_drop] at inside
  refine ⟨Nat.le_add_right _ _, by omega, ?_⟩
  simpa using matching

/-- With the cursor at the end of the table nothing is found. -/
theorem find?_of_length_le {patch : Patch} (atEnd : patch.table.length ≤ patch.cursor)
    (register : UInt32) : patch.find? register = none := by
  rw [find?, List.drop_eq_nil_of_le atEnd]
  rfl

/-- A search looks at the entry below the cursor, and from the next one on if that one differs. -/
theorem find?_eq_ite {patch : Patch} (inside : patch.cursor < patch.table.length)
    (register : UInt32) :
    patch.find? register =
      if patch.table[patch.cursor].register = register then some patch.cursor
      else find? { patch with cursor := patch.cursor + 1 } register := by
  rw [find?, List.drop_eq_getElem_cons inside, List.findIdx?_cons]
  split
  case isTrue same => rw [if_pos (beq_iff_eq.mp same), Option.map_some, Nat.add_zero]
  case isFalse other =>
    rw [if_neg fun same => other (beq_iff_eq.mpr same), find?, Option.map_map]
    congr 1
    funext skipped
    simp only [Function.comp_apply]
    omega

/-- The loop writes the override over the entry that the search finds.  Where it finds none, the
cursor has moved through all that was left. -/
theorem apply_eq (patch : Patch) (override : Setting) :
    patch.apply override =
      match patch.find? override.register with
      | some index => (some index, { table := patch.table.set index override, cursor := index })
      | none => (none, { patch with cursor := max patch.cursor patch.table.length }) := by
  unfold apply
  -- By induction on what is ahead of the cursor; each entry that differs moves the cursor by one.
  generalize left : patch.table.drop patch.cursor = ahead
  induction ahead generalizing patch with
  | nil =>
    have atEnd := List.drop_eq_nil_iff.mp left
    rw [find?_of_length_le atEnd, Nat.max_eq_left atEnd, applyFrom]
  | cons entry ahead ih =>
    have inside : patch.cursor < patch.table.length := by
      have longer := congrArg List.length left
      rw [List.length_drop, List.length_cons] at longer
      omega
    rw [List.drop_eq_getElem_cons inside] at left
    obtain ⟨rfl, remaining⟩ := List.cons_eq_cons.mp left
    rw [applyFrom, find?_eq_ite inside]
    split
    case isTrue same => rw [same]
    case isFalse =>
      rw [ih { patch with cursor := patch.cursor + 1 } remaining, Nat.max_eq_right inside,
        Nat.max_eq_right (Nat.le_of_lt inside)]

theorem apply_of_find?_eq_some {patch : Patch} {override : Setting} {index : Nat}
    (found : patch.find? override.register = some index) :
    patch.apply override =
      (some index, { table := patch.table.set index override, cursor := index }) := by
  rw [apply_eq, found]

theorem apply_of_find?_eq_none {patch : Patch} {override : Setting}
    (missed : patch.find? override.register = none) :
    patch.apply override =
      (none, { patch with cursor := max patch.cursor patch.table.length }) := by
  rw [apply_eq, missed]

/-! ## Registers -/

/-- Writing over an entry of the override's own register keeps the registers of the table. -/
theorem map_register_set {table : List Setting} {index : Nat} {override : Setting}
    (inside : index < table.length) (same : table[index].register = override.register) :
    (table.set index override).map (·.register) = table.map (·.register) := by
  rw [List.map_set, ← same]
  refine List.ext_getElem (by simp) fun position _ _ => ?_
  rw [List.getElem_set]
  split <;> simp_all

/-- An override keeps the registers of the table, and so its length. -/
theorem map_register_apply (patch : Patch) (override : Setting) :
    (patch.apply override).2.table.map (·.register) = patch.table.map (·.register) := by
  cases found : patch.find? override.register with
  | some index =>
    obtain ⟨-, inside, same⟩ := find?_eq_some found
    rw [apply_of_find?_eq_some found]
    exact map_register_set inside same
  | none => rw [apply_of_find?_eq_none found]

/-- A whole pass keeps the registers of the table. -/
theorem map_register_run (patch : Patch) (overrides : List Setting) :
    (patch.run overrides).2.table.map (·.register) = patch.table.map (·.register) := by
  induction overrides generalizing patch with
  | nil => rfl
  | cons override overrides ih =>
    exact (ih (patch.apply override).2).trans (map_register_apply patch override)

/-- A pass tells of every override what it did. -/
@[simp]
theorem length_run (patch : Patch) (overrides : List Setting) :
    (patch.run overrides).1.length = overrides.length := by
  induction overrides generalizing patch with
  | nil => rfl
  | cons override overrides ih => exact congrArg (· + 1) (ih (patch.apply override).2)

end Patch

end BoardIdentity.Dram
