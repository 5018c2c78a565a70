import BoardIdentity.Dram.Patch

/-!
# The reference merge

A pass over a table, said with as little cleverness as possible.  Every override is looked for from
the latest match on, and once an override finds nothing, the ones after it are not looked for.
`Patch` does without that flag: after a miss its cursor stands at the end, where nothing is found.

`Reference.Tracks` relates the two, `Tracks.step` keeps it over one override, and `Tracks.run` over
any number of them; `table_run_eq_merge` and `hits_run_eq_merge` are what a whole pass comes to.
-/

namespace BoardIdentity.Dram

/-- A table on which some overrides were merged. -/
structure Reference where
  table : List Setting
  /-- Where the latest match was; nothing, once an override found no entry. -/
  resume : Option Nat
  matched : Nat
  deriving DecidableEq, Repr

namespace Reference

/-- Merges one override: the first entry of its register from the latest match on gets its value. -/
def step (state : Reference) (override : Setting) : Reference :=
  match state.resume with
  | none => state
  | some start =>
    match (state.table.drop start).findIdx? (·.register == override.register) with
    | none => { state with resume := none }
    | some skipped =>
      { table := state.table.modify (start + skipped) ({ · with value := override.value })
        resume := some (start + skipped)
        matched := state.matched + 1 }

/-- Merges overrides in order, the first of them from the start of the table. -/
def merge (table overrides : List Setting) : Reference :=
  overrides.foldl step { table, resume := some 0, matched := 0 }

/-! ## The cursor against the flag -/

/-- A patch stands where the reference does: with one table, and with its cursor on the latest match
or, after a miss, behind all entries. -/
structure Tracks (patch : Patch) (state : Reference) : Prop where
  table : patch.table = state.table
  cursor : state.resume = some patch.cursor ∨
    state.resume = none ∧ patch.table.length ≤ patch.cursor

/-- Overwriting an entry of the override's own register changes only its value. -/
theorem set_eq_modify_value {table : List Setting} {index : Nat} {override : Setting}
    (inside : index < table.length) (same : table[index].register = override.register) :
    table.set index override = table.modify index ({ · with value := override.value }) := by
  refine List.ext_getElem (by simp) fun position before _ => ?_
  rw [List.getElem_set, List.getElem_modify]
  split
  case isTrue here =>
    subst here
    rw [same]
  case isFalse => rfl

/-- One override keeps the two together, and the reference counts it exactly if it hit an entry. -/
theorem Tracks.step {patch : Patch} {state : Reference} (tracks : Tracks patch state)
    (override : Setting) :
    Tracks (patch.apply override).2 (state.step override) ∧
      (state.step override).matched =
        state.matched + if (patch.apply override).1.isSome then 1 else 0 := by
  obtain ⟨table, resume, matched⟩ := state
  obtain ⟨rfl, cursor⟩ := tracks
  rcases cursor with here | ⟨missed, atEnd⟩
  · subst here
    cases found : patch.find? override.register with
    | none =>
      have searched : (patch.table.drop patch.cursor).findIdx?
          (·.register == override.register) = none := by
        simpa [Patch.find?] using found
      simp only [Patch.apply_of_find?_eq_none found, Reference.step, searched]
      exact ⟨⟨rfl, Or.inr ⟨rfl, Nat.le_max_right _ _⟩⟩, rfl⟩
    | some index =>
      obtain ⟨-, inside, same⟩ := Patch.find?_eq_some found
      obtain ⟨skipped, searched, rfl⟩ := Option.map_eq_some_iff.mp found
      simp only [Patch.apply_of_find?_eq_some found, Reference.step, searched]
      exact ⟨⟨set_eq_modify_value inside same, Or.inl rfl⟩, rfl⟩
  · subst missed
    have nothing := Patch.find?_of_length_le atEnd override.register
    simp only [Patch.apply_of_find?_eq_none nothing, Reference.step]
    exact ⟨⟨rfl, Or.inr ⟨rfl, Nat.le_max_right _ _⟩⟩, rfl⟩

/-- A pass keeps the two together, and the reference counts the overrides that hit an entry. -/
theorem Tracks.run {patch : Patch} {state : Reference} (tracks : Tracks patch state)
    (overrides : List Setting) :
    Tracks (patch.run overrides).2 (overrides.foldl Reference.step state) ∧
      (overrides.foldl Reference.step state).matched =
        state.matched + Patch.hits (patch.run overrides).1 := by
  induction overrides generalizing patch state with
  | nil => exact ⟨tracks, rfl⟩
  | cons override overrides ih =>
    obtain ⟨stepped, counted⟩ := tracks.step override
    obtain ⟨final, total⟩ := ih stepped
    refine ⟨final, ?_⟩
    rw [List.foldl_cons, total, counted]
    simp only [Patch.run, Patch.hits, List.countP_cons]
    omega

/-- A patch that has not begun stands at the start of the reference's table. -/
theorem Tracks.start (table : List Setting) :
    Tracks { table } { table, resume := some 0, matched := 0 } :=
  ⟨rfl, Or.inl rfl⟩

/-- A pass from the start of a table leaves the table that the reference leaves. -/
theorem table_run_eq_merge (table overrides : List Setting) :
    (Patch.run { table } overrides).2.table = (merge table overrides).table :=
  ((Tracks.start table).run overrides).1.table

/-- A pass from the start of a table hits an entry as often as the reference matches one. -/
theorem hits_run_eq_merge (table overrides : List Setting) :
    Patch.hits (Patch.run { table } overrides).1 = (merge table overrides).matched := by
  have counted := ((Tracks.start table).run overrides).2
  rw [Nat.zero_add] at counted
  exact counted.symm

end Reference

end BoardIdentity.Dram
