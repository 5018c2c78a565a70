import BoardIdentity.Proofs.Dram.RepeatedMerge

/-!
# A pass, one override at a time

A search finds the first entry of a register from the cursor on (`FirstFrom`).  So an override
either hits that entry and the cursor stands on it, or there is none and the cursor stands at the
end of the table; `Patch.Moves` has one case for each.  The cursor never turns back, and behind a
miss nothing is hit any more.

`Patch.run_by_steps` puts that together with what a whole pass comes to: the table and the count of
the reference merge, and in every entry the override that hit it last.
-/

namespace BoardIdentity.Dram

/-! ## First entries -/

/-- The entry at an index has the register. -/
def Holds (table : List Setting) (register : UInt32) (index : Nat) : Prop :=
  (table[index]?).map (·.register) = some register

/-- `index` is the first entry with the register at `start` or behind it. -/
structure FirstFrom (table : List Setting) (start : Nat) (register : UInt32) (index : Nat) :
    Prop where
  reached : start ≤ index
  held : Holds table register index
  earlier : ∀ before, start ≤ before → before < index → ¬ Holds table register before

variable {table other : List Setting} {start : Nat} {register : UInt32} {index : Nat}

theorem Holds.exists_getElem (held : Holds table register index) :
    ∃ inside : index < table.length, table[index].register = register := by
  obtain ⟨entry, stored, same⟩ := Option.map_eq_some_iff.mp held
  obtain ⟨inside, here⟩ := List.getElem?_eq_some_iff.mp stored
  exact ⟨inside, here ▸ same⟩

theorem holds_of_getElem (inside : index < table.length)
    (same : table[index].register = register) : Holds table register index := by
  rw [Holds, List.getElem?_eq_getElem inside, Option.map_some, same]

/-- Which registers a table holds does not depend on its values. -/
theorem Holds.congr (registers : other.map (·.register) = table.map (·.register)) :
    Holds other register index ↔ Holds table register index := by
  rw [Holds, Holds, ← List.getElem?_map, ← List.getElem?_map, registers]

theorem FirstFrom.congr (registers : other.map (·.register) = table.map (·.register)) :
    FirstFrom other start register index ↔ FirstFrom table start register index := by
  constructor
  · rintro ⟨reached, held, earlier⟩
    exact ⟨reached, (Holds.congr registers).mp held, fun before late early held =>
      earlier before late early ((Holds.congr registers).mpr held)⟩
  · rintro ⟨reached, held, earlier⟩
    exact ⟨reached, (Holds.congr registers).mpr held, fun before late early held =>
      earlier before late early ((Holds.congr registers).mp held)⟩

/-- There is one first entry at most. -/
theorem FirstFrom.unique {first second : Nat} (one : FirstFrom table start register first)
    (two : FirstFrom table start register second) : first = second := by
  rcases Nat.lt_trichotomy first second with before | same | behind
  · exact absurd one.held (two.earlier first one.reached before)
  · exact same
  · exact absurd two.held (one.earlier second two.reached behind)

namespace Patch

variable {patch : Patch}

/-! ## Searches -/

/-- A search that finds nothing has no entry of the register before it. -/
theorem find?_eq_none_iff :
    patch.find? register = none ↔
      ∀ index, patch.cursor ≤ index → ¬ Holds patch.table register index := by
  rw [find?, Option.map_eq_none_iff, List.findIdx?_eq_none_iff]
  constructor
  · intro unlike index late held
    obtain ⟨inside, same⟩ := held.exists_getElem
    have left : patch.table[index] ∈ patch.table.drop patch.cursor :=
      List.mem_drop_iff_getElem.mpr ⟨index - patch.cursor, by omega, by simp [late]⟩
    simpa [same] using unlike _ left
  · intro nowhere entry left
    obtain ⟨skipped, inside, rfl⟩ := List.mem_drop_iff_getElem.mp left
    refine beq_eq_false_iff_ne.mpr fun same => ?_
    exact nowhere (patch.cursor + skipped) (Nat.le_add_right _ _) (holds_of_getElem (by omega) same)

/-- A search finds the first entry of the register that the cursor has not passed. -/
theorem find?_eq_some_iff :
    patch.find? register = some index ↔
      FirstFrom patch.table patch.cursor register index := by
  have firstOfFound : ∀ index, patch.find? register = some index →
      FirstFrom patch.table patch.cursor register index := by
    intro index found
    obtain ⟨reached, inside, same⟩ := find?_eq_some found
    refine ⟨reached, holds_of_getElem inside same, fun before late early held => ?_⟩
    obtain ⟨skipped, searched, rfl⟩ := Option.map_eq_some_iff.mp found
    obtain ⟨_, _, unlike⟩ := List.findIdx?_eq_some_iff_getElem.mp searched
    obtain ⟨within, sameRegister⟩ := held.exists_getElem
    have differs := unlike (before - patch.cursor) (by omega)
    simp [late, sameRegister] at differs
  refine ⟨firstOfFound index, fun first => ?_⟩
  cases found : patch.find? register with
  | none => exact absurd first.held (find?_eq_none_iff.mp found index first.reached)
  | some hit => rw [(firstOfFound hit found).unique first]

/-! ## One override -/

/-- What an override does to a patch: it is written over the first entry of its register that the
cursor has not passed, or the cursor moves to the end of the table for want of one. -/
inductive Moves (patch : Patch) (override : Setting) : Option Nat → Patch → Prop
  | hit {index : Nat} (first : FirstFrom patch.table patch.cursor override.register index) :
    Moves patch override (some index)
      { table := patch.table.set index override, cursor := index }
  | miss (nowhere : ∀ index, patch.cursor ≤ index → ¬ Holds patch.table override.register index) :
    Moves patch override none { patch with cursor := max patch.cursor patch.table.length }

theorem moves_apply (patch : Patch) (override : Setting) :
    Moves patch override (patch.apply override).1 (patch.apply override).2 := by
  rw [apply_eq]
  split
  case h_1 index found => exact .hit (find?_eq_some_iff.mp found)
  case h_2 missed => exact .miss (find?_eq_none_iff.mp missed)

variable {override : Setting}

/-- Where an override hits, the cursor stands on the first entry of its register. -/
theorem apply_of_hit (hit : (patch.apply override).1 = some index) :
    (patch.apply override).2.cursor = index ∧
      FirstFrom patch.table patch.cursor override.register index := by
  have moves := moves_apply patch override
  rw [hit] at moves
  generalize (patch.apply override).2 = next at moves ⊢
  cases moves with
  | hit first => exact ⟨rfl, first⟩

/-- Where an override misses, the cursor stands at the end, for want of an entry. -/
theorem apply_of_miss (missed : (patch.apply override).1 = none) :
    (patch.apply override).2 = { patch with cursor := max patch.cursor patch.table.length } ∧
      ∀ index, patch.cursor ≤ index → ¬ Holds patch.table override.register index := by
  have moves := moves_apply patch override
  rw [missed] at moves
  generalize (patch.apply override).2 = next at moves ⊢
  cases moves with
  | miss nowhere => exact ⟨rfl, nowhere⟩

/-- The cursor never turns back and never leaves the table. -/
theorem cursor_apply (inside : patch.cursor ≤ patch.table.length) (override : Setting) :
    patch.cursor ≤ (patch.apply override).2.cursor ∧
      (patch.apply override).2.cursor ≤ patch.table.length := by
  cases applied : (patch.apply override).1 with
  | some index =>
    obtain ⟨here, first⟩ := apply_of_hit applied
    obtain ⟨within, -⟩ := first.held.exists_getElem
    exact ⟨here ▸ first.reached, here ▸ Nat.le_of_lt within⟩
  | none =>
    rw [(apply_of_miss applied).1]
    exact ⟨Nat.le_max_left _ _, Nat.max_le.mpr ⟨inside, Nat.le_refl _⟩⟩

/-! ## A run of overrides -/

theorem run_append (patch : Patch) (first later : List Setting) :
    patch.run (first ++ later) =
      ((patch.run first).1 ++ ((patch.run first).2.run later).1,
        ((patch.run first).2.run later).2) := by
  induction first generalizing patch with
  | nil => rfl
  | cons override first ih => simp only [List.cons_append, run, ih]

/-- A run keeps the cursor in the table. -/
theorem cursor_run_le (inside : patch.cursor ≤ patch.table.length) (overrides : List Setting) :
    (patch.run overrides).2.cursor ≤ patch.table.length := by
  induction overrides generalizing patch with
  | nil => exact inside
  | cons override overrides ih =>
    have registers := map_register_apply patch override
    have within := (cursor_apply inside override).2
    rw [← length_congr registers] at within ⊢
    exact ih within

/-- With the cursor at the end of the table nothing is hit and nothing changes. -/
theorem run_of_length_le (atEnd : patch.table.length ≤ patch.cursor)
    (overrides : List Setting) :
    patch.run overrides = (overrides.map fun _ => ⟨none, patch.cursor⟩, patch) := by
  induction overrides with
  | nil => rfl
  | cons override overrides ih =>
    have missed : patch.apply override = (none, patch) := by
      rw [apply_of_find?_eq_none (find?_of_length_le atEnd _), Nat.max_eq_left atEnd]
    simp only [run, missed, ih, List.map_cons]

/-- An entry that no later override hits stays as the override at hand left it. -/
theorem getElem?_run_of_hit {later : List Setting}
    (hit : (patch.apply override).1 = some index)
    (spares : Spares ((patch.apply override).2.run later).1 index) :
    ((patch.apply override).2.run later).2.table[index]? = some override := by
  rw [getElem?_run_of_spares spares]
  have moves := moves_apply patch override
  rw [hit] at moves
  generalize (patch.apply override).2 = next at moves ⊢
  cases moves with
  | hit first =>
    obtain ⟨inside, -⟩ := first.held.exists_getElem
    exact List.getElem?_set_self inside

/-- **A pass, one override at a time.**  A pass from the start of a table leaves the table of the
reference merge, hits as many entries as that matches, keeps all registers, and leaves entries as
they are that no override hits.  Each of its overrides moves the cursor forward or leaves it, and
within the table.  If it hits an entry, that is where the cursor is now and the first of the
override's register from where it was; and there the override stays, unless a later one hits the
entry again.  If it hits none, there is no such entry, the cursor stands at the end of the table,
and no later override hits anything. -/
theorem run_by_steps (table : List Setting) :
    (∀ overrides,
      let pass := Patch.run { table } overrides
      pass.2.table = (Reference.merge table overrides).table ∧
        hits pass.1 = (Reference.merge table overrides).matched ∧
        pass.2.table.map (·.register) = table.map (·.register) ∧
        ∀ index, Spares pass.1 index → pass.2.table[index]? = table[index]?) ∧
    ∀ first override later,
      let before := (Patch.run { table } first).2
      let hit := (before.apply override).1
      let after := (before.apply override).2
      let pass := Patch.run { table } (first ++ override :: later)
      pass.1[first.length]? = some { hit, cursor := after.cursor } ∧
      (before.cursor ≤ after.cursor ∧ after.cursor ≤ table.length) ∧
      (∀ index, hit = some index →
        after.cursor = index ∧ FirstFrom table before.cursor override.register index ∧
          (Spares (after.run later).1 index → pass.2.table[index]? = some override)) ∧
      (hit = none →
        after.cursor = table.length ∧
          (∀ index, before.cursor ≤ index → ¬ Holds table override.register index) ∧
          ∀ step ∈ (after.run later).1, step.hit = none) := by
  refine ⟨fun overrides => ⟨Reference.table_run_eq_merge table overrides,
    Reference.hits_run_eq_merge table overrides, map_register_run { table } overrides,
    fun _ => getElem?_run_of_spares⟩, ?_⟩
  intro first override later before hit after pass
  have registers : before.table.map (·.register) = table.map (·.register) :=
    map_register_run { table } first
  have length : before.table.length = table.length := by
    simpa using congrArg List.length registers
  have whole : pass = ((Patch.run { table } first).1 ++ ({ hit, cursor := after.cursor } ::
      (after.run later).1), (after.run later).2) :=
    run_append { table } first (override :: later)
  have within : before.cursor ≤ before.table.length := by
    rw [length]
    exact cursor_run_le (Nat.zero_le _) first
  refine ⟨?_, length ▸ cursor_apply within override, fun index hitIndex => ?_, fun missed => ?_⟩
  · rw [whole, List.getElem?_append_right (Nat.le_of_eq (length_run _ _)), length_run, Nat.sub_self]
    rfl
  · obtain ⟨here, reached⟩ := apply_of_hit hitIndex
    refine ⟨here, (FirstFrom.congr registers).mp reached, fun spares => ?_⟩
    rw [whole]
    exact getElem?_run_of_hit hitIndex spares
  · obtain ⟨stopped, nowhere⟩ := apply_of_miss missed
    rw [Nat.max_eq_right within] at stopped
    have atEnd : after.table.length = after.cursor := by rw [show after = _ from stopped]
    refine ⟨?_, fun index late held => ?_, fun step member => ?_⟩
    · rw [show after = _ from stopped, length]
    · exact nowhere index late ((Holds.congr registers).mpr held)
    · rw [run_of_length_le (Nat.le_of_eq atEnd)] at member
      obtain ⟨_, -, rfl⟩ := List.mem_map.mp member
      rfl

end Patch

end BoardIdentity.Dram
