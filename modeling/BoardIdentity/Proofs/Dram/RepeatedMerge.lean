import BoardIdentity.Proofs.Dram.ReferenceMerge

/-!
# Merging the same overrides twice

Which entries a pass hits depends on the registers alone, and registers never change.  What an
entry ends as is then the same wherever the pass starts from, unless the pass leaves it alone
(`Patch.run_congr`).  So a second pass over what the first one left repeats all its steps and
changes nothing (`Patch.run_again`), also where a register is repeated or the cursor ran off the
table.
-/

namespace BoardIdentity.Dram

namespace Patch

variable {patch other : Patch}

theorem length_congr
    (registers : other.table.map (·.register) = patch.table.map (·.register)) :
    other.table.length = patch.table.length := by
  simpa using congrArg List.length registers

/-- A search sees the registers and the cursor, and no values. -/
theorem find?_congr (cursor : other.cursor = patch.cursor)
    (registers : other.table.map (·.register) = patch.table.map (·.register))
    (register : UInt32) : other.find? register = patch.find? register := by
  have byRegisters : ∀ searched : Patch, searched.find? register =
      (((searched.table.map (·.register)).drop searched.cursor).findIdx? (· == register)).map
        (searched.cursor + ·) := by
    intro searched
    rw [find?, ← List.map_drop, List.findIdx?_map]
    rfl
  rw [byRegisters, byRegisters, cursor, registers]

/-- Whether an override hits an entry, and which, does not depend on the values either. -/
theorem apply_congr (cursor : other.cursor = patch.cursor)
    (registers : other.table.map (·.register) = patch.table.map (·.register))
    (override : Setting) :
    (other.apply override).1 = (patch.apply override).1 ∧
      (other.apply override).2.cursor = (patch.apply override).2.cursor := by
  rw [apply_eq, apply_eq, find?_congr cursor registers override.register, cursor,
    length_congr registers]
  cases patch.find? override.register with
  | none => exact ⟨rfl, rfl⟩
  | some hit => exact ⟨rfl, rfl⟩

/-- After an override, two tables agree where they did before, and at the entry that it hit. -/
theorem getElem?_apply_congr (cursor : other.cursor = patch.cursor)
    (registers : other.table.map (·.register) = patch.table.map (·.register))
    {override : Setting} {index : Nat}
    (agree : (patch.apply override).1 = some index ∨ other.table[index]? = patch.table[index]?) :
    (other.apply override).2.table[index]? = (patch.apply override).2.table[index]? := by
  rw [apply_eq] at agree
  rw [apply_eq, apply_eq, find?_congr cursor registers override.register]
  cases found : patch.find? override.register with
  | none =>
    rw [found] at agree
    exact agree.resolve_left nofun
  | some hit =>
    rw [found] at agree
    simp only [List.getElem?_set, length_congr registers]
    split
    case isTrue => rfl
    case isFalse elsewhere => exact agree.resolve_left fun here => elsewhere (Option.some.inj here)

/-- None of the steps overwrote the entry at an index. -/
def Spares (steps : List Step) (index : Nat) : Prop :=
  ∀ step ∈ steps, step.hit ≠ some index

/-- Where two patches differ only in entries that the pass overwrites, it is one pass. -/
theorem run_congr {overrides : List Setting} (cursor : other.cursor = patch.cursor)
    (registers : other.table.map (·.register) = patch.table.map (·.register))
    (spared : ∀ index, Spares (patch.run overrides).1 index →
      other.table[index]? = patch.table[index]?) :
    other.run overrides = patch.run overrides := by
  induction overrides generalizing patch other with
  | nil =>
    have table : other.table = patch.table :=
      List.ext_getElem? fun index => spared index nofun
    cases patch
    cases other
    cases table
    cases cursor
    rfl
  | cons override overrides ih =>
    obtain ⟨sameHit, sameCursor⟩ := apply_congr cursor registers override
    have registersNext : (other.apply override).2.table.map (·.register) =
        (patch.apply override).2.table.map (·.register) := by
      rw [map_register_apply, map_register_apply, registers]
    have later := ih sameCursor registersNext fun index spares => by
      refine getElem?_apply_congr cursor registers ?_
      by_cases hit : (patch.apply override).1 = some index
      · exact Or.inl hit
      · exact Or.inr (spared index (List.forall_mem_cons.mpr ⟨hit, spares⟩))
    simp only [run, sameHit, sameCursor, later]

/-- An entry that no step overwrote is as it was. -/
theorem getElem?_run_of_spares {overrides : List Setting} {index : Nat}
    (spares : Spares (patch.run overrides).1 index) :
    (patch.run overrides).2.table[index]? = patch.table[index]? := by
  induction overrides generalizing patch with
  | nil => rfl
  | cons override overrides ih =>
    have missed : (patch.apply override).1 ≠ some index := spares _ List.mem_cons_self
    have later : Spares ((patch.apply override).2.run overrides).1 index :=
      fun step member => spares step (List.mem_cons_of_mem _ member)
    refine (ih later).trans ?_
    rw [apply_eq] at missed ⊢
    split at missed
    case h_1 hit _ => exact List.getElem?_set_ne fun here => missed (congrArg some here)
    case h_2 => rfl

/-- A second pass over what the first one left takes the same steps and leaves the same. -/
theorem run_again (table overrides : List Setting) :
    Patch.run { table := (Patch.run { table } overrides).2.table } overrides =
      Patch.run { table } overrides :=
  run_congr rfl (map_register_run { table } overrides) fun _ spares =>
    getElem?_run_of_spares spares

end Patch

theorem Reference.merge_again (table overrides : List Setting) :
    (merge (merge table overrides).table overrides).table = (merge table overrides).table ∧
      (merge (merge table overrides).table overrides).matched =
        (merge table overrides).matched := by
  simp only [← table_run_eq_merge, ← hits_run_eq_merge, Patch.run_again, true_and]

end BoardIdentity.Dram
