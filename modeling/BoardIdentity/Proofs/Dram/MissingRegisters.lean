import BoardIdentity.Proofs.Dram.PassSteps
import BoardIdentity.Proofs.Dram.SortedMerge

/-!
# Sorted overrides of which a table lacks some

In a sorted table a pass with sorted overrides needs no cursor: as long as the table has their
registers, each override is written where a search from the start of the table finds it
(`overwriteFirst`).  The first override whose register the table lacks ends the pass.
`Patch.run_of_inOrder` says so of any sorted table, repeated registers included.

What carries it is `Patch.Behind`, up to the first missing register; from there on the cursor stands
at the end of the table, sorted or not (`Patch.length_le_cursor_run_of_absent`).
-/

namespace BoardIdentity.Dram

/-- Gives the value of an override to the first entry of its register, looked for from the start of
the table.  A table without the register stays as it is. -/
def overwriteFirst (table : List Setting) (override : Setting) : List Setting :=
  match table.findIdx? (·.register == override.register) with
  | some index => table.modify index ({ · with value := override.value })
  | none => table

variable {table : List Setting} {register : UInt32}

theorem isSome_findIdx?_iff :
    (table.findIdx? (·.register == register)).isSome ↔ register ∈ table.map (·.register) := by
  rw [List.findIdx?_isSome, List.any_eq_true, List.mem_map]
  simp only [beq_iff_eq]

namespace Patch

/-- A pass that has not begun searches from the start of the table. -/
theorem find?_start (table : List Setting) (register : UInt32) :
    find? { table } register = table.findIdx? (·.register == register) :=
  find?_eq_findIdx? fun _ passed => by simp at passed

variable {patch : Patch} {override : Setting} {overrides first later : List Setting}

/-! ## Registers that the table has -/

/-- An override that lies above all that the cursor has passed is written as a search from the start
would have it. -/
theorem apply_of_behind (behind : patch.Behind (override :: overrides)) :
    (patch.apply override).1 = patch.table.findIdx? (·.register == override.register) ∧
      (patch.apply override).2.table = overwriteFirst patch.table override := by
  have whole : patch.find? override.register =
      patch.table.findIdx? (·.register == override.register) :=
    find?_eq_findIdx? fun entry passed =>
      UInt32.ne_of_lt (behind entry passed override List.mem_cons_self)
  rw [apply_eq, overwriteFirst, ← whole]
  cases found : patch.find? override.register with
  | none => exact ⟨rfl, rfl⟩
  | some index =>
    obtain ⟨-, inside, same⟩ := find?_eq_some found
    exact ⟨rfl, Reference.set_eq_modify_value inside same⟩

theorem Behind.apply (sorted : InOrder patch.table) (inOrder : InOrder (override :: overrides))
    (behind : patch.Behind (override :: overrides))
    (present : override.register ∈ patch.table.map (·.register)) :
    (patch.apply override).2.Behind overrides := by
  obtain ⟨first, inside, same, isFirst, applied⟩ := exists_first_of_mem behind present
  rw [applied]
  exact Behind.step sorted inOrder inside same isFirst

/-- Overriding keeps a table in order. -/
theorem inOrder_apply (sorted : InOrder patch.table) (override : Setting) :
    InOrder (patch.apply override).2.table := by
  rw [inOrder_iff] at sorted ⊢
  rwa [map_register_apply]

/-- While the table has their registers, overrides leave the cursor behind all that are to come. -/
theorem behind_run (sorted : InOrder patch.table) (inOrder : InOrder (first ++ later))
    (behind : patch.Behind (first ++ later))
    (present : ∀ override ∈ first, override.register ∈ patch.table.map (·.register)) :
    (patch.run first).2.Behind later := by
  induction first generalizing patch with
  | nil => exact behind
  | cons override first ih =>
    obtain ⟨here, others⟩ := List.forall_mem_cons.mp present
    rw [← map_register_apply patch override] at others
    exact ih (inOrder_apply sorted override) (List.pairwise_cons.mp inOrder).2
      (behind.apply sorted inOrder here) others

/-! ## Registers that the table lacks -/

/-- Only registers of the table are hit. -/
theorem mem_of_hit {index : Nat} (hit : (patch.apply override).1 = some index) :
    override.register ∈ patch.table.map (·.register) := by
  obtain ⟨inside, same⟩ := (apply_of_hit hit).2.held.exists_getElem
  exact List.mem_map.mpr ⟨_, List.getElem_mem inside, same⟩

theorem apply_of_absent (absent : override.register ∉ patch.table.map (·.register)) :
    patch.apply override =
      (none, { patch with cursor := max patch.cursor patch.table.length }) := by
  cases hit : (patch.apply override).1 with
  | some index => exact absurd (mem_of_hit hit) absent
  | none => exact Prod.ext hit (apply_of_miss hit).1

/-- An override whose register the table lacks ends the pass. -/
theorem run_of_absent (absent : override.register ∉ patch.table.map (·.register))
    (overrides : List Setting) :
    (patch.run (override :: overrides)).2 =
      { patch with cursor := max patch.cursor patch.table.length } := by
  have ended : (patch.run (override :: overrides)).2 =
      ((patch.apply override).2.run overrides).2 := rfl
  rw [ended, apply_of_absent absent, run_of_length_le (Nat.le_max_right _ _)]

/-- Behind such an override the cursor stands at the end. -/
theorem length_le_cursor_run_of_absent
    (absent : ∃ override ∈ overrides, override.register ∉ patch.table.map (·.register)) :
    (patch.run overrides).2.table.length ≤ (patch.run overrides).2.cursor := by
  induction overrides generalizing patch with
  | nil => obtain ⟨_, member, -⟩ := absent; cases member
  | cons override overrides ih =>
    by_cases present : override.register ∈ patch.table.map (·.register)
    · obtain ⟨missing, member, lacks⟩ := absent
      have later : missing ∈ overrides := by
        rcases List.mem_cons.mp member with rfl | later
        · exact absurd present lacks
        · exact later
      rw [← map_register_apply patch override] at lacks
      exact ih ⟨missing, later, lacks⟩
    · rw [run_of_absent present]
      exact Nat.le_max_right _ _

/-! ## A whole pass -/

/-- What is written is what the overrides before the first missing register ask for. -/
theorem table_run_of_behind (sorted : InOrder patch.table) (inOrder : InOrder overrides)
    (behind : patch.Behind overrides) :
    (patch.run overrides).2.table =
      (overrides.takeWhile fun override =>
        override.register ∈ patch.table.map (·.register)).foldl overwriteFirst patch.table := by
  induction overrides generalizing patch with
  | nil => rfl
  | cons override overrides ih =>
    by_cases present : override.register ∈ patch.table.map (·.register)
    · have later := ih (inOrder_apply sorted override) (List.pairwise_cons.mp inOrder).2
        (behind.apply sorted inOrder present)
      rw [map_register_apply, (apply_of_behind behind).2] at later
      rw [List.takeWhile_cons_of_pos (by simpa using present), List.foldl_cons, ← later]
      rfl
    · rw [run_of_absent present, List.takeWhile_cons_of_neg (by simpa using present),
        List.foldl_nil]

theorem behind_start (table overrides : List Setting) : Behind { table } overrides :=
  fun _ passed => by simp at passed

/-- **A pass over a sorted table with sorted overrides.**  An override hits an entry exactly if the
table has its register and those of all overrides before it, and then it hits the first entry of its
register.  The table that is left is that of searching from the start for each of the overrides
before the first one whose register is missing; that one and those behind it change nothing. -/
theorem run_of_inOrder {table overrides : List Setting} (sorted : InOrder table)
    (inOrder : InOrder overrides) :
    (∀ first override later, overrides = first ++ override :: later →
      let hit := ((Patch.run { table } first).2.apply override).1
      (hit.isSome ↔
          ∀ needed ∈ first ++ [override], needed.register ∈ table.map (·.register)) ∧
        ∀ index, hit = some index → FirstFrom table 0 override.register index) ∧
    (Patch.run { table } overrides).2.table =
      (overrides.takeWhile fun override => override.register ∈ table.map (·.register)).foldl
        overwriteFirst table := by
  refine ⟨?_, table_run_of_behind sorted inOrder (behind_start table overrides)⟩
  rintro first override later rfl hit
  rw [List.forall_mem_append, List.forall_mem_singleton]
  let before := (Patch.run { table } first).2
  by_cases present : ∀ needed ∈ first, needed.register ∈ table.map (·.register)
  · have behind := behind_run sorted inOrder (behind_start table _) present
    have registers : before.table.map (·.register) = table.map (·.register) :=
      map_register_run { table } first
    have sameSearch : find? { table := before.table } override.register =
        find? { table } override.register := by
      refine find?_congr ?_ registers _
      rfl
    have searched : hit = find? { table } override.register := by
      rw [← sameSearch, find?_start]
      exact (apply_of_behind behind).1
    refine ⟨?_, fun index found => find?_eq_some_iff.mp (searched ▸ found)⟩
    rw [searched, find?_start, isSome_findIdx?_iff]
    exact ⟨fun here => ⟨present, here⟩, And.right⟩
  · have absent : ∃ missing ∈ first, missing.register ∉ table.map (·.register) := by
      simpa using present
    have atEnd : before.table.length ≤ before.cursor := length_le_cursor_run_of_absent absent
    have nothing := find?_of_length_le atEnd override.register
    have missed : hit = none := congrArg Prod.fst (apply_of_find?_eq_none nothing)
    rw [missed, Option.isSome_none]
    refine ⟨⟨fun found => absurd found Bool.false_ne_true, fun needed => ?_⟩, fun index found => ?_⟩
    · exact absurd needed.1 present
    · cases found

/-- Register 2 is there twice and register 3 is not, so that the entry of register 5 keeps its value
though the table has it. -/
theorem run_of_inOrder_of_repeated :
    let table : List Setting := [⟨1, 0⟩, ⟨2, 0⟩, ⟨2, 0⟩, ⟨5, 0⟩]
    let overrides : List Setting := [⟨2, 7⟩, ⟨2, 8⟩, ⟨3, 9⟩, ⟨5, 9⟩]
    InOrder table ∧ InOrder overrides ∧
      (Patch.run { table } overrides).2.table = [⟨1, 0⟩, ⟨2, 8⟩, ⟨2, 0⟩, ⟨5, 0⟩] ∧
      ((Patch.run { table } [⟨2, 7⟩]).2.apply ⟨2, 8⟩).1.isSome = true ∧
      ((Patch.run { table } [⟨2, 7⟩, ⟨2, 8⟩, ⟨3, 9⟩]).2.apply ⟨5, 9⟩).1.isSome = false := by
  intro table overrides
  have sorted : InOrder table := by decide
  have inOrder : InOrder overrides := by decide
  obtain ⟨each, written⟩ := run_of_inOrder sorted inOrder
  have second := (each [⟨2, 7⟩] ⟨2, 8⟩ [⟨3, 9⟩, ⟨5, 9⟩] rfl).1
  have last := (each [⟨2, 7⟩, ⟨2, 8⟩, ⟨3, 9⟩] ⟨5, 9⟩ [] rfl).1
  refine ⟨sorted, inOrder, written.trans (by decide), second.mpr (by decide), ?_⟩
  exact Bool.eq_false_iff.mpr fun hit => absurd (last.mp hit) (by decide)

end Patch

end BoardIdentity.Dram
