import BoardIdentity.Dram.Patch

/-!
# Merging into a table in register order

A table in ascending order of registers, patched with overrides in the same order, takes every
override whose register it has, always at the first entry of the register.  What comes out is
`overlaid` (`Patch.run_of_sorted`): there the first entry of a register has the value of the last
override of it, and nothing else is changed.

The invariant is `Patch.Behind`: all that the cursor has passed lies below all that is to come.
-/

namespace BoardIdentity.Dram

/-- A table or a list of overrides is in ascending order of registers, repeats allowed. -/
def InOrder (settings : List Setting) : Prop :=
  settings.Pairwise fun first second => first.register ≤ second.register

instance (settings : List Setting) : Decidable (InOrder settings) :=
  inferInstanceAs (Decidable (List.Pairwise _ settings))

theorem inOrder_iff (settings : List Setting) :
    InOrder settings ↔ (settings.map (·.register)).Pairwise (· ≤ ·) :=
  List.pairwise_map.symm

/-- The value that the last override of a register asks for. -/
def lastValue? (overrides : List Setting) (register : UInt32) : Option UInt32 :=
  (overrides.filter (·.register == register)).getLast?.map (·.value)

/-- The table in which the first entry of each register has the value of the register's last
override, and all other entries are as they were. -/
def overlaid (table overrides : List Setting) : List Setting :=
  table.mapIdx fun index entry =>
    if entry.register ∈ (table.take index).map (·.register) then entry
    else { entry with value := (lastValue? overrides entry.register).getD entry.value }

/-! ## The overlay, one override at a time -/

theorem lastValue?_cons (override : Setting) (overrides : List Setting) (register : UInt32) :
    lastValue? (override :: overrides) register =
      if override.register = register then
        some ((lastValue? overrides register).getD override.value)
      else lastValue? overrides register := by
  unfold lastValue?
  split
  case isTrue same =>
    rw [List.filter_cons_of_pos (by simpa using same), List.getLast?_cons]
    cases (overrides.filter (·.register == register)).getLast? <;> rfl
  case isFalse other =>
    rw [List.filter_cons_of_neg (by simpa using other)]

@[simp]
theorem overlaid_nil (table : List Setting) : overlaid table [] = table := by
  refine List.ext_getElem (by simp [overlaid]) fun index _ _ => ?_
  simp [overlaid, lastValue?]

/-- Laying one more override over a table is to write it to the first entry of its register. -/
theorem overlaid_cons {table : List Setting} {override : Setting} {first : Nat}
    (inside : first < table.length) (same : table[first].register = override.register)
    (isFirst : override.register ∉ (table.take first).map (·.register))
    (overrides : List Setting) :
    overlaid table (override :: overrides) = overlaid (table.set first override) overrides := by
  have registers := Patch.map_register_set inside same
  refine List.ext_getElem (by simp [overlaid]) fun index before _ => ?_
  simp only [overlaid, List.length_mapIdx] at before
  simp only [overlaid, List.getElem_mapIdx, List.map_take, registers, List.getElem_set,
    lastValue?_cons]
  by_cases here : first = index
  · subst here
    rw [← List.map_take]
    simp only [if_true, same, if_neg isFirst, Option.getD_some]
  · simp only [if_neg here]
    by_cases repeated : table[index].register = override.register
    · -- A later entry of the override's register is not the first of it.
      have earlier : table[index].register ∈ (table.map (·.register)).take index := by
        have after : first < index := by
          refine Nat.lt_of_le_of_ne (Nat.not_lt.mp fun before => isFirst ?_) here
          exact List.mem_map.mpr ⟨_, List.mem_take_iff_getElem.mpr ⟨index, by omega, rfl⟩, repeated⟩
        rw [repeated, ← same, ← List.map_take]
        exact List.mem_map.mpr ⟨_, List.mem_take_iff_getElem.mpr ⟨first, by omega, rfl⟩, rfl⟩
      rw [if_pos earlier, if_pos earlier]
    · rw [if_neg (Ne.symm repeated)]

/-! ## The cursor in a sorted table -/

namespace Patch

/-- Everything that the cursor has passed lies below every override that is to come. -/
def Behind (patch : Patch) (overrides : List Setting) : Prop :=
  ∀ entry ∈ patch.table.take patch.cursor, ∀ override ∈ overrides,
    entry.register < override.register

/-- A search that has passed no entry of a register finds the first one of the table. -/
theorem find?_eq_findIdx? {patch : Patch} {register : UInt32}
    (passed : ∀ entry ∈ patch.table.take patch.cursor, entry.register ≠ register) :
    patch.find? register = patch.table.findIdx? (·.register == register) := by
  have skipped : (patch.table.take patch.cursor).findIdx? (·.register == register) = none := by
    rw [List.findIdx?_eq_none_iff]
    intro entry member
    simpa using passed entry member
  have whole := congrArg (·.findIdx? (·.register == register))
    (List.take_append_drop patch.cursor patch.table)
  simp only [List.findIdx?_append, skipped, Option.none_or] at whole
  rw [← whole, find?]
  by_cases inside : patch.cursor ≤ patch.table.length
  · rw [List.length_take_of_le inside]
    simp only [Nat.add_comm]
  · rw [List.drop_eq_nil_of_le (by omega)]
    rfl

variable {patch : Patch} {override : Setting} {overrides : List Setting}

/-- An override whose register the table has is written to the first entry of it. -/
theorem exists_first_of_mem (behind : patch.Behind (override :: overrides))
    (present : override.register ∈ patch.table.map (·.register)) :
    ∃ (first : Nat) (inside : first < patch.table.length),
      patch.table[first].register = override.register ∧
      override.register ∉ (patch.table.take first).map (·.register) ∧
      patch.apply override =
        (some first, { table := patch.table.set first override, cursor := first }) := by
  obtain ⟨entry, member, same⟩ := List.mem_map.mp present
  have whole := find?_eq_findIdx? fun entry passed =>
    UInt32.ne_of_lt (behind entry passed override List.mem_cons_self)
  have found : (patch.find? override.register).isSome := by
    rw [whole, List.findIdx?_isSome, List.any_eq_true]
    exact ⟨entry, member, by simpa using same⟩
  obtain ⟨first, searched⟩ := Option.isSome_iff_exists.mp found
  obtain ⟨-, inside, hit⟩ := find?_eq_some searched
  refine ⟨first, inside, hit, fun earlier => ?_, apply_of_find?_eq_some searched⟩
  obtain ⟨other, passed, sameRegister⟩ := List.mem_map.mp earlier
  obtain ⟨index, before, rfl⟩ := List.mem_take_iff_getElem.mp passed
  rw [whole, List.findIdx?_eq_some_iff_getElem] at searched
  obtain ⟨_, _, unlike⟩ := searched
  exact absurd sameRegister (by simpa using unlike index (by omega))

/-- The cursor stays behind the overrides: it moves to the first entry of one of them. -/
theorem Behind.step (sorted : InOrder patch.table) (inOrder : InOrder (override :: overrides))
    {first : Nat} (inside : first < patch.table.length)
    (same : patch.table[first].register = override.register)
    (isFirst : override.register ∉ (patch.table.take first).map (·.register)) :
    Behind { table := patch.table.set first override, cursor := first } overrides := by
  intro entry passed later member
  rw [show (patch.table.set first override).take first = patch.table.take first from
    List.take_set_of_le (Nat.le_refl first)] at passed
  obtain ⟨index, before, rfl⟩ := List.mem_take_iff_getElem.mp passed
  have below : patch.table[index].register ≤ override.register := by
    rw [← same]
    exact List.pairwise_iff_getElem.mp sorted index first (by omega) inside (by omega)
  have other : patch.table[index].register ≠ override.register := fun equal =>
    isFirst (List.mem_map.mpr ⟨_, passed, equal⟩)
  exact UInt32.lt_of_lt_of_le (UInt32.lt_of_le_of_ne below other)
    ((List.pairwise_cons.mp inOrder).1 later member)

/-- A pass over a sorted table takes every override of a register that the table has. -/
theorem run_of_sorted (sorted : InOrder patch.table) (inOrder : InOrder overrides)
    (behind : patch.Behind overrides)
    (present : ∀ override ∈ overrides, override.register ∈ patch.table.map (·.register)) :
    hits (patch.run overrides).1 = overrides.length ∧
      (patch.run overrides).2.table = overlaid patch.table overrides := by
  induction overrides generalizing patch with
  | nil => exact ⟨rfl, (overlaid_nil patch.table).symm⟩
  | cons override overrides ih =>
    obtain ⟨first, inside, same, isFirst, applied⟩ :=
      exists_first_of_mem behind (present override List.mem_cons_self)
    have registers := map_register_set inside same
    have sortedNext : InOrder (patch.table.set first override) := by
      rw [inOrder_iff] at sorted ⊢
      rwa [registers]
    have behindNext := Behind.step sorted inOrder inside same isFirst
    obtain ⟨taken, table⟩ := ih sortedNext (List.pairwise_cons.mp inOrder).2 behindNext
      (fun later member => by
        rw [registers]
        exact present later (List.mem_cons_of_mem _ member))
    simp only [run, applied, hits, List.countP_cons, Option.isSome_some, if_true,
      List.length_cons]
    exact ⟨congrArg (· + 1) taken, table.trans (overlaid_cons inside same isFirst overrides).symm⟩

end Patch

end BoardIdentity.Dram
