import BoardIdentity.Dram.Tuning

/-!
# Which tables a record tunes

The overrides of a record are for the tables `tunedTables`, in this order and each once.  The number
of rows of one table comes from the record's offsets (`get_rowCounts_eq`): none if some table up to
it ends at zero, and else as many whole rows as fit before its end.
-/

namespace BoardIdentity.Dram

/-- The tables that overrides are for, in the order of the record's offsets. -/
def tunedTables : Vector TableName Som.tableCount :=
  #v[.controller, .phy, .phyEngine, .setPoint 0, .setPoint 1]

theorem table_targets (i : Fin Som.tableCount) : (targets.get i).table = tunedTables.get i := by
  revert i
  decide

theorem tunedTables_injective {i j : Fin Som.tableCount}
    (same : tunedTables.get i = tunedTables.get j) : i = j := by
  revert i j
  decide

theorem trainedPhy_ne_tunedTables (i : Fin Som.tableCount) :
    TableName.trainedPhy ≠ tunedTables.get i := by
  revert i
  decide

/-- Only the first two set points are tuned. -/
theorem setPoint_ne_tunedTables {index : Nat} (late : 2 ≤ index) (i : Fin Som.tableCount) :
    TableName.setPoint index ≠ tunedTables.get i := by
  rcases i with ⟨_ | _ | _ | _ | _ | i, inside⟩
  · exact nofun
  · exact nofun
  · exact nofun
  · rintro ⟨⟩
    omega
  · rintro ⟨⟩
    omega
  · exact absurd inside (Nat.not_lt.mpr (Nat.le_add_left 5 i))

/-- The plan for one of the tables. -/
def planFor (offsets : Vector UInt8 (Som.tableCount + 1)) (i : Fin Som.tableCount) : Plan where
  target := targets.get i
  offset := offsets.get i.castSucc
  rows := (rowCounts offsets).get i

@[simp]
theorem table_planFor (offsets : Vector UInt8 (Som.tableCount + 1)) (i : Fin Som.tableCount) :
    (planFor offsets i).target.table = tunedTables.get i :=
  table_targets i

theorem plans_eq_ofFn (offsets : Vector UInt8 (Som.tableCount + 1)) :
    plans offsets = List.ofFn (planFor offsets) := rfl

theorem getElem?_plans (offsets : Vector UInt8 (Som.tableCount + 1)) (i : Fin Som.tableCount) :
    (plans offsets)[i.val]? = some (planFor offsets i) := by
  rw [plans_eq_ofFn, List.getElem?_ofFn, dif_pos i.isLt]

theorem plans_pairwise_table_ne (offsets : Vector UInt8 (Som.tableCount + 1)) :
    (plans offsets).Pairwise fun first second => first.target.table ≠ second.target.table := by
  rw [plans_eq_ofFn, List.pairwise_iff_getElem]
  intro i j _ _ before same
  simp only [List.getElem_ofFn, table_planFor] at same
  have equal := Fin.mk.inj (tunedTables_injective same)
  omega

theorem table_of_mem_plans {offsets : Vector UInt8 (Som.tableCount + 1)} {plan : Plan}
    (member : plan ∈ plans offsets) :
    ∃ i : Fin Som.tableCount, plan.target.table = tunedTables.get i := by
  obtain ⟨i, rfl⟩ := List.mem_ofFn.mp member
  exact ⟨i, table_targets i⟩

theorem table_ne_of_mem_plans {offsets : Vector UInt8 (Som.tableCount + 1)} {name : TableName}
    (other : ∀ i : Fin Som.tableCount, name ≠ tunedTables.get i) :
    ∀ plan ∈ plans offsets, name ≠ plan.target.table := by
  intro plan member
  obtain ⟨i, same⟩ := table_of_mem_plans member
  rw [same]
  exact other i

theorem table_of_mem_take_plans {offsets : Vector UInt8 (Som.tableCount + 1)} {count : Nat}
    {plan : Plan} (member : plan ∈ (plans offsets).take count) :
    ∃ i : Fin Som.tableCount, i.val < count ∧ plan.target.table = tunedTables.get i := by
  rw [plans_eq_ofFn] at member
  obtain ⟨index, inside, rfl⟩ := List.mem_take_iff_getElem.mp member
  rw [List.length_ofFn] at inside
  refine ⟨⟨index, by omega⟩, Nat.lt_of_lt_of_le inside (Nat.min_le_left _ _), ?_⟩
  rw [List.getElem_ofFn, table_planFor]

theorem table_of_mem_drop_plans {offsets : Vector UInt8 (Som.tableCount + 1)} {count : Nat}
    {plan : Plan} (member : plan ∈ (plans offsets).drop count) :
    ∃ i : Fin Som.tableCount, count ≤ i.val ∧ plan.target.table = tunedTables.get i := by
  rw [plans_eq_ofFn] at member
  obtain ⟨index, inside, rfl⟩ := List.mem_drop_iff_getElem.mp member
  rw [List.length_ofFn] at inside
  refine ⟨⟨count + index, by omega⟩, Nat.le_add_right count index, ?_⟩
  rw [List.getElem_ofFn, table_planFor]

/-! ## Row counts -/

/-- The count at a position behind which a list was cut off reads as zero. -/
theorem getD_map_takeWhile {α : Type} (keep : α → Bool) (count : α → Nat) {items : List α}
    {index : Nat} (inside : index < items.length) :
    ((items.takeWhile keep).map count).getD index 0 =
      if (items.take (index + 1)).all keep then count items[index] else 0 := by
  induction items generalizing index with
  | nil => cases inside
  | cons item items ih =>
    cases kept : keep item with
    | false => simp [kept]
    | true =>
      cases index with
      | zero => simp [kept]
      | succ index =>
        have within : index < items.length := by simpa using inside
        simpa [kept] using ih within

/-- Where each table starts and ends. -/
def bounds (offsets : Vector UInt8 (Som.tableCount + 1)) : List (UInt8 × UInt8) :=
  offsets.toList.zip offsets.toList.tail

@[simp]
theorem length_bounds (offsets : Vector UInt8 (Som.tableCount + 1)) :
    (bounds offsets).length = Som.tableCount := by
  simp [bounds]

theorem getElem?_bounds (offsets : Vector UInt8 (Som.tableCount + 1)) (i : Fin Som.tableCount) :
    (bounds offsets)[i.val]? = some (offsets.get i.castSucc, offsets.get i.succ) := by
  rw [List.getElem?_eq_getElem (by simp)]
  simp only [bounds, List.getElem_zip, List.getElem_tail, Vector.getElem_toList]
  rfl

/-- No table up to one has a zero where it should end. -/
theorem all_take_bounds_iff (offsets : Vector UInt8 (Som.tableCount + 1)) (i : Fin Som.tableCount) :
    ((bounds offsets).take (i.val + 1)).all (·.2 != 0) = true ↔
      ∀ j : Fin Som.tableCount, j.val ≤ i.val → offsets.get j.succ ≠ 0 := by
  rw [List.all_eq_true]
  constructor
  · intro all j before
    have member :
        (offsets.get j.castSucc, offsets.get j.succ) ∈ (bounds offsets).take (i.val + 1) :=
      List.mem_of_getElem? ((List.getElem?_take_of_lt (by omega)).trans (getElem?_bounds offsets j))
    simpa using all _ member
  · intro all bound member
    obtain ⟨index, inside, rfl⟩ := List.mem_take_iff_getElem.mp member
    rw [length_bounds] at inside
    have before : index ≤ i.val := by omega
    obtain ⟨_, same⟩ := List.getElem?_eq_some_iff.mp (getElem?_bounds offsets ⟨index, by omega⟩)
    rw [same]
    exact bne_iff_ne.mpr (all ⟨index, by omega⟩ before)

theorem get_rowCounts_eq (offsets : Vector UInt8 (Som.tableCount + 1)) (i : Fin Som.tableCount) :
    (rowCounts offsets).get i =
      if ((bounds offsets).take (i.val + 1)).all (·.2 != 0) then
        ((offsets.get i.succ).toNat - (offsets.get i.castSucc).toNat) / OverrideRow.width
      else 0 := by
  obtain ⟨within, bound⟩ := List.getElem?_eq_some_iff.mp (getElem?_bounds offsets i)
  have counted := getD_map_takeWhile (·.2 != 0)
    (fun bound : UInt8 × UInt8 => (bound.2.toNat - bound.1.toNat) / OverrideRow.width) within
  rw [bound] at counted
  exact (Vector.getElem_ofFn i.isLt).trans counted

/-- A table has as many whole rows as fit before its end, if no table up to it ends at zero. -/
theorem get_rowCounts_of_forall_ne_zero {offsets : Vector UInt8 (Som.tableCount + 1)}
    {i : Fin Som.tableCount}
    (nonzero : ∀ j : Fin Som.tableCount, j.val ≤ i.val → offsets.get j.succ ≠ 0) :
    (rowCounts offsets).get i =
      ((offsets.get i.succ).toNat - (offsets.get i.castSucc).toNat) / OverrideRow.width := by
  rw [get_rowCounts_eq, if_pos ((all_take_bounds_iff offsets i).mpr nonzero)]

/-- Every row of a table ends where the table ends at the latest. -/
theorem row_end_le {offsets : Vector UInt8 (Som.tableCount + 1)} {i : Fin Som.tableCount}
    {row : Nat} (inside : row < (rowCounts offsets).get i) :
    (offsets.get i.castSucc).toNat + 8 * row + 8 ≤ (offsets.get i.succ).toNat := by
  rw [get_rowCounts_eq, OverrideRow.width] at inside
  split at inside
  · omega
  · exact absurd inside (Nat.not_lt_zero row)

end BoardIdentity.Dram
