import BoardIdentity.Proofs.Bytes.RecordLayouts
import BoardIdentity.Proofs.Dram.Plans
import BoardIdentity.Proofs.Dram.RowReads

/-!
# Tables of overrides in an EEPROM

The overrides of all tables are stored back to back, each as one row of eight bytes.
`Provisioned` says that a record's offsets are those of such tables: then every table has as many
rows as overrides (`Provisioned.get_rowCounts`) and starts behind the rows of the tables before
it (`Provisioned.toNat_offset`).  Rows that are all there are all read (`overrides_of_stored`).
-/

namespace BoardIdentity.Dram

/-- The eight bytes in which an override is stored. -/
def storedRow (override : Setting) : Vector UInt8 8 :=
  Layout.toBytes (OverrideRow.ofSetting override)

theorem settingOfBytes_storedRow (override : Setting) :
    settingOfBytes (storedRow override) = override := by
  have row := setting_ofBytes (storedRow override)
  rw [← row]
  exact (congrArg _ (OverrideRow.ofBytes_toBytes _)).trans (OverrideRow.setting_ofSetting override)

/-! ## Rows that are all there -/

namespace RowAnswers

variable {answers : RowAnswers} {start : Nat} {overrides : List Setting}

/-- Every row from an address on holds its override. -/
def Stored (answers : RowAnswers) (start : Nat) (overrides : List Setting) : Prop :=
  ∀ index (inside : index < overrides.length),
    answers.row start index = .ok (storedRow overrides[index])

theorem Stored.tail {override : Setting} (stored : answers.Stored start (override :: overrides)) :
    answers.Stored (start + 8) overrides := by
  intro index inside
  have later := stored (index + 1) (Nat.succ_lt_succ inside)
  rwa [row_succ] at later

theorem overrides_of_stored (stored : answers.Stored start overrides) :
    answers.overrides start overrides.length = overrides ∧
      answers.failure? start overrides.length = none := by
  induction overrides generalizing start with
  | nil => exact ⟨rfl, rfl⟩
  | cons override overrides ih =>
    have first : answers.row start 0 = .ok (storedRow override) :=
      stored 0 (Nat.zero_lt_succ overrides.length)
    obtain ⟨read, failure⟩ := ih stored.tail
    rw [List.length_cons, overrides_succ_of_ok first, failure?_succ_of_ok first, read, failure,
      settingOfBytes_storedRow]
    exact ⟨rfl, rfl⟩

end RowAnswers

/-! ## Tables back to back -/

/-- The rows of all tables, back to back. -/
def storedRows (overrides : List Setting) : List UInt8 :=
  overrides.flatMap fun override => (storedRow override).toList

@[simp]
theorem length_storedRows (overrides : List Setting) :
    (storedRows overrides).length = 8 * overrides.length := by
  induction overrides with
  | nil => rfl
  | cons override overrides ih =>
    simp only [storedRows, List.flatMap_cons, List.length_append, Vector.length_toList,
      List.length_cons] at ih ⊢
    omega

theorem storedRows_append (before after : List Setting) :
    storedRows (before ++ after) = storedRows before ++ storedRows after :=
  List.flatMap_append

/-- The overrides of all tables, in the order in which they are stored. -/
def inTableOrder (overrides : TableName → List Setting) : List Setting :=
  tunedTables.toList.flatMap overrides

/-- One row in the rows of all tables: those of the tables before, and of its own, stand before. -/
theorem storedRows_inTableOrder (overrides : TableName → List Setting) (i : Fin Som.tableCount)
    {index : Nat} (inside : index < (overrides (tunedTables.get i)).length) :
    ∃ after, storedRows (inTableOrder overrides) =
      storedRows ((tunedTables.toList.take i.val).flatMap overrides) ++
        storedRows ((overrides (tunedTables.get i)).take index) ++
        ((storedRow (overrides (tunedTables.get i))[index]).toList ++ after) := by
  generalize turn : overrides (tunedTables.get i) = table at inside ⊢
  have tables : tunedTables.toList = tunedTables.toList.take i.val ++
      tunedTables.get i :: tunedTables.toList.drop (i.val + 1) := by
    have next := List.drop_eq_getElem_cons (show i.val < tunedTables.toList.length by simp)
    rw [Vector.getElem_toList] at next
    exact (List.take_append_drop i.val tunedTables.toList).symm.trans (congrArg _ next)
  have rows : table = table.take index ++ table[index] :: table.drop (index + 1) := by
    rw [← List.drop_eq_getElem_cons inside, List.take_append_drop]
  have behind : storedRows table = storedRows (table.take index) ++
      ((storedRow table[index]).toList ++ storedRows (table.drop (index + 1))) :=
    (congrArg storedRows rows).trans (storedRows_append _ _)
  refine ⟨storedRows (table.drop (index + 1)) ++
    storedRows ((tunedTables.toList.drop (i.val + 1)).flatMap overrides), ?_⟩
  have all := congrArg (fun names => storedRows (names.flatMap overrides)) tables
  simpa only [inTableOrder, List.flatMap_append, List.flatMap_cons, turn, storedRows_append, behind,
    List.append_assoc] using all

/-- A record whose offsets are those of tables of overrides that are stored back to back. -/
structure Provisioned (record : Som.Record) (start : Nat)
    (overrides : TableName → List Setting) : Prop where
  first : (record.tableOffsets.get 0).toNat = start
  next : ∀ i : Fin Som.tableCount, (record.tableOffsets.get i.succ).toNat =
    (record.tableOffsets.get i.castSucc).toNat + 8 * (overrides (tunedTables.get i)).length

namespace Provisioned

variable {record : Som.Record} {start : Nat} {overrides : TableName → List Setting}

/-- A table starts behind the rows of the tables before it. -/
theorem toNat_offset (provisioned : Provisioned record start overrides)
    (i : Fin (Som.tableCount + 1)) :
    (record.tableOffsets.get i).toNat =
      start + (storedRows ((tunedTables.toList.take i.val).flatMap overrides)).length := by
  -- One more table ends where the rows of the tables before it and its own end.
  induction i using Fin.induction with
  | zero => exact provisioned.first
  | succ i ih =>
    have inside : i.val < tunedTables.toList.length := by simp
    have taken : tunedTables.toList.take (i.val + 1) =
        tunedTables.toList.take i.val ++ [tunedTables.get i] := by
      rw [List.take_succ_eq_append_getElem inside, Vector.getElem_toList]
      rfl
    rw [provisioned.next, ih, Fin.val_succ, taken, Fin.val_castSucc]
    simp only [List.flatMap_append, List.flatMap_singleton, storedRows_append, List.length_append,
      length_storedRows]
    omega

/-- A table has as many rows as overrides. -/
theorem get_rowCounts (provisioned : Provisioned record start overrides) (positive : 0 < start)
    (i : Fin Som.tableCount) :
    (rowCounts record.tableOffsets).get i = (overrides (tunedTables.get i)).length := by
  have nonzero : ∀ j : Fin Som.tableCount, j.val ≤ i.val → record.tableOffsets.get j.succ ≠ 0 := by
    intro j _ zero
    have offset := provisioned.toNat_offset j.succ
    rw [show (record.tableOffsets.get j.succ).toNat = 0 from congrArg UInt8.toNat zero] at offset
    omega
  have next := provisioned.next i
  rw [get_rowCounts_of_forall_ne_zero nonzero, next, OverrideRow.width]
  omega

end Provisioned

end BoardIdentity.Dram
