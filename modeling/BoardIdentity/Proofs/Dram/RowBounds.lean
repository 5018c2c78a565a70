import BoardIdentity.Proofs.Dram.Plans
import Mathlib.Algebra.BigOperators.Fin
import Mathlib.Order.Bounds.Defs
import Mathlib.Order.Interval.Set.Defs

/-!
# Where the rows of a record lie

The offsets of a record are six bytes, and any six may come.  A table has as many whole rows as fit
between its two offsets, unless a zero cuts it off (`get_rowCounts_eq_zero_iff`,
`isGreatest_rowCounts`), and all its rows lie there (`rowBytes_subset`).

Offsets may go up and down, so that the rows of several tables can be the same bytes.  What bounds
their number is that no two neighbours are both long: what one of them gains the other has lost
(`rowCounts_add_next_le`), and five tables have three such parts (`sum_rowCounts_le`).
-/

namespace BoardIdentity.Dram

variable {offsets : Vector UInt8 (Som.tableCount + 1)} {i j : Fin Som.tableCount}

/-! ## One table -/

/-- Either a zero cuts a table off, or it has as many whole rows as fit before its end. -/
theorem get_rowCounts_cases (offsets : Vector UInt8 (Som.tableCount + 1))
    (i : Fin Som.tableCount) :
    (∃ j ≤ i, offsets.get j.succ = 0) ∧ (rowCounts offsets).get i = 0 ∨
    (¬ ∃ j ≤ i, offsets.get j.succ = 0) ∧ (rowCounts offsets).get i =
      ((offsets.get i.succ).toNat - (offsets.get i.castSucc).toNat) / OverrideRow.width := by
  have cut := all_take_bounds_iff offsets i
  rw [get_rowCounts_eq]
  by_cases zero : ∃ j ≤ i, offsets.get j.succ = 0
  · refine Or.inl ⟨zero, if_neg fun all => ?_⟩
    obtain ⟨j, before, ends⟩ := zero
    exact cut.mp all j before ends
  · refine Or.inr ⟨zero, if_pos (cut.mpr fun j before ends => zero ⟨j, before, ends⟩)⟩

/-- A table without rows was cut off by a zero, or has no room for a row. -/
theorem get_rowCounts_eq_zero_iff :
    (rowCounts offsets).get i = 0 ↔ (∃ j ≤ i, offsets.get j.succ = 0) ∨
      (offsets.get i.succ).toNat < (offsets.get i.castSucc).toNat + 8 := by
  rcases get_rowCounts_cases offsets i with ⟨zero, none⟩ | ⟨whole, count⟩
  · exact iff_of_true none (Or.inl zero)
  · rw [count, OverrideRow.width, or_iff_right whole, Nat.div_eq_zero_iff]
    omega

/-- A table with rows has as many as fit. -/
theorem isGreatest_rowCounts (some : (rowCounts offsets).get i ≠ 0) :
    IsGreatest {rows | (offsets.get i.castSucc).toNat + 8 * rows ≤ (offsets.get i.succ).toNat}
      ((rowCounts offsets).get i) := by
  rcases get_rowCounts_cases offsets i with ⟨-, none⟩ | ⟨-, count⟩
  · exact absurd none some
  · rw [count, OverrideRow.width] at some ⊢
    refine ⟨?_, fun rows fit => ?_⟩
    · simp only [Set.mem_ofPred_eq]
      omega
    · simp only [Set.mem_ofPred_eq] at fit
      omega

/-- The bytes of one row of a table. -/
def rowBytes (offsets : Vector UInt8 (Som.tableCount + 1)) (i : Fin Som.tableCount) (row : Nat) :
    Set Nat :=
  Set.Ico ((offsets.get i.castSucc).toNat + 8 * row) ((offsets.get i.castSucc).toNat + 8 * row + 8)

/-- The rows of a table lie between its offsets. -/
theorem rowBytes_subset {row : Nat} (inside : row < (rowCounts offsets).get i) :
    rowBytes offsets i row ⊆
      Set.Ico (offsets.get i.castSucc).toNat (offsets.get i.succ).toNat := by
  have ends := row_end_le inside
  rintro byte ⟨starts, stops⟩
  exact ⟨by omega, by omega⟩

/-- A row is before the offset 255, since an offset is a byte. -/
theorem rowBytes_subset_Iio {row : Nat} (inside : row < (rowCounts offsets).get i) :
    rowBytes offsets i row ⊆ Set.Iio 255 := by
  have last := (offsets.get i.succ).toNat_lt
  intro byte member
  have before := (rowBytes_subset inside member).2
  simp only [Set.mem_Iio]
  omega

/-! ## All tables -/

theorem get_rowCounts_le (offsets : Vector UInt8 (Som.tableCount + 1)) (i : Fin Som.tableCount) :
    (rowCounts offsets).get i ≤
      ((offsets.get i.succ).toNat - (offsets.get i.castSucc).toNat) / 8 := by
  rcases get_rowCounts_cases offsets i with ⟨-, none⟩ | ⟨-, count⟩
  · rw [none]
    exact Nat.zero_le _
  · exact Nat.le_of_eq count

/-- Two neighbours have room for 31 rows together. -/
theorem rowCounts_add_next_le (offsets : Vector UInt8 (Som.tableCount + 1))
    {i j : Fin Som.tableCount} (next : i.succ = j.castSucc) :
    (rowCounts offsets).get i + (rowCounts offsets).get j ≤ 31 := by
  have first := get_rowCounts_le offsets i
  have second := get_rowCounts_le offsets j
  have shared := (offsets.get j.castSucc).toNat_lt
  have last := (offsets.get j.succ).toNat_lt
  rw [next] at first
  omega

theorem get_rowCounts_le_31 (offsets : Vector UInt8 (Som.tableCount + 1))
    (i : Fin Som.tableCount) : (rowCounts offsets).get i ≤ 31 := by
  have bound := get_rowCounts_le offsets i
  have last := (offsets.get i.succ).toNat_lt
  omega

theorem sum_rowCounts_le (offsets : Vector UInt8 (Som.tableCount + 1)) :
    ∑ i, (rowCounts offsets).get i ≤ 93 := by
  let count : Fin 5 → Nat := (rowCounts offsets).get
  have first : count 0 + count 1 ≤ 31 := rowCounts_add_next_le offsets rfl
  have second : count 2 + count 3 ≤ 31 := rowCounts_add_next_le offsets rfl
  have last : count 4 ≤ 31 := get_rowCounts_le_31 offsets _
  have parts : ∑ i, (rowCounts offsets).get i = count 0 + count 1 + count 2 + count 3 + count 4 :=
    Fin.sum_univ_five count
  omega

/-- Offsets that go up and down make room for that many. -/
example : (rowCounts #v[0, 255, 7, 255, 7, 255]).toList = [31, 0, 31, 0, 31] := by decide

/-- Where the offsets never go down, the rows of a table lie before those of any later one. -/
theorem lt_of_mem_rowBytes
    (ascending : ∀ k l : Fin (Som.tableCount + 1), k ≤ l → offsets.get k ≤ offsets.get l)
    (before : i < j) {row other : Nat} (inside : row < (rowCounts offsets).get i)
    {byte later : Nat} (member : byte ∈ rowBytes offsets i row)
    (laterMember : later ∈ rowBytes offsets j other) : byte < later := by
  have order : i.succ ≤ j.castSucc := Fin.succ_le_castSucc_iff.mpr before
  calc byte
    _ < (offsets.get i.succ).toNat := (rowBytes_subset inside member).2
    _ ≤ (offsets.get j.castSucc).toNat := UInt8.le_iff_toNat_le.mp (ascending _ _ order)
    _ ≤ (offsets.get j.castSucc).toNat + 8 * other := Nat.le_add_right _ _
    _ ≤ later := laterMember.1

end BoardIdentity.Dram
