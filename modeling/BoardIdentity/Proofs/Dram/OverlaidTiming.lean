import BoardIdentity.Proofs.Dram.Plans
import BoardIdentity.Proofs.Dram.SortedMerge
import BoardIdentity.Proofs.Dram.TimingFields

/-!
# The timing that overrides ask for

`Timing.overlaidWith` is a timing with overrides laid over its tables and one data rate for its
first two set points, said field by field.  A timing whose tables took the overrides is that timing
once its data rate is set (`Timing.setDataRate_eq_overlaidWith`).
-/

namespace BoardIdentity.Dram

/-- The timing with overrides laid over the tables that overrides are for, and with one data rate
for the first two set points.  The trained table and later set points have no overrides. -/
def Timing.overlaidWith (timing : Timing) (overrides : TableName → List Setting) (rate : UInt32) :
    Timing where
  controller := overlaid timing.controller (overrides .controller)
  phy := overlaid timing.phy (overrides .phy)
  trainedPhy := timing.trainedPhy
  phyEngine := overlaid timing.phyEngine (overrides .phyEngine)
  setPoints := timing.setPoints.mapIdx fun index point =>
    if index < 2 then
      { point with
        dataRate := rate
        settings := overlaid point.settings (overrides (.setPoint index)) }
    else point
  dataRates := timing.dataRates.setIfInBounds 0 rate

namespace Timing

variable {overrides : TableName → List Setting}

theorem besidesTables_overlaidWith (timing : Timing) (rate : UInt32) :
    (timing.overlaidWith overrides rate).besidesTables =
      (timing.besidesTables.1.mapIdx fun index (old, firmware) =>
          (if index < 2 then rate else old, firmware),
        timing.dataRates.setIfInBounds 0 rate) := by
  refine Prod.ext (List.ext_getElem? fun index => ?_) rfl
  simp only [besidesTables, overlaidWith, List.getElem?_map, List.getElem?_mapIdx, Option.map_map]
  cases timing.setPoints[index]? with
  | none => rfl
  | some point =>
    simp only [Option.map_some, Function.comp_apply]
    split <;> rfl

theorem table?_overlaidWith_setPoint (timing : Timing) (rate : UInt32) (index : Nat) :
    (timing.overlaidWith overrides rate).table? (.setPoint index) =
      (timing.table? (.setPoint index)).map fun table =>
        if index < 2 then overlaid table (overrides (.setPoint index)) else table := by
  simp only [table?, overlaidWith, List.getElem?_mapIdx, Option.map_map]
  cases timing.setPoints[index]? with
  | none => rfl
  | some point =>
    simp only [Option.map_some, Function.comp_apply]
    split <;> rfl

theorem table?_overlaidWith_tunedTables (timing : Timing) (rate : UInt32)
    (i : Fin Som.tableCount) :
    (timing.overlaidWith overrides rate).table? (tunedTables.get i) =
      (timing.table? (tunedTables.get i)).map (overlaid · (overrides (tunedTables.get i))) := by
  rcases i with ⟨_ | _ | _ | _ | _ | i, inside⟩
  · rfl
  · rfl
  · rfl
  · exact table?_overlaidWith_setPoint timing rate 0
  · exact table?_overlaidWith_setPoint timing rate 1
  · exact absurd inside (Nat.not_lt.mpr (Nat.le_add_left 5 i))

theorem table?_overlaidWith_of_forall_ne (timing : Timing) (rate : UInt32)
    {name : TableName} (other : ∀ i : Fin Som.tableCount, name ≠ tunedTables.get i) :
    (timing.overlaidWith overrides rate).table? name = timing.table? name := by
  cases name with
  | controller => exact absurd rfl (other ⟨0, by decide⟩)
  | phy => exact absurd rfl (other ⟨1, by decide⟩)
  | trainedPhy => rfl
  | phyEngine => exact absurd rfl (other ⟨2, by decide⟩)
  | setPoint index =>
    rcases index with _ | _ | index
    · exact absurd rfl (other ⟨3, by decide⟩)
    · exact absurd rfl (other ⟨4, by decide⟩)
    · have late : ¬ index + 2 < 2 := by omega
      simp only [table?_overlaidWith_setPoint, if_neg late]
      exact congrFun Option.map_id _

/-- A timing whose tables took the overrides, and that is otherwise as it was, ends up overlaid. -/
theorem setDataRate_eq_overlaidWith {timing final : Timing}
    (tuned : ∀ i : Fin Som.tableCount, final.table? (tunedTables.get i) =
      (timing.table? (tunedTables.get i)).map (overlaid · (overrides (tunedTables.get i))))
    (kept : ∀ name, (∀ i : Fin Som.tableCount, name ≠ tunedTables.get i) →
      final.table? name = timing.table? name)
    (besides : final.besidesTables = timing.besidesTables) (rate : UInt32) :
    final.setDataRate rate = timing.overlaidWith overrides rate := by
  refine ext_of_tables (fun name => (table?_setDataRate final rate name).trans ?_) ?_
  · by_cases other : ∀ i : Fin Som.tableCount, name ≠ tunedTables.get i
    · rw [kept name other, table?_overlaidWith_of_forall_ne timing rate other]
    · obtain ⟨i, same⟩ := Classical.not_forall.mp other
      rw [Classical.not_not.mp same, tuned i, table?_overlaidWith_tunedTables]
  · have rates : final.dataRates = timing.dataRates := congrArg (·.2) besides
    rw [besidesTables_setDataRate, besidesTables_overlaidWith, besides, rates]

end Timing

end BoardIdentity.Dram
