import BoardIdentity.Proofs.Dram.TuningReads

/-!
# What a tuning may change

`Overwritten` is what rows may do to a table: registers stay, and every entry is what it was or is
one of the rows.  A tuning does that, and no more, to each of its tables with the rows that were
delivered for that table; the data rates of the first set points are the only other thing that it
sets, and only if it comes to its end (`tune_overwrites_only`).
-/

namespace BoardIdentity.Dram

open I2c (Exchange)

/-! ## Tables -/

/-- A table some of whose entries were replaced by rows of their register. -/
structure Overwritten (rows before after : List Setting) : Prop where
  registers : after.map (·.register) = before.map (·.register)
  entries : ∀ (index : Nat) (setting : Setting), after[index]? = some setting →
    before[index]? = some setting ∨ setting ∈ rows

namespace Overwritten

variable {rows more before middle after : List Setting}

theorem refl (rows table : List Setting) : Overwritten rows table table :=
  ⟨rfl, fun _ _ found => Or.inl found⟩

theorem mono (fewer : rows ⊆ more) (overwritten : Overwritten rows before after) :
    Overwritten more before after :=
  ⟨overwritten.registers, fun index setting found =>
    (overwritten.entries index setting found).imp_right fun row => fewer row⟩

theorem trans (first : Overwritten rows before middle) (second : Overwritten rows middle after) :
    Overwritten rows before after where
  registers := second.registers.trans first.registers
  entries index setting found := by
    rcases second.entries index setting found with kept | row
    · exact first.entries index setting kept
    · exact Or.inr row

theorem apply (patch : Patch) (override : Setting) :
    Overwritten [override] patch.table (patch.apply override).2.table where
  registers := Patch.map_register_apply patch override
  entries index setting found := by
    rw [Patch.apply_eq] at found
    split at found
    case h_1 hit _ =>
      rw [List.getElem?_set] at found
      split at found
      · split at found
        · exact Or.inr (List.mem_singleton.mpr (Option.some.inj found).symm)
        · cases found
      · exact Or.inl found
    case h_2 => exact Or.inl found

/-- A pass overwrites the table with its overrides. -/
theorem run (patch : Patch) (overrides : List Setting) :
    Overwritten overrides patch.table (patch.run overrides).2.table := by
  induction overrides generalizing patch with
  | nil => exact refl [] patch.table
  | cons override overrides ih =>
    have first := (apply patch override).mono
      (List.cons_subset_cons override (List.nil_subset overrides))
    have later := (ih (patch.apply override).2).mono (List.subset_cons_self override overrides)
    exact first.trans later

theorem mergedWith (table : List Setting) (scan : List Exchange) :
    Overwritten (delivered scan) table (Dram.mergedWith table scan) := by
  rw [Dram.mergedWith, ← Reference.table_run_eq_merge]
  exact run { table } (delivered scan)

end Overwritten

/-! ## The timing -/

variable {β κ : Type} [I2c.Bus β] [Cache κ]

/-- What a run over the tables of a record leaves of the timing, the five tables apart. -/
structure Kept (before after : Timing) : Prop where
  trainedPhy : after.trainedPhy = before.trainedPhy
  laterPoints : ∀ index, 2 ≤ index → after.setPoints[index]? = before.setPoints[index]?
  firmware : after.setPoints.map (·.firmware) = before.setPoints.map (·.firmware)
  laterRates : ∀ index : Fin 4, index ≠ 0 → after.dataRates.get index = before.dataRates.get index

/-- The data rates of a timing are as before. -/
structure KeptRates (before after : Timing) : Prop where
  points : after.setPoints.map (·.dataRate) = before.setPoints.map (·.dataRate)
  rates : after.dataRates = before.dataRates

theorem kept_tuneTables (onFailure : OnFailure) (offsets : Vector UInt8 (Som.tableCount + 1))
    (timing : Timing) (eeprom : Eeprom β κ) :
    Kept timing (tuneTables onFailure (plans offsets) timing eeprom).2.1 ∧
      KeptRates timing (tuneTables onFailure (plans offsets) timing eeprom).2.1 := by
  have besides := besidesTables_tuneTables onFailure (plans offsets) timing eeprom
  have others : ∀ {name : TableName}, (∀ i : Fin Som.tableCount, name ≠ tunedTables.get i) →
      (tuneTables onFailure (plans offsets) timing eeprom).2.1.table? name = timing.table? name :=
    fun other => table?_tuneTables_of_forall_ne (table_ne_of_mem_plans other) timing eeprom
  have rates := congrArg (·.2) besides
  constructor
  · exact {
      trainedPhy := Option.some.inj (others trainedPhy_ne_tunedTables)
      laterPoints := fun index late =>
        Timing.getElem?_setPoints_eq (others (setPoint_ne_tunedTables late)) besides
      firmware := by
        simpa [Timing.besidesTables, Function.comp_def] using congrArg (·.1.map Prod.snd) besides
      laterRates := fun index _ => congrArg (·.get index) rates }
  · refine ⟨?_, rates⟩
    simpa [Timing.besidesTables, Function.comp_def] using congrArg (·.1.map Prod.fst) besides

theorem Kept.setDataRate {before after : Timing} (kept : Kept before after) (rate : UInt32) :
    Kept before (after.setDataRate rate) where
  trainedPhy := kept.trainedPhy
  laterPoints index late := by
    rw [Timing.getElem?_setPoints_setDataRate, ← kept.laterPoints index late]
    simp [Nat.not_lt.mpr late]
  firmware := by
    rw [← kept.firmware, Timing.setDataRate, List.map_append, List.map_map]
    exact List.map_append.symm.trans (congrArg _ (List.take_append_drop 2 after.setPoints))
  laterRates index late := by
    rw [← kept.laterRates index late]
    exact Vector.getElem_set_ne (Nat.zero_lt_succ 3) index.isLt fun zero => late (Fin.ext zero.symm)

/-- **A tuning overwrites only what it has read rows for.**  A record that is left alone leaves the
timing as it was.  Otherwise each of the five tables is overwritten with rows that were delivered in
the scan of that table.  All else is kept, but for the data rates of the first two set points and
the first of the rate table, and those too unless the tuning comes to its end. -/
theorem tune_overwrites_only (onFailure : OnFailure) (trusted : Som.Judgement)
    (record : Som.Record) (timing : Timing) (eeprom : Eeprom β κ) :
    let result := (tune onFailure trusted record timing eeprom).1
    let final := (tune onFailure trusted record timing eeprom).2.1
    (Skipped result → final = timing) ∧
      (¬ Skipped result → ∃ scans : Fin Som.tableCount → List Exchange,
        ByTable onFailure record.tableOffsets timing eeprom.device scans ∧
        tuneExchanges onFailure trusted record timing eeprom = (List.ofFn scans).flatten ∧
        ∀ i table, timing.table? (tunedTables.get i) = some table →
          ∃ patched, final.table? (tunedTables.get i) = some patched ∧
            Overwritten (delivered (scans i)) table patched) ∧
      Kept timing final ∧
      ((∀ outcomes rate, result ≠ .ok (.tuned outcomes rate)) → KeptRates timing final) := by
  intro result final
  obtain ⟨kept, rates⟩ := kept_tuneTables onFailure record.tableOffsets timing eeprom
  obtain ⟨-, scanned⟩ := tune_scans onFailure trusted record timing eeprom
  refine ⟨fun skipped => ?_, fun notSkipped => ?_, ?_⟩
  · rcases scanned with ⟨-, -, alone⟩ | ⟨notSkipped, -⟩
    · exact congrArg (·.2.1) alone
    · exact absurd skipped notSkipped
  · rcases scanned with ⟨skipped, -⟩ | ⟨-, scans, byTable, same, tables, -⟩
    · exact absurd skipped notSkipped
    · refine ⟨scans, byTable, same, fun i table present => ⟨mergedWith table (scans i), ?_, ?_⟩⟩
      · rw [show final.table? _ = _ from tables i, present]
        rfl
      · exact .mergedWith table (scans i)
  · rcases tune_cases onFailure trusted record timing eeprom with
      ⟨reason, -, tuned⟩ | ⟨stop, -, tuned⟩ | ⟨outcomes, -, tuned⟩
    · simp only [final, tuned]
      exact ⟨⟨rfl, fun _ _ => rfl, rfl, fun _ _ => rfl⟩, fun _ => ⟨rfl, rfl⟩⟩
    · simp only [final, tuned]
      exact ⟨kept, fun _ => rates⟩
    · simp only [final, result, tuned]
      exact ⟨kept.setDataRate _, fun other => absurd rfl (other outcomes _)⟩

end BoardIdentity.Dram
