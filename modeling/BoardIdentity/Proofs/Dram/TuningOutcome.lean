import BoardIdentity.Proofs.Dram.Plans
import BoardIdentity.Proofs.Dram.TableRuns

/-!
# What a tuning reports and what it leaves

On a bus that answers by offset alone, a tuning that passes failures over always reports on all five
tables, and report and tables are those of the reference merge of the readable rows
(`tune_nextTable_of_answersRows`).
-/

namespace BoardIdentity.Dram

variable {β κ : Type} [I2c.Bus β] [Cache κ] {trusted : Som.Judgement} {record : Som.Record}

/-- A trusted record that is recent enough has its tables gone through. -/
theorem tune_of_trusted (believed : trusted record = true) (recent : 2 ≤ record.version)
    (onFailure : OnFailure) (timing : Timing) (eeprom : Eeprom β κ) :
    tune onFailure trusted record timing eeprom =
      match tuneTables onFailure (plans record.tableOffsets) timing eeprom with
      | (.error stop, timing, eeprom) => (.error stop, timing, eeprom)
      | (.ok tables, timing, eeprom) =>
        (.ok (.tuned tables record.dataRate.toUInt32),
          timing.setDataRate record.dataRate.toUInt32, eeprom) := by
  have notOld : ¬ record.version < firstTuningVersion := UInt8.not_lt.mpr recent
  rw [tune, believed, if_neg notOld]
  rfl

/-- The record was left alone, because it is not trusted or too old. -/
def Skipped (result : Except Stop Tuning) : Prop :=
  result = .ok .untrusted ∨ ∃ version, result = .ok (.tooOld version)

/-- A tuning leaves the record alone, or is stopped within its run over the tables, or sets the
data rate behind it. -/
theorem tune_cases (onFailure : OnFailure) (trusted : Som.Judgement) (record : Som.Record)
    (timing : Timing) (eeprom : Eeprom β κ) :
    let run := tuneTables onFailure (plans record.tableOffsets) timing eeprom
    (∃ reason, Skipped (.ok reason) ∧
      tune onFailure trusted record timing eeprom = (.ok reason, timing, eeprom)) ∨
    (∃ stop, run.1 = .error stop ∧
      tune onFailure trusted record timing eeprom = (.error stop, run.2)) ∨
    ∃ outcomes, run.1 = .ok outcomes ∧
      tune onFailure trusted record timing eeprom =
        (.ok (.tuned outcomes record.dataRate.toUInt32),
          run.2.1.setDataRate record.dataRate.toUInt32, run.2.2) := by
  by_cases believed : trusted record = true
  case neg => exact Or.inl ⟨.untrusted, Or.inl rfl, by simp [tune, believed]⟩
  by_cases recent : 2 ≤ record.version
  case neg =>
    have old : record.version < firstTuningVersion := UInt8.not_le.mp recent
    exact Or.inl ⟨.tooOld record.version, Or.inr ⟨_, rfl⟩, by simp [tune, believed, old]⟩
  have tuned := tune_of_trusted believed recent onFailure timing eeprom
  generalize tuneTables onFailure (plans record.tableOffsets) timing eeprom = run at tuned ⊢
  rcases run with ⟨stop | outcomes, final, after⟩
  · exact Or.inr (Or.inl ⟨stop, rfl, tuned⟩)
  · exact Or.inr (Or.inr ⟨outcomes, rfl, tuned⟩)

theorem Skipped.ne_error {result : Except Stop Tuning} (skipped : Skipped result) (stop : Stop) :
    result ≠ .error stop := by
  rcases skipped with rfl | ⟨version, rfl⟩ <;> exact nofun

theorem Skipped.ne_tuned {result : Except Stop Tuning} (skipped : Skipped result)
    (outcomes : List TableOutcome) (rate : UInt32) : result ≠ .ok (.tuned outcomes rate) := by
  rcases skipped with rfl | ⟨version, rfl⟩ <;> exact nofun

/-- The record is left alone exactly if it is not trusted or is too old. -/
theorem skipped_tune_iff (onFailure : OnFailure) (trusted : Som.Judgement) (record : Som.Record)
    (timing : Timing) (eeprom : Eeprom β κ) :
    Skipped (tune onFailure trusted record timing eeprom).1 ↔
      ¬ (trusted record = true ∧ 2 ≤ record.version) := by
  constructor
  · rintro skipped ⟨believed, recent⟩
    rw [tune_of_trusted believed recent] at skipped
    generalize tuneTables onFailure (plans record.tableOffsets) timing eeprom = run at skipped
    rcases run with ⟨stop | outcomes, final, after⟩
    · exact skipped.ne_error stop rfl
    · exact skipped.ne_tuned outcomes _ rfl
  · intro refused
    by_cases believed : trusted record = true
    · have old : record.version < firstTuningVersion :=
        UInt8.not_le.mp fun recent => refused ⟨believed, recent⟩
      exact Or.inr ⟨record.version, by simp [tune, believed, old]⟩
    · exact Or.inl (by simp [tune, believed])

/-- A run over the tables of a record reports on them in the record's order. -/
theorem tuneEach_plans_of_answersRows {answers : RowAnswers} {eeprom : Eeprom β κ}
    (steady : eeprom.AnswersRows answers) (offsets : Vector UInt8 (Som.tableCount + 1))
    (timing : Timing) :
    (tuneEach (plans offsets) timing eeprom).1 = (List.ofFn fun i : Fin Som.tableCount =>
        answers.outcome (offsets.get i.castSucc) ((rowCounts offsets).get i)
          (timing.table? (tunedTables.get i))) ∧
      ∀ i : Fin Som.tableCount,
        (tuneEach (plans offsets) timing eeprom).2.1.table? (tunedTables.get i) =
        (timing.table? (tunedTables.get i)).map
          (answers.patched (offsets.get i.castSucc) ((rowCounts offsets).get i)) := by
  obtain ⟨outcomes, tables, -⟩ :=
    tuneEach_of_answersRows steady (plans_pairwise_table_ne offsets) timing
  refine ⟨?_, fun i => ?_⟩
  · rw [outcomes, plans_eq_ofFn, List.map_ofFn]
    refine congrArg List.ofFn (funext fun i => ?_)
    rw [← table_planFor offsets]
    rfl
  · have patched := tables (planFor offsets i) (List.mem_ofFn.mpr ⟨i, rfl⟩)
    rwa [table_planFor] at patched

/-- A run over the tables of a record leaves every other table as it is. -/
theorem table?_tuneEach_plans_of_forall_ne (offsets : Vector UInt8 (Som.tableCount + 1))
    (timing : Timing) (eeprom : Eeprom β κ) {name : TableName}
    (other : ∀ i : Fin Som.tableCount, name ≠ tunedTables.get i) :
    (tuneEach (plans offsets) timing eeprom).2.1.table? name = timing.table? name :=
  table?_tuneEach_of_forall_ne (table_ne_of_mem_plans other) timing eeprom

/-- **A tuning that passes failures over reports on every table and leaves the reference merge.**
For each table, the rows up to the first that cannot be read are merged into it, the report holds
the counts of rows, reads and matches with the first failure, and the record's data rate is set for
the first set points that exist. -/
theorem tune_nextTable_of_answersRows {answers : RowAnswers} {eeprom : Eeprom β κ}
    (steady : eeprom.AnswersRows answers) (believed : trusted record = true)
    (recent : 2 ≤ record.version) (timing : Timing) :
    ∃ final after,
      tune .nextTable trusted record timing eeprom =
        (.ok (.tuned
          (List.ofFn fun i : Fin Som.tableCount =>
            answers.outcome (record.tableOffsets.get i.castSucc)
              ((rowCounts record.tableOffsets).get i) (timing.table? (tunedTables.get i)))
          record.dataRate.toUInt32), final, after) ∧
      (∀ i : Fin Som.tableCount, final.table? (tunedTables.get i) =
        (timing.table? (tunedTables.get i)).map
          (answers.patched (record.tableOffsets.get i.castSucc)
            ((rowCounts record.tableOffsets).get i))) ∧
      final.dataRates.get 0 = record.dataRate.toUInt32 ∧
      final.setPoints.length = timing.setPoints.length ∧
      ∀ index < 2, ∀ point, final.setPoints[index]? = some point →
        point.dataRate = record.dataRate.toUInt32 := by
  obtain ⟨outcomes, tables⟩ := tuneEach_plans_of_answersRows steady record.tableOffsets timing
  have run := tune_of_trusted believed recent .nextTable timing eeprom
  rw [tuneTables_nextTable, outcomes] at run
  refine ⟨_, _, run, fun i => ?_, ?_, ?_, ?_⟩
  · exact (Timing.table?_setDataRate _ _ _).trans (tables i)
  · exact Vector.getElem_set_self ..
  · rw [Timing.length_setPoints_setDataRate]
    have besides := congrArg (·.1.length)
      (besidesTables_tuneEach (plans record.tableOffsets) timing eeprom)
    simpa only [Timing.besidesTables, List.length_map] using besides
  · intro index early point found
    rw [Timing.getElem?_setPoints_setDataRate] at found
    obtain ⟨before, -, rfl⟩ := Option.map_eq_some_iff.mp found
    rw [if_pos early]

/-- Two rows for the controller, of which the second looks for a register behind the first's; one
row for the physical layer, on a broken byte; and no set points. -/
theorem tune_nextTable_of_broken_byte :
    let image : List UInt8 :=
      [9, 0, 0, 0, 7, 0, 0, 0, 1, 0, 0, 0, 8, 0, 0, 0, 3, 0, 0, 0, 6, 0, 0, 0]
    let bus : I2c.ImageBus :=
      { names := ["i2c0"], devices := [{ bus := "i2c0", address := 0x52, image }]
        broken := some { offset := 20, fault := .busError } }
    let eeprom : Eeprom I2c.ImageBus (Option FlushCount) :=
      { bus, device := { controller := 0, address := 0x52 }, cache := none }
    let record : Som.Record :=
      { magic := 0, partNumber := .replicate 3 0, assembly := .replicate 10 0
        date := .replicate 9 0, mac := .replicate 6 0, revision := 0, version := 2, features := 0
        memoryUnits := 0, tableOffsets := #v[0, 16, 24, 0, 0, 0], partNumberTail := .replicate 5 0
        dataRate := 3200 }
    let timing : Timing :=
      { controller := [⟨1, 0⟩, ⟨9, 0⟩], phy := [⟨3, 5⟩], trainedPhy := [], phyEngine := []
        setPoints := [], dataRates := #v[3733, 0, 0, 0] }
    let trusted : Som.Judgement := Som.TrustRule.everyRecord.judgement
    eeprom.AnswersRows (bus.fetch eeprom.device · 8) ∧ trusted record = true ∧
      2 ≤ record.version ∧
      ∃ final after, tune .nextTable trusted record timing eeprom =
        (.ok (.tuned
          [{ offset := 0, rows := 2, read := 2, matched := 1 },
            { offset := 16, rows := 1, failure := some (.readFailed .busError) },
            { offset := 24, rows := 0 }, { offset := 0, rows := 0 }, { offset := 0, rows := 0 }]
          3200), final, after) ∧
        final.controller = [⟨1, 0⟩, ⟨9, 7⟩] ∧ final.phy = [⟨3, 5⟩] := by
  intro image bus eeprom record timing trusted
  have steady : eeprom.AnswersRows (bus.fetch eeprom.device · 8) :=
    I2c.ImageBus.answersBy_fetch bus eeprom.device (by decide)
  have believed : trusted record = true := rfl
  have recent : 2 ≤ record.version := by decide
  obtain ⟨final, after, run, tables, -⟩ :=
    tune_nextTable_of_answersRows steady believed recent timing
  refine ⟨steady, believed, recent, final, after, run.trans ?_,
    Option.some.inj ((tables ⟨0, by decide⟩).trans ?_),
    Option.some.inj ((tables ⟨1, by decide⟩).trans ?_)⟩
  · refine congrArg (fun outcomes => (Except.ok (Tuning.tuned outcomes 3200), final, after)) ?_
    decide +kernel +zetaReduce
  · decide +kernel +zetaReduce
  · decide +kernel +zetaReduce

end BoardIdentity.Dram
