import BoardIdentity.Proofs.Dram.RepeatedMerge
import BoardIdentity.Proofs.Dram.TuningReads

/-!
# Tuning twice

On a bus that answers by offset alone, a tuning that is started again on what the first one left
says the same of every table, reads the same and leaves all as it is (`tune_again`), whether or not
the first one was stopped.  What is read does not depend on the values of the timing, only on which
tables there are: `tuneTables_together` lets two runs go side by side and finds one conversation.
-/

namespace BoardIdentity

/-! ## Recorded handles on steady buses -/

namespace I2c

variable {β : Type} [Bus β]

theorem Recorded.bus_afterReads (recorded : Recorded β) (device : Device) (length : Nat)
    (offsets : List UInt32) :
    (Bus.afterReads recorded device length offsets).bus =
      Bus.afterReads recorded.bus device length offsets := by
  induction offsets generalizing recorded with
  | nil => rfl
  | cons offset offsets ih => exact ih _

/-- A record around a bus changes no answer. -/
theorem AnswersBy.recorded {bus : Recorded β} {device : Device} {length : Nat}
    {answer : UInt32 → Except Fault (Vector UInt8 length)}
    (steady : AnswersBy bus.bus device answer) : AnswersBy bus device answer := by
  intro earlier offset
  rw [← steady earlier offset, ← Recorded.bus_afterReads]
  rfl

end I2c

namespace Eeprom

variable {β κ : Type} [I2c.Bus β] [Cache κ] {answers : Dram.RowAnswers}

omit [Cache κ] in
theorem AnswersRows.recorded {eeprom : Eeprom β κ} (steady : eeprom.AnswersRows answers) :
    eeprom.recorded.AnswersRows answers := by
  have passedOn : I2c.AnswersBy eeprom.recorded.bus eeprom.device answers := .recorded steady
  exact passedOn

omit [Cache κ] in
/-- What is exchanged for a row is a matter of the device, the offset and the answers. -/
theorem AnswersRows.exchange_eq {eeprom : Eeprom (I2c.Recorded β) κ}
    (steady : eeprom.AnswersRows answers) (offset : UInt32) :
    eeprom.exchange Dram.OverrideRow offset =
      { request := { device := eeprom.device, offset, length := 8 }
        answer := (answers offset).map Vector.toList } := by
  rw [← I2c.AnswersBy.read_fst steady offset]
  rfl

end Eeprom

namespace Dram

variable {β κ : Type} [I2c.Bus β] [Cache κ] {answers : RowAnswers}

/-! ## One conversation -/

section Together

variable {eeprom again : Eeprom (I2c.Recorded β) κ}

/-- Two handles of one device, on buses of the same answers, hold one conversation over rows. -/
theorem readRows_together (steady : eeprom.AnswersRows answers)
    (steadyAgain : again.AnswersRows answers) (same : again.device = eeprom.device)
    (start count : Nat) :
    ∃ exchanges, eeprom.Exchanged exchanges (readRows eeprom start count).2 ∧
      again.Exchanged exchanges (readRows again start count).2 := by
  induction count generalizing eeprom again start with
  | zero => exact ⟨[], .refl eeprom, .refl again⟩
  | succ count ih =>
    have answered := steady.read_fst (UInt32.ofNat start)
    have answeredAgain := steadyAgain.read_fst (UInt32.ofNat start)
    have later := steady.read_snd (UInt32.ofNat start)
    have laterAgain := steadyAgain.read_snd (UInt32.ofNat start)
    have exchanged := eeprom.exchanged_read OverrideRow (UInt32.ofNat start)
    have exchangedAgain := again.exchanged_read OverrideRow (UInt32.ofNat start)
    rw [steadyAgain.exchange_eq, same, ← steady.exchange_eq] at exchangedAgain
    rw [readRows, readRows]
    rcases reading : eeprom.read OverrideRow (UInt32.ofNat start) with ⟨answer, after⟩
    rcases readingAgain : again.read OverrideRow (UInt32.ofNat start) with ⟨answerAgain, afterAgain⟩
    rw [reading] at answered later exchanged
    rw [readingAgain] at answeredAgain laterAgain exchangedAgain
    obtain rfl : answerAgain = answer := answeredAgain.trans answered.symm
    cases answerAgain with
    | error failure => exact ⟨_, exchanged, exchangedAgain⟩
    | ok row =>
      obtain ⟨exchanges, first, second⟩ := ih later laterAgain
        (exchangedAgain.device.trans (same.trans exchanged.device.symm))
        (start + OverrideRow.width)
      exact ⟨_, exchanged.trans first, exchangedAgain.trans second⟩

theorem length_setPoints_tuneTable (plan : Plan) (timing : Timing) (eeprom : Eeprom β κ) :
    (tuneTable plan timing eeprom).2.1.setPoints.length = timing.setPoints.length :=
  Timing.length_setPoints_eq (besidesTables_tuneTable plan timing eeprom)

theorem tuneTable_together (steady : eeprom.AnswersRows answers)
    (steadyAgain : again.AnswersRows answers) (same : again.device = eeprom.device)
    {timing other : Timing} (points : other.setPoints.length = timing.setPoints.length)
    (plan : Plan) :
    ∃ exchanges, eeprom.Exchanged exchanges (tuneTable plan timing eeprom).2.2 ∧
      again.Exchanged exchanges (tuneTable plan other again).2.2 := by
  have present := Timing.isSome_table?_congr points plan.target.table
  unfold tuneTable
  generalize timing.table? plan.target.table = table, other.table? plan.target.table = otherTable
    at present ⊢
  rcases table with _ | table <;> rcases otherTable with _ | otherTable
  · exact ⟨[], .refl eeprom, .refl again⟩
  · cases present
  · cases present
  · exact readRows_together steady steadyAgain same plan.offset.toNat plan.rows

/-- Whether a table fails is a matter of the answers, if the board has it. -/
theorem failure_tuneTable_congr (steady : eeprom.AnswersRows answers)
    (steadyAgain : again.AnswersRows answers)
    {timing other : Timing} (points : other.setPoints.length = timing.setPoints.length)
    (plan : Plan) :
    (tuneTable plan other again).1.failure = (tuneTable plan timing eeprom).1.failure := by
  have present := Timing.isSome_table?_congr points plan.target.table
  rw [(tuneTable_of_answersRows steady plan timing).1,
    (tuneTable_of_answersRows steadyAgain plan other).1]
  generalize timing.table? plan.target.table = table, other.table? plan.target.table = otherTable
    at present ⊢
  rcases table with _ | table <;> rcases otherTable with _ | otherTable
  · rfl
  · cases present
  · cases present
  · rfl

/-- Two runs over the same tables, side by side, hold one conversation. -/
theorem tuneTables_together (onFailure : OnFailure) (plans : List Plan)
    (steady : eeprom.AnswersRows answers)
    (steadyAgain : again.AnswersRows answers) (same : again.device = eeprom.device)
    {timing other : Timing} (points : other.setPoints.length = timing.setPoints.length) :
    ∃ exchanges, eeprom.Exchanged exchanges (tuneTables onFailure plans timing eeprom).2.2 ∧
      again.Exchanged exchanges (tuneTables onFailure plans other again).2.2 := by
  induction plans generalizing timing other eeprom again with
  | nil => exact ⟨[], .refl eeprom, .refl again⟩
  | cons plan plans ih =>
    obtain ⟨exchanges, first, second⟩ := tuneTable_together steady steadyAgain same points plan
    have sameFailure := failure_tuneTable_congr steady steadyAgain points plan
    rcases next_or_stop onFailure (tuneTable plan timing eeprom).1 with
      goesOn | ⟨rfl, failure, fails⟩
    · have pointsLater := (length_setPoints_tuneTable plan other again).trans
        (points.trans (length_setPoints_tuneTable plan timing eeprom).symm)
      obtain ⟨later, firstLater, secondLater⟩ :=
        ih (tuneTable_of_answersRows steady plan timing).2.2
          (tuneTable_of_answersRows steadyAgain plan other).2.2
          (second.device.trans (same.trans first.device.symm)) pointsLater
      rw [tuneTables_cons_of_next goesOn,
        tuneTables_cons_of_next fun stop => sameFailure.trans (goesOn stop)]
      exact ⟨_, first.trans firstLater, second.trans secondLater⟩
    · rw [tuneTables_cons_of_stop fails, tuneTables_cons_of_stop (sameFailure.trans fails)]
      exact ⟨_, first, second⟩

end Together

/-! ## One result -/

section Again

variable {eeprom again : Eeprom β κ}

theorem RowAnswers.patched_patched (answers : RowAnswers) (offset : UInt8) (rows : Nat)
    (table : List Setting) :
    answers.patched offset rows (answers.patched offset rows table) =
      answers.patched offset rows table :=
  (Reference.merge_again table _).1

theorem RowAnswers.outcome_patched (answers : RowAnswers) (offset : UInt8) (rows : Nat)
    (table? : Option (List Setting)) :
    answers.outcome offset rows (table?.map (answers.patched offset rows)) =
      answers.outcome offset rows table? := by
  cases table? with
  | none => rfl
  | some table =>
    simp only [Option.map_some, outcome, patched, (Reference.merge_again table _).2]

/-- A table that was patched already has the same told of it and is left as it is. -/
theorem tuneTable_again (steady : eeprom.AnswersRows answers)
    (steadyAgain : again.AnswersRows answers) {plan : Plan} {timing tuned : Timing}
    (table : tuned.table? plan.target.table =
      (tuneTable plan timing eeprom).2.1.table? plan.target.table) :
    (tuneTable plan tuned again).1 = (tuneTable plan timing eeprom).1 ∧
      (tuneTable plan tuned again).2.1 = tuned := by
  obtain ⟨outcome, patched, -⟩ := tuneTable_of_answersRows steady plan timing
  obtain ⟨outcomeAgain, patchedAgain, -⟩ := tuneTable_of_answersRows steadyAgain plan tuned
  rw [patched] at table
  constructor
  · rw [outcomeAgain, table, RowAnswers.outcome_patched, outcome]
  · refine Timing.ext_of_tables (fun name => ?_) (besidesTables_tuneTable plan tuned again)
    by_cases own : name = plan.target.table
    · rw [own, patchedAgain, table, Option.map_map]
      refine congrArg (Option.map · _) (funext fun before => ?_)
      exact RowAnswers.patched_patched answers plan.offset plan.rows before
    · exact table?_tuneTable_of_ne own tuned again

/-- A run over tables that it has tuned before says the same again and leaves all as it is. -/
theorem tuneTables_again (onFailure : OnFailure) {plans : List Plan}
    (distinct : plans.Pairwise fun first second => first.target.table ≠ second.target.table)
    (steady : eeprom.AnswersRows answers) (steadyAgain : again.AnswersRows answers)
    (timing tuned : Timing)
    (tables : ∀ plan ∈ plans, tuned.table? plan.target.table =
      (tuneTables onFailure plans timing eeprom).2.1.table? plan.target.table) :
    (tuneTables onFailure plans tuned again).1 = (tuneTables onFailure plans timing eeprom).1 ∧
      (tuneTables onFailure plans tuned again).2.1 = tuned := by
  induction plans generalizing timing eeprom again with
  | nil => exact ⟨rfl, rfl⟩
  | cons plan plans ih =>
    obtain ⟨apart, distinctLater⟩ := List.pairwise_cons.mp distinct
    rw [List.forall_mem_cons] at tables
    obtain ⟨table, tablesLater⟩ := tables
    rcases next_or_stop onFailure (tuneTable plan timing eeprom).1 with
      goesOn | ⟨rfl, failure, fails⟩
    · rw [tuneTables_cons_of_next goesOn] at table tablesLater ⊢
      -- The tables that come later leave this one as its turn left it.
      have own := table.trans (table?_tuneTables_of_forall_ne
        (fun later member => apart later member) _ _)
      obtain ⟨outcome, unchanged⟩ := tuneTable_again steady steadyAgain own
      obtain ⟨result, left⟩ := ih distinctLater (tuneTable_of_answersRows steady plan timing).2.2
        (tuneTable_of_answersRows steadyAgain plan tuned).2.2 _ tablesLater
      rw [tuneTables_cons_of_next (by rwa [outcome]), outcome, unchanged, result, left]
      exact ⟨rfl, rfl⟩
    · rw [tuneTables_cons_of_stop fails] at table ⊢
      obtain ⟨outcome, unchanged⟩ := tuneTable_again steady steadyAgain table
      rw [tuneTables_cons_of_stop (outcome ▸ fails), outcome]
      exact ⟨rfl, unchanged⟩

end Again

/-! ## Tunings -/

section Tune

variable {trusted : Som.Judgement} {record : Som.Record} {onFailure : OnFailure}

/-- The handle that a tuning leaves is that of its run over the tables. -/
theorem handle_tune (onFailure : OnFailure) (trusted : Som.Judgement) (record : Som.Record)
    (timing : Timing) (eeprom : Eeprom β κ) :
    (tune onFailure trusted record timing eeprom).2.2 =
      if trusted record = true ∧ 2 ≤ record.version then
        (tuneTables onFailure (plans record.tableOffsets) timing eeprom).2.2
      else eeprom := by
  split
  case isTrue believed =>
    rw [tune_of_trusted believed.1 believed.2]
    rcases tuneTables onFailure (plans record.tableOffsets) timing eeprom with
      ⟨stop | outcomes, patched, after⟩ <;> rfl
  case isFalse refused =>
    have skipped := (skipped_tune_iff onFailure trusted record timing eeprom).mpr refused
    rcases tune_cases onFailure trusted record timing eeprom with
      ⟨reason, -, tuned⟩ | ⟨stop, -, tuned⟩ | ⟨outcomes, -, tuned⟩
    · rw [tuned]
    · exact absurd (congrArg (·.1) tuned) (skipped.ne_error stop)
    · exact absurd (congrArg (·.1) tuned) (skipped.ne_tuned outcomes _)

theorem answersRows_tuneTables {eeprom : Eeprom β κ} (steady : eeprom.AnswersRows answers)
    (onFailure : OnFailure) (plans : List Plan) (timing : Timing) :
    (tuneTables onFailure plans timing eeprom).2.2.AnswersRows answers := by
  induction plans generalizing timing eeprom with
  | nil => exact steady
  | cons plan plans ih =>
    have next := (tuneTable_of_answersRows steady plan timing).2.2
    rcases next_or_stop onFailure (tuneTable plan timing eeprom).1 with
      goesOn | ⟨rfl, failure, fails⟩
    · rw [tuneTables_cons_of_next goesOn]
      exact ih next (tuneTable plan timing eeprom).2.1
    · rw [tuneTables_cons_of_stop fails]
      exact next

theorem answersRows_tune {eeprom : Eeprom β κ} (steady : eeprom.AnswersRows answers)
    (onFailure : OnFailure) (trusted : Som.Judgement) (record : Som.Record) (timing : Timing) :
    (tune onFailure trusted record timing eeprom).2.2.AnswersRows answers := by
  rw [handle_tune]
  split
  · exact answersRows_tuneTables steady onFailure (plans record.tableOffsets) timing
  · exact steady

theorem device_tune (onFailure : OnFailure) (trusted : Som.Judgement) (record : Som.Record)
    (timing : Timing) (eeprom : Eeprom β κ) :
    (tune onFailure trusted record timing eeprom).2.2.device = eeprom.device := by
  obtain ⟨exchanged, -⟩ := tune_scans onFailure trusted record timing eeprom
  rw [tune_recorded]
  exact exchanged.device

theorem length_setPoints_tune (onFailure : OnFailure) (trusted : Som.Judgement)
    (record : Som.Record) (timing : Timing) (eeprom : Eeprom β κ) :
    (tune onFailure trusted record timing eeprom).2.1.setPoints.length =
      timing.setPoints.length := by
  have run := Timing.length_setPoints_eq
    (besidesTables_tuneTables onFailure (plans record.tableOffsets) timing eeprom)
  rcases tune_cases onFailure trusted record timing eeprom with
    ⟨reason, -, tuned⟩ | ⟨stop, -, tuned⟩ | ⟨outcomes, -, tuned⟩
  · rw [tuned]
  · rw [tuned, run]
  · rw [tuned, Timing.length_setPoints_setDataRate, run]

/-- Two tunings with one record, of boards with the same tables, read the same. -/
theorem tune_together {eeprom again : Eeprom β κ} (steady : eeprom.AnswersRows answers)
    (steadyAgain : again.AnswersRows answers) (same : again.device = eeprom.device)
    {timing other : Timing} (points : other.setPoints.length = timing.setPoints.length)
    (onFailure : OnFailure) (trusted : Som.Judgement) (record : Som.Record) :
    tuneRequests onFailure trusted record other again =
        tuneRequests onFailure trusted record timing eeprom ∧
      tuneExchanges onFailure trusted record other again =
        tuneExchanges onFailure trusted record timing eeprom := by
  obtain ⟨exchanges, first, second⟩ : ∃ exchanges,
      eeprom.recorded.Exchanged exchanges
        (tune onFailure trusted record timing eeprom.recorded).2.2 ∧
      again.recorded.Exchanged exchanges
        (tune onFailure trusted record other again.recorded).2.2 := by
    rw [handle_tune, handle_tune]
    split
    · exact tuneTables_together onFailure (plans record.tableOffsets) steady.recorded
        steadyAgain.recorded same points
    · exact ⟨[], .refl _, .refl _⟩
  exact ⟨second.requests.trans first.requests.symm,
    (tuneExchanges_eq second).trans (tuneExchanges_eq first).symm⟩

/-- A tuning of what a first one left has the result of the first and leaves the timing alone. -/
theorem tune_repeats {eeprom again : Eeprom β κ} (steady : eeprom.AnswersRows answers)
    (steadyAgain : again.AnswersRows answers) (onFailure : OnFailure) (trusted : Som.Judgement)
    (record : Som.Record) (timing : Timing) :
    let first := tune onFailure trusted record timing eeprom
    (tune onFailure trusted record first.2.1 again).1 = first.1 ∧
      (tune onFailure trusted record first.2.1 again).2.1 = first.2.1 := by
  intro first
  by_cases believed : trusted record = true
  case neg => simp [first, tune, believed]
  by_cases recent : 2 ≤ record.version
  case neg =>
    have old : record.version < firstTuningVersion := UInt8.not_le.mp recent
    simp [first, tune, believed, old]
  have distinct := plans_pairwise_table_ne record.tableOffsets
  have firstRun := tune_of_trusted believed recent onFailure timing eeprom
  have repeats := tuneTables_again onFailure distinct steady steadyAgain timing
  generalize tuneTables onFailure (plans record.tableOffsets) timing eeprom = run
    at firstRun repeats
  rcases run with ⟨stop | outcomes, patched, after⟩
  · obtain ⟨result, left⟩ := repeats patched fun _ _ => rfl
    have secondRun := tune_of_trusted believed recent onFailure patched again
    generalize tuneTables onFailure (plans record.tableOffsets) patched again = run at *
    obtain ⟨_, _, handle⟩ := run
    cases result
    cases left
    simp only [first, firstRun, secondRun, true_and]
  · -- The data rate stands already, and to set it moves no table.
    dsimp only at firstRun
    have still := Timing.setDataRate_setDataRate patched record.dataRate.toUInt32
    have tables := Timing.table?_setDataRate patched record.dataRate.toUInt32
    generalize patched.setDataRate record.dataRate.toUInt32 = tuned at firstRun still tables
    obtain ⟨result, left⟩ := repeats tuned fun plan _ => tables plan.target.table
    have secondRun := tune_of_trusted believed recent onFailure tuned again
    generalize tuneTables onFailure (plans record.tableOffsets) tuned again = run at *
    obtain ⟨_, _, handle⟩ := run
    cases result
    cases left
    simp only [first, firstRun, secondRun, still, true_and]

/-- **Tuning twice is tuning once.**  On a bus that answers by offset alone, a tuning of what a
first one left, with the same record and the same way to go on after failures, has the same result,
makes the same reads with the same answers, and leaves the timing as it finds it. -/
theorem tune_again {eeprom : Eeprom β κ} (steady : eeprom.AnswersRows answers)
    (onFailure : OnFailure) (trusted : Som.Judgement) (record : Som.Record) (timing : Timing) :
    let first := tune onFailure trusted record timing eeprom
    let again := tune onFailure trusted record first.2.1 first.2.2
    again.1 = first.1 ∧ again.2.1 = first.2.1 ∧
      tuneRequests onFailure trusted record first.2.1 first.2.2 =
        tuneRequests onFailure trusted record timing eeprom ∧
      tuneExchanges onFailure trusted record first.2.1 first.2.2 =
        tuneExchanges onFailure trusted record timing eeprom := by
  intro first again
  have steadyAfter := answersRows_tune steady onFailure trusted record timing
  obtain ⟨result, unchanged⟩ := tune_repeats steady steadyAfter onFailure trusted record timing
  exact ⟨result, unchanged, tune_together steady steadyAfter
    (device_tune onFailure trusted record timing eeprom)
    (length_setPoints_tune onFailure trusted record timing eeprom) onFailure trusted record⟩

/-- Three rows for the controller, two of one register and one of a register it does not have, and
one row for the physical layer, on a broken byte: both tunings stop there, with the row of the last
value merged before. -/
theorem tune_again_of_broken_byte :
    let image : List UInt8 :=
      [9, 0, 0, 0, 7, 0, 0, 0, 9, 0, 0, 0, 8, 0, 0, 0, 5, 0, 0, 0, 1, 0, 0, 0,
        3, 0, 0, 0, 6, 0, 0, 0]
    let bus : I2c.ImageBus :=
      { names := ["i2c0"], devices := [{ bus := "i2c0", address := 0x52, image }]
        broken := some { offset := 28, fault := .busError } }
    let eeprom : Eeprom I2c.ImageBus (Option FlushCount) :=
      { bus, device := { controller := 0, address := 0x52 }, cache := none }
    let record : Som.Record :=
      { magic := 0, partNumber := .replicate 3 0, assembly := .replicate 10 0
        date := .replicate 9 0, mac := .replicate 6 0, revision := 0, version := 2, features := 0
        memoryUnits := 0, tableOffsets := #v[0, 24, 32, 0, 0, 0], partNumberTail := .replicate 5 0
        dataRate := 3200 }
    let timing : Timing :=
      { controller := [⟨1, 0⟩, ⟨9, 0⟩], phy := [⟨3, 5⟩], trainedPhy := [], phyEngine := []
        setPoints := [], dataRates := #v[3733, 0, 0, 0] }
    let trusted : Som.Judgement := Som.TrustRule.everyRecord.judgement
    let first := tune .stop trusted record timing eeprom
    let again := tune .stop trusted record first.2.1 first.2.2
    eeprom.AnswersRows (bus.fetch eeprom.device · 8) ∧
      again.1 = .error ⟨"DDR PHY", 0, .readFailed .busError⟩ ∧
      again.2.1.controller = [⟨1, 0⟩, ⟨9, 8⟩] ∧ again.2.1.phy = [⟨3, 5⟩] := by
  intro image bus eeprom record timing trusted
  have steady : eeprom.AnswersRows (bus.fetch eeprom.device · 8) :=
    I2c.ImageBus.answersBy_fetch bus eeprom.device (by decide)
  have stops : (tune .stop trusted record timing eeprom).1 =
      .error ⟨"DDR PHY", 0, .readFailed .busError⟩ := by decide +kernel +zetaReduce
  have merged : (tune .stop trusted record timing eeprom).2.1.controller = [⟨1, 0⟩, ⟨9, 8⟩] ∧
      (tune .stop trusted record timing eeprom).2.1.phy = [⟨3, 5⟩] := by
    decide +kernel +zetaReduce
  obtain ⟨result, unchanged, -⟩ := tune_again steady .stop trusted record timing
  dsimp only
  rw [result, unchanged]
  exact ⟨steady, stops, merged⟩

end Tune

end Dram

end BoardIdentity
