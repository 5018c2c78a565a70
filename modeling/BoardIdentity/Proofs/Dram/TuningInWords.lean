import BoardIdentity.Proofs.Dram.RowBounds
import BoardIdentity.Proofs.Dram.TableAccess
import BoardIdentity.Proofs.Dram.TuningOutcome

/-!
# Tuning in words

A tuning counts rows with words of 16 bits and reads them at addresses of 32.  `tuneInWords?` is the
tuning with these words, one row read and merged at a time, and it has no result if a number does
not fit its word.  It always has one, and that is the result of `tune` (`tuneInWords?_eq`): offsets
are bytes, so that a table has 31 rows at most and all addresses are below 255.
-/

namespace BoardIdentity.Dram

/-! ## Numbers that may not fit -/

section Words

variable {bits : Nat}

/-- The sum of two words, if it fits. -/
def add? (a b : BitVec bits) : Option (BitVec bits) :=
  if a.uaddOverflow b then none else some (a + b)

/-- The product of two words, if it fits. -/
def mul? (a b : BitVec bits) : Option (BitVec bits) :=
  if a.umulOverflow b then none else some (a * b)

theorem add?_ofNat (a b : Nat) (fits : a + b < 2 ^ bits) :
    add? (BitVec.ofNat bits a) (BitVec.ofNat bits b) = some (BitVec.ofNat bits (a + b)) := by
  have exact : (BitVec.ofNat bits a).uaddOverflow (BitVec.ofNat bits b) = false := by
    rw [BitVec.uaddOverflow, BitVec.toNat_ofNat, BitVec.toNat_ofNat, Nat.mod_eq_of_lt (by omega),
      Nat.mod_eq_of_lt (by omega)]
    exact decide_eq_false (Nat.not_le.mpr fits)
  rw [add?, exact, BitVec.ofNat_add]
  rfl

theorem mul?_ofNat (a b : Nat) (left : a < 2 ^ bits) (right : b < 2 ^ bits)
    (fits : a * b < 2 ^ bits) :
    mul? (BitVec.ofNat bits a) (BitVec.ofNat bits b) = some (BitVec.ofNat bits (a * b)) := by
  have exact : (BitVec.ofNat bits a).umulOverflow (BitVec.ofNat bits b) = false := by
    rw [BitVec.umulOverflow, BitVec.toNat_ofNat, BitVec.toNat_ofNat, Nat.mod_eq_of_lt left,
      Nat.mod_eq_of_lt right]
    exact decide_eq_false (Nat.not_le.mpr fits)
  rw [mul?, exact, BitVec.ofNat_mul]
  rfl

end Words

/-! ## Overrides that are counted -/

theorem Patch.hits_run_cons (patch : Patch) (override : Setting) (overrides : List Setting) :
    hits (patch.run (override :: overrides)).1 =
      (if (patch.apply override).1.isSome then 1 else 0) +
        hits ((patch.apply override).2.run overrides).1 := by
  simp only [run, hits, List.countP_cons, Nat.add_comm]

theorem Patch.hits_run_le (patch : Patch) (overrides : List Setting) :
    hits (patch.run overrides).1 ≤ overrides.length := by
  rw [← patch.length_run overrides]
  exact List.countP_le_length

/-! ## Rows in words -/

/-- The address of a row of the rows from an offset on. -/
def rowAddress? (offset : UInt8) (row : BitVec 16) : Option (BitVec 32) := do
  let distance ← mul? (row.setWidth 32) (BitVec.ofNat 32 OverrideRow.width)
  add? (offset.toBitVec.setWidth 32) distance

/-- What is counted while the rows of a table are read and merged. -/
structure Counters where
  read : BitVec 16
  matched : BitVec 16

def Counters.ofNat (read matched : Nat) : Counters where
  read := BitVec.ofNat 16 read
  matched := BitVec.ofNat 16 matched

/-- One more, if something is to be counted and the sum fits. -/
def countIf? (counts : Bool) (counter : BitVec 16) : Option (BitVec 16) :=
  if counts then add? counter 1 else some counter

theorem countIf?_ofNat (counts : Bool) {count : Nat} (fits : count + 1 < 2 ^ 16) :
    countIf? counts (BitVec.ofNat 16 count) =
      some (BitVec.ofNat 16 (count + if counts then 1 else 0)) := by
  cases counts with
  | true => exact add?_ofNat count 1 fits
  | false => rfl

/-- How the rows of a table ended: what was counted, and the row that could not be read. -/
structure RowsEnded where
  counters : Counters
  failed : Option (BitVec 16 × EepromFault)

variable {β κ : Type} [I2c.Bus β] [Cache κ]

/-- Reads rows one after the other, each merged before the next is read, up to the first failure. -/
def mergeRows? (offset : UInt8) : List (BitVec 16) → Counters → Patch → Eeprom β κ →
    Option (RowsEnded × Patch × Eeprom β κ)
  | [], counters, patch, eeprom => some ({ counters, failed := none }, patch, eeprom)
  | row :: rows, counters, patch, eeprom => do
    let address ← rowAddress? offset row
    match eeprom.read OverrideRow (.ofBitVec address) with
    | (.error failure, eeprom) =>
      some ({ counters, failed := some (row, failure) }, patch, eeprom)
    | (.ok stored, eeprom) =>
      let read ← add? counters.read 1
      let (hit, patch) := patch.apply stored.setting
      let matched ← countIf? hit.isSome counters.matched
      mergeRows? offset rows { read, matched } patch eeprom

/-- Rows of a table that ends before the offset 255 have addresses. -/
theorem rowAddress?_ofNat {offset : UInt8} {row : Nat} (ends : offset.toNat + 8 * row ≤ 255) :
    rowAddress? offset (BitVec.ofNat 16 row) =
      some (BitVec.ofNat 32 (offset.toNat + 8 * row)) := by
  have number : (BitVec.ofNat 16 row).setWidth 32 = BitVec.ofNat 32 row := by
    refine BitVec.eq_of_toNat_eq ?_
    simp only [BitVec.toNat_setWidth, BitVec.toNat_ofNat]
    omega
  have start : offset.toBitVec.setWidth 32 = BitVec.ofNat 32 offset.toNat := by
    refine BitVec.eq_of_toNat_eq ?_
    simp only [BitVec.toNat_setWidth, BitVec.toNat_ofNat, UInt8.toNat_toBitVec]
  have distance : mul? (BitVec.ofNat 32 row) (BitVec.ofNat 32 OverrideRow.width) =
      some (BitVec.ofNat 32 (row * 8)) :=
    mul?_ofNat row 8 (by omega) (by decide) (by omega)
  rw [rowAddress?, number, start, distance, Nat.mul_comm 8 row]
  exact add?_ofNat _ _ (by omega)

/-- In words, rows are read and merged as they are without: the reads come to the same, since
merging does nothing to the bus, and no count is greater than the number of rows. -/
theorem mergeRows?_range' (offset : UInt8) (row count read matched : Nat)
    (ends : offset.toNat + 8 * (row + count) ≤ 255) (readBefore : read ≤ row)
    (matchedBefore : matched ≤ read) (patch : Patch) (eeprom : Eeprom β κ) :
    let found := readRows eeprom (offset.toNat + 8 * row) count
    let merged := patch.run found.1.overrides
    mergeRows? offset ((List.range' row count).map (BitVec.ofNat 16)) (.ofNat read matched) patch
        eeprom =
      some ({ counters := .ofNat (read + found.1.overrides.length)
                (matched + Patch.hits merged.1)
              failed := found.1.failure.map
                (BitVec.ofNat 16 (row + found.1.overrides.length), ·) },
        merged.2, found.2) := by
  induction count generalizing row read matched patch eeprom with
  | zero => rfl
  | succ count ih =>
    have address : rowAddress? offset (BitVec.ofNat 16 row) =
        some (BitVec.ofNat 32 (offset.toNat + 8 * row)) := rowAddress?_ofNat (by omega)
    have word : UInt32.ofBitVec (BitVec.ofNat 32 (offset.toNat + 8 * row)) =
        UInt32.ofNat (offset.toNat + 8 * row) := rfl
    have next : offset.toNat + 8 * row + OverrideRow.width = offset.toNat + 8 * (row + 1) := by
      rw [OverrideRow.width]
      omega
    rw [List.range'_succ, List.map_cons, mergeRows?, address]
    simp only [Option.bind_eq_bind, Option.bind_some, readRows, word, next]
    rcases eeprom.read OverrideRow (UInt32.ofNat (offset.toNat + 8 * row)) with
      ⟨failure | stored, after⟩
    · rfl
    · have counted : add? (Counters.ofNat read matched).read 1 =
          some (BitVec.ofNat 16 (read + 1)) :=
        add?_ofNat read 1 (by omega)
      let hit := (patch.apply stored.setting).1.isSome
      have served : countIf? hit (Counters.ofNat read matched).matched =
          some (BitVec.ofNat 16 (matched + if hit then 1 else 0)) := countIf?_ofNat _ (by omega)
      have fewer : matched + (if hit then 1 else 0) ≤ read + 1 := by
        split <;> omega
      have later := ih (row + 1) (read + 1) (matched + if hit then 1 else 0) (by omega) (by omega)
        fewer (patch.apply stored.setting).2 after
      simp only [counted, served, hit, Option.bind_some]
      refine later.trans ?_
      generalize readRows after (offset.toNat + 8 * (row + 1)) count = found
      obtain ⟨⟨overrides, failure⟩, last⟩ := found
      simp only [List.length_cons, Patch.hits_run_cons, Nat.add_assoc, Nat.add_comm 1, hit]
      rfl

/-! ## Tables in words -/

/-- Nothing was read. -/
def RowsEnded.untouched : RowsEnded where
  counters := .ofNat 0 0
  failed := none

/-- Reads and merges the rows of one table, if it has rows and the board has the table. -/
def tuneTableInWords? (plan : Plan) (timing : Timing) (eeprom : Eeprom β κ) :
    Option (RowsEnded × Timing × Eeprom β κ) :=
  let rows := BitVec.ofNat 16 plan.rows
  if rows = 0 then
    some (.untouched, timing, eeprom)
  else
    match timing.access? plan.target.table with
    | none => some (.untouched, timing, eeprom)
    | some access => do
      let (ended, patch, eeprom) ← mergeRows? plan.offset
        ((List.range rows.toNat).map (BitVec.ofNat 16)) (.ofNat 0 0) { table := access.settings }
        eeprom
      return (ended, access.store patch.table, eeprom)

/-- What is reported of a table. -/
def RowsEnded.outcome (ended : RowsEnded) (plan : Plan) : TableOutcome where
  offset := plan.offset
  rows := (BitVec.ofNat 16 plan.rows).toNat
  read := ended.counters.read.toNat
  matched := ended.counters.matched.toNat
  failure := ended.failed.map (·.2)

/-- The failure of a table, with its row, as it stops a tuning. -/
def RowsEnded.stop? (ended : RowsEnded) (plan : Plan) : Option Stop :=
  ended.failed.map fun (row, failure) => { table := plan.target.name, row := row.toNat, failure }

/-- Goes through tables in order, or up to the first failure if asked to. -/
def tuneTablesInWords? (onFailure : OnFailure) : List Plan → Timing → Eeprom β κ →
    Option (Except Stop (List TableOutcome) × Timing × Eeprom β κ)
  | [], timing, eeprom => some (.ok [], timing, eeprom)
  | plan :: plans, timing, eeprom => do
    let (ended, timing, eeprom) ← tuneTableInWords? plan timing eeprom
    match onFailure, ended.stop? plan with
    | .stop, some stop => some (.error stop, timing, eeprom)
    | _, _ =>
      let (later, timing, eeprom) ← tuneTablesInWords? onFailure plans timing eeprom
      return (later.map (ended.outcome plan :: ·), timing, eeprom)

/-- The tuning in words; it has no result if a number does not fit. -/
def tuneInWords? (onFailure : OnFailure) (trusted : Som.Judgement) (record : Som.Record)
    (timing : Timing) (eeprom : Eeprom β κ) :
    Option (Except Stop Tuning × Timing × Eeprom β κ) :=
  if !trusted record then
    some (.ok .untrusted, timing, eeprom)
  else if record.version < firstTuningVersion then
    some (.ok (.tooOld record.version), timing, eeprom)
  else do
    match ← tuneTablesInWords? onFailure (plans record.tableOffsets) timing eeprom with
    | (.error stop, timing, eeprom) => return (.error stop, timing, eeprom)
    | (.ok tables, timing, eeprom) =>
      let dataRate := record.dataRate.toUInt32
      return (.ok (.tuned tables dataRate), timing.setDataRate dataRate, eeprom)

/-! ## Enough room -/

/-- All rows of a plan end where an offset can be at the latest. -/
def Plan.Ends (plan : Plan) : Prop :=
  plan.offset.toNat + 8 * plan.rows ≤ 255

theorem ends_of_mem_plans {offsets : Vector UInt8 (Som.tableCount + 1)} {plan : Plan}
    (member : plan ∈ plans offsets) : plan.Ends := by
  rw [plans_eq_ofFn] at member
  obtain ⟨i, rfl⟩ := List.mem_ofFn.mp member
  have start := (offsets.get i.castSucc).toNat_lt
  have stop := (offsets.get i.succ).toNat_lt
  have rows := get_rowCounts_le offsets i
  simp only [Plan.Ends, planFor]
  omega

theorem length_overrides_readRows_le (eeprom : Eeprom β κ) (address count : Nat) :
    (readRows eeprom address count).1.overrides.length ≤ count := by
  induction count generalizing eeprom address with
  | zero => exact Nat.le_refl 0
  | succ count ih =>
    rw [readRows]
    rcases eeprom.read OverrideRow (UInt32.ofNat address) with ⟨failure | row, after⟩
    · exact Nat.zero_le _
    · exact Nat.succ_le_succ (ih after (address + OverrideRow.width))

/-- A table without rows is left alone. -/
theorem tuneTable_of_no_rows {plan : Plan} (none : plan.rows = 0) (timing : Timing)
    (eeprom : Eeprom β κ) :
    tuneTable plan timing eeprom =
      ({ offset := plan.offset, rows := plan.rows }, timing, eeprom) := by
  rw [tuneTable]
  cases found : timing.table? plan.target.table with
  | none => rfl
  | some settings =>
    simp only [none, readRows, Patch.run]
    rw [Timing.setTable_of_table? found]
    rfl

/-- In words, a table is tuned as it is without. -/
theorem tuneTableInWords?_eq {plan : Plan} (ends : plan.Ends) (timing : Timing)
    (eeprom : Eeprom β κ) :
    ∃ ended, tuneTableInWords? plan timing eeprom =
        some (ended, (tuneTable plan timing eeprom).2) ∧
      ended.outcome plan = (tuneTable plan timing eeprom).1 ∧
      ended.stop? plan = (tuneTable plan timing eeprom).1.failure.map fun failure =>
        { table := plan.target.name, row := (tuneTable plan timing eeprom).1.read, failure } := by
  rw [Plan.Ends] at ends
  have exactly {number : Nat} (small : number ≤ plan.rows) :
      (BitVec.ofNat 16 number).toNat = number := by
    rw [BitVec.toNat_ofNat, Nat.mod_eq_of_lt (by omega)]
  have rows := exactly (Nat.le_refl plan.rows)
  have untouched : RowsEnded.untouched.outcome plan =
      { offset := plan.offset, rows := plan.rows } := by
    rw [RowsEnded.outcome, rows]
    rfl
  by_cases none : plan.rows = 0
  · have skipped : BitVec.ofNat 16 plan.rows = 0 := BitVec.eq_of_toNat_eq (rows.trans none)
    rw [tuneTable_of_no_rows none, tuneTableInWords?, if_pos skipped]
    exact ⟨_, rfl, untouched, rfl⟩
  · have some : BitVec.ofNat 16 plan.rows ≠ 0 := by
      intro zero
      rw [zero] at rows
      exact none rows.symm
    simp only [tuneTableInWords?, if_neg some, Timing.access?_eq, tuneTable]
    cases timing.table? plan.target.table with
    | none => exact ⟨_, rfl, untouched, rfl⟩
    | some settings =>
      have merged := mergeRows?_range' plan.offset 0 plan.rows 0 0 (by omega) (Nat.le_refl 0)
        (Nat.le_refl 0) { table := settings } eeprom
      have fewer := length_overrides_readRows_le eeprom plan.offset.toNat plan.rows
      simp only [Nat.mul_zero, Nat.add_zero, Nat.zero_add] at merged
      simp only [Option.map_some, rows, List.range_eq_range', merged, Option.bind_eq_bind,
        Option.bind_some]
      generalize readRows eeprom plan.offset.toNat plan.rows = found at fewer ⊢
      obtain ⟨⟨overrides, failure⟩, last⟩ := found
      have hits := (Patch.hits_run_le { table := settings } overrides).trans fewer
      refine ⟨_, rfl, ?_, ?_⟩
      · simp only [RowsEnded.outcome, Counters.ofNat, rows, exactly fewer, exactly hits,
          Option.map_map, Function.comp_def, Option.map_id']
      · simp only [RowsEnded.stop?, exactly fewer, Option.map_map, Function.comp_def]

/-- In words, tables are gone through as they are without. -/
theorem tuneTablesInWords?_eq (onFailure : OnFailure) {plans : List Plan}
    (ends : ∀ plan ∈ plans, plan.Ends) (timing : Timing) (eeprom : Eeprom β κ) :
    tuneTablesInWords? onFailure plans timing eeprom =
      some (tuneTables onFailure plans timing eeprom) := by
  induction plans generalizing timing eeprom with
  | nil => rfl
  | cons plan plans ih =>
    rw [List.forall_mem_cons] at ends
    obtain ⟨ended, table, outcome, stop⟩ := tuneTableInWords?_eq ends.1 timing eeprom
    have later := ih ends.2 (tuneTable plan timing eeprom).2.1 (tuneTable plan timing eeprom).2.2
    simp only [tuneTablesInWords?, table, Option.bind_eq_bind, Option.bind_some, stop, outcome]
    rcases next_or_stop onFailure (tuneTable plan timing eeprom).1 with
      goesOn | ⟨rfl, failure, fails⟩
    · rw [tuneTables_cons_of_next goesOn]
      cases onFailure with
      | nextTable =>
        simp only [later]
        rfl
      | stop =>
        simp only [goesOn rfl, later]
        rfl
    · rw [tuneTables_cons_of_stop fails]
      simp only [fails, Option.map_some]

/-- In words, memory is tuned as it is without: no address and no count overflows. -/
theorem tuneInWords?_eq (onFailure : OnFailure) (trusted : Som.Judgement) (record : Som.Record)
    (timing : Timing) (eeprom : Eeprom β κ) :
    tuneInWords? onFailure trusted record timing eeprom =
      some (tune onFailure trusted record timing eeprom) := by
  rw [tuneInWords?, tune]
  split
  · rfl
  split
  · rfl
  rw [tuneTablesInWords?_eq onFailure fun plan => ends_of_mem_plans]
  generalize tuneTables onFailure (plans record.tableOffsets) timing eeprom = run
  rcases run with ⟨stop | outcomes, final, after⟩
  · rfl
  · rfl

/-- **The rows of a record lie between its offsets, and words are wide enough for them.**  A table
has no rows if some table up to it ends at zero or if it has no room for one, and else as many as
there is room for; five tables have at most 93.  Where the offsets never go down, the rows of a
table lie before those of any later one.  No address of a row and no count of a tuning overflows,
whatever the bus and its failures. -/
theorem rows_within_offsets (offsets : Vector UInt8 (Som.tableCount + 1)) :
    let start (i : Fin Som.tableCount) := (offsets.get i.castSucc).toNat
    let stop (i : Fin Som.tableCount) := (offsets.get i.succ).toNat
    let rows (i : Fin Som.tableCount) := (rowCounts offsets).get i
    (∀ i,
      (rows i = 0 ↔ (∃ j ≤ i, offsets.get j.succ = 0) ∨ stop i < start i + 8) ∧
      (rows i ≠ 0 → IsGreatest {count | start i + 8 * count ≤ stop i} (rows i)) ∧
      ∀ row < rows i,
        rowBytes offsets i row ⊆ Set.Ico (start i) (stop i) ∧
        rowBytes offsets i row ⊆ Set.Iio 255 ∧
        ∃ (word : BitVec 16) (address : BitVec 32), word.toNat = row ∧
          rowAddress? (offsets.get i.castSucc) word = some address ∧
          address.toNat = start i + 8 * row) ∧
    ∑ i, rows i ≤ 93 ∧
    ((∀ k l : Fin (Som.tableCount + 1), k ≤ l → offsets.get k ≤ offsets.get l) →
      ∀ i j, i < j → ∀ row < rows i, ∀ other < rows j,
        ∀ byte ∈ rowBytes offsets i row, ∀ later ∈ rowBytes offsets j other, byte < later) ∧
    ∀ (β κ : Type) [I2c.Bus β] [Cache κ] (onFailure : OnFailure) (trusted : Som.Judgement)
      (record : Som.Record) (timing : Timing) (eeprom : Eeprom β κ),
      record.tableOffsets = offsets →
        tuneInWords? onFailure trusted record timing eeprom =
          some (tune onFailure trusted record timing eeprom) := by
  intro start stop rows
  refine ⟨fun i => ⟨get_rowCounts_eq_zero_iff, isGreatest_rowCounts, fun row inside => ?_⟩,
    sum_rowCounts_le offsets,
    fun ascending i j before row inside other _ byte member later laterMember =>
      lt_of_mem_rowBytes ascending before inside member laterMember,
    fun β κ _ _ onFailure trusted record timing eeprom _ =>
      tuneInWords?_eq onFailure trusted record timing eeprom⟩
  have ends := row_end_le inside
  have last := (offsets.get i.succ).toNat_lt
  refine ⟨rowBytes_subset inside, rowBytes_subset_Iio inside, BitVec.ofNat 16 row, _, ?_,
    rowAddress?_ofNat (by omega), ?_⟩
  · rw [BitVec.toNat_ofNat, Nat.mod_eq_of_lt (by omega)]
  · rw [BitVec.toNat_ofNat]
    exact Nat.mod_eq_of_lt (by omega)

/-- Offsets that go up, past an empty table, to the greatest byte. -/
theorem rows_within_offsets_of_ascending :
    let offsets : Vector UInt8 (Som.tableCount + 1) := #v[47, 63, 63, 87, 250, 255]
    let bus : I2c.ImageBus :=
      { names := ["i2c0"]
        devices := [{ bus := "i2c0", address := 0x52, image := List.replicate 255 1 }] }
    let eeprom : Eeprom I2c.ImageBus (Option FlushCount) :=
      { bus, device := { controller := 0, address := 0x52 }, cache := none }
    let record : Som.Record :=
      { magic := 0, partNumber := .replicate 3 0, assembly := .replicate 10 0
        date := .replicate 9 0, mac := .replicate 6 0, revision := 0, version := 2, features := 0
        memoryUnits := 0, tableOffsets := offsets, partNumberTail := .replicate 5 0
        dataRate := 3200 }
    let timing : Timing :=
      { controller := [⟨0x01010101, 0⟩], phy := [], trainedPhy := [], phyEngine := []
        setPoints := [⟨3733, .oneDimensional, []⟩], dataRates := #v[3733, 0, 0, 0] }
    let trusted : Som.Judgement := Som.TrustRule.everyRecord.judgement
    let first : Fin Som.tableCount := (0 : Fin 5)
    let fourth : Fin Som.tableCount := (3 : Fin 5)
    ((rowCounts offsets).get fourth = 20 ∧
      IsGreatest {count | 87 + 8 * count ≤ 250} ((rowCounts offsets).get fourth)) ∧
    (1 < (rowCounts offsets).get first ∧ rowBytes offsets first 1 ⊆ Set.Ico 47 63) ∧
    (∀ k l : Fin (Som.tableCount + 1), k ≤ l → offsets.get k ≤ offsets.get l) ∧
    (62 ∈ rowBytes offsets first 1 ∧ 239 ∈ rowBytes offsets fourth 19 ∧ 62 < 239) ∧
    record.tableOffsets = offsets ∧
    tuneInWords? .stop trusted record timing eeprom =
      some (tune .stop trusted record timing eeprom) := by
  intro offsets bus eeprom record timing trusted first fourth
  have count : (rowCounts offsets).get fourth = 20 := by decide
  have some : (rowCounts offsets).get fourth ≠ 0 := by decide
  have inside : 1 < (rowCounts offsets).get first := by decide
  have insideFourth : 19 < (rowCounts offsets).get fourth := by decide
  have ascending : ∀ k l : Fin (Som.tableCount + 1), k ≤ l → offsets.get k ≤ offsets.get l := by
    decide
  have member : 62 ∈ rowBytes offsets first 1 := ⟨by decide, by decide⟩
  have laterMember : 239 ∈ rowBytes offsets fourth 19 := ⟨by decide, by decide⟩
  obtain ⟨tables, -, order, tuning⟩ := rows_within_offsets offsets
  obtain ⟨-, greatest, -⟩ := tables fourth
  obtain ⟨-, -, within⟩ := tables first
  exact ⟨⟨count, greatest some⟩, ⟨inside, (within 1 inside).1⟩, ascending,
    ⟨member, laterMember, order ascending first fourth (by decide) 1 inside 19 insideFourth 62
      member 239 laterMember⟩, rfl,
    tuning _ _ .stop trusted record timing eeprom rfl⟩

end BoardIdentity.Dram
