import BoardIdentity.Proofs.Dram.OverlaidTiming
import BoardIdentity.Proofs.Dram.StoppedTuning
import BoardIdentity.Proofs.Dram.StoredRows
import BoardIdentity.Proofs.I2c.ImageLookup

/-!
# Provisioning and tuning

What provisioning puts into an EEPROM, tuning gets out of it again (`tune_of_provisioned`).  The
image is the record, filler, the overrides of all tables back to back, and a rest
(`provisionedImage`); the timing that comes out is `Timing.overlaidWith`, in which the last override
of each register has its way.
-/

namespace BoardIdentity.Dram

/-! ## The image -/

/-- The contents of a provisioned EEPROM; the filler ends where the first table starts. -/
def provisionedImage (record : Som.Record) (filler : List UInt8)
    (overrides : TableName → List Setting) (rest : List UInt8) : List UInt8 :=
  record.toBytes.toList ++ filler ++ storedRows (inTableOrder overrides) ++ rest

variable {record : Som.Record} {filler rest : List UInt8} {overrides : TableName → List Setting}

section Answers

variable {bus : I2c.ImageBus} {device : I2c.Device} {found : I2c.ImageDevice}

theorem fetch_record (whole : bus.broken = none) (seen : bus.device? device = some found)
    (contents : found.image = provisionedImage record filler overrides rest) :
    bus.fetch device 0 47 = .ok record.toBytes :=
  I2c.ImageBus.fetch_eq_ok [] (filler ++ storedRows (inTableOrder overrides) ++ rest) whole seen
    (by simp only [contents, provisionedImage, List.append_assoc, List.nil_append]) rfl

/-- Every table of a provisioned EEPROM is answered row by row. -/
theorem stored_of_provisioned (whole : bus.broken = none) (seen : bus.device? device = some found)
    (contents : found.image = provisionedImage record filler overrides rest)
    (provisioned : Provisioned record (47 + filler.length) overrides) (i : Fin Som.tableCount) :
    RowAnswers.Stored (bus.fetch device · 8) (record.tableOffsets.get i.castSucc).toNat
      (overrides (tunedTables.get i)) := by
  intro index inside
  obtain ⟨after, rows⟩ := storedRows_inTableOrder overrides i inside
  have start := provisioned.toNat_offset i.castSucc
  have next := provisioned.next i
  have bound := (record.tableOffsets.get i.succ).toNat_lt
  refine I2c.ImageBus.fetch_eq_ok (record.toBytes.toList ++ filler ++
    storedRows ((tunedTables.toList.take i.val).flatMap overrides) ++
    storedRows ((overrides (tunedTables.get i)).take index))
    (after ++ rest) whole seen ?_ ?_
  · rw [contents, provisionedImage, rows]
    simp only [List.append_assoc]
  · -- The row ends where the next table starts at the latest, and that offset is a byte.
    rw [UInt32.toNat_ofNat_of_lt' (by simp only [UInt32.size]; omega)]
    simp only [List.length_append, Vector.length_toList, length_storedRows, List.length_take,
      Fin.val_castSucc, Nat.min_eq_left (Nat.le_of_lt inside)] at start ⊢
    omega

end Answers

/-! ## The tables -/

/-- Overrides that a table takes in full: both are in ascending order of registers, and no override
is for a register that the table lacks. -/
structure Fits (overrides table : List Setting) : Prop where
  sorted : InOrder table
  inOrder : InOrder overrides
  present : ∀ override ∈ overrides, override.register ∈ table.map (·.register)

instance (overrides table : List Setting) : Decidable (Fits overrides table) :=
  decidable_of_iff (InOrder table ∧ InOrder overrides ∧
      ∀ override ∈ overrides, override.register ∈ table.map (·.register))
    ⟨fun ⟨sorted, inOrder, present⟩ => ⟨sorted, inOrder, present⟩,
      fun ⟨sorted, inOrder, present⟩ => ⟨sorted, inOrder, present⟩⟩

theorem Fits.merge {overrides table : List Setting} (fits : Fits overrides table) :
    (Reference.merge table overrides).matched = overrides.length ∧
      (Reference.merge table overrides).table = overlaid table overrides := by
  have behind : Patch.Behind { table } overrides := by
    simp [Patch.Behind]
  have run := Patch.run_of_sorted fits.sorted fits.inOrder behind fits.present
  rwa [Reference.hits_run_eq_merge, Reference.table_run_eq_merge] at run

/-- What is reported of a table all of whose overrides were read and found their entry. -/
def TableOutcome.full (offset : UInt8) (overrides : List Setting) : TableOutcome where
  offset
  rows := overrides.length
  read := overrides.length
  matched := overrides.length

/-- The report on all tables, if all were read and patched in full. -/
def fullReport (offsets : Vector UInt8 (Som.tableCount + 1))
    (overrides : TableName → List Setting) : List TableOutcome :=
  List.ofFn fun i : Fin Som.tableCount =>
    TableOutcome.full (offsets.get i.castSucc) (overrides (tunedTables.get i))

/-- A table whose rows are all there, and fit it, is read in full and takes them all. -/
theorem Fits.outcome_of_stored {answers : RowAnswers} {offset : UInt8}
    {overrides table : List Setting} (fits : Fits overrides table)
    (stored : answers.Stored offset.toNat overrides) :
    answers.outcome offset overrides.length (some table) =
        TableOutcome.full offset overrides ∧
      answers.patched offset overrides.length table = overlaid table overrides := by
  obtain ⟨read, failure⟩ := RowAnswers.overrides_of_stored stored
  obtain ⟨matched, merged⟩ := fits.merge
  have count := congrArg List.length read
  rw [RowAnswers.length_overrides] at count
  simp only [RowAnswers.outcome, RowAnswers.patched, count, read, failure, matched, merged]
  exact ⟨rfl, trivial⟩

/-! ## The tuning -/

variable {β κ : Type} [I2c.Bus β] [Cache κ] {timing : Timing}

theorem exists_table_of_two_points (points : 2 ≤ timing.setPoints.length) (i : Fin Som.tableCount) :
    ∃ table, timing.table? (tunedTables.get i) = some table := by
  rcases i with ⟨_ | _ | _ | _ | _ | i, inside⟩
  · exact ⟨_, rfl⟩
  · exact ⟨_, rfl⟩
  · exact ⟨_, rfl⟩
  · have first : 0 < timing.setPoints.length := Nat.lt_of_succ_lt points
    exact ⟨_, congrArg (Option.map _) (List.getElem?_eq_getElem first)⟩
  · exact ⟨_, congrArg (Option.map _) (List.getElem?_eq_getElem points)⟩
  · exact absurd inside (Nat.not_lt.mpr (Nat.le_add_left 5 i))

/-- Where every table is there, with all its rows, and takes them, nothing fails and the timing is
overlaid. -/
theorem tune_of_stored {answers : RowAnswers} {eeprom : Eeprom β κ} {trusted : Som.Judgement}
    (steady : eeprom.AnswersRows answers) (believed : trusted record = true)
    (recent : 2 ≤ record.version)
    (counts : ∀ i : Fin Som.tableCount,
      (rowCounts record.tableOffsets).get i = (overrides (tunedTables.get i)).length)
    (stored : ∀ i : Fin Som.tableCount,
      answers.Stored (record.tableOffsets.get i.castSucc).toNat (overrides (tunedTables.get i)))
    (fits : ∀ i : Fin Som.tableCount, ∃ table,
      timing.table? (tunedTables.get i) = some table ∧ Fits (overrides (tunedTables.get i)) table)
    (onFailure : OnFailure) :
    ∃ final, tune onFailure trusted record timing eeprom =
      (.ok (.tuned (fullReport record.tableOffsets overrides) record.dataRate.toUInt32),
        timing.overlaidWith overrides record.dataRate.toUInt32, final) := by
  obtain ⟨outcomes, tables⟩ := tuneEach_plans_of_answersRows steady record.tableOffsets timing
  have full : (tuneEach (plans record.tableOffsets) timing eeprom).1 =
      fullReport record.tableOffsets overrides := by
    refine outcomes.trans (congrArg List.ofFn (funext fun i => ?_))
    obtain ⟨table, present, fit⟩ := fits i
    rw [present, counts]
    exact (fit.outcome_of_stored (stored i)).1
  have patched : ∀ i : Fin Som.tableCount,
      (tuneEach (plans record.tableOffsets) timing eeprom).2.1.table? (tunedTables.get i) =
        (timing.table? (tunedTables.get i)).map
          (overlaid · (overrides (tunedTables.get i))) := by
    intro i
    obtain ⟨table, present, fit⟩ := fits i
    rw [tables, present, counts, Option.map_some, (fit.outcome_of_stored (stored i)).2]
    rfl
  have clean : ∀ outcome ∈ (tuneEach (plans record.tableOffsets) timing eeprom).1,
      outcome.failure = none := by
    rw [full]
    intro outcome member
    obtain ⟨i, rfl⟩ := List.mem_ofFn.mp member
    rfl
  have overlay := Timing.setDataRate_eq_overlaidWith patched
    (fun _ other => table?_tuneEach_plans_of_forall_ne record.tableOffsets timing eeprom other)
    (besidesTables_tuneEach (plans record.tableOffsets) timing eeprom) record.dataRate.toUInt32
  have passing := tune_nextTable_eq_tuneEach believed recent timing eeprom
  rw [full, overlay] at passing
  cases onFailure with
  | nextTable => exact ⟨_, passing⟩
  | stop => exact ⟨_, (tune_stop_of_forall believed recent timing eeprom clean).trans passing⟩

/-! ## The round trip -/

/-- The record of a provisioned EEPROM is read back, and the rows are answered as before. -/
theorem readModule_of_provisioned {eeprom : Eeprom I2c.ImageBus κ} {found : I2c.ImageDevice}
    (whole : eeprom.bus.broken = none) (seen : eeprom.bus.device? eeprom.device = some found)
    (contents : found.image = provisionedImage record filler overrides rest) :
    eeprom.readModule.1 = .ok record ∧
      eeprom.readModule.2.AnswersRows (eeprom.bus.fetch eeprom.device · 8) := by
  have answered : (I2c.Bus.read eeprom.bus eeprom.device 0 47).1 = .ok record.toBytes :=
    (I2c.ImageBus.read_fst_eq_fetch eeprom.bus eeprom.device 0 (by decide)).trans
      (fetch_record whole seen contents)
  constructor
  · refine (eeprom.read_fst Som.Record 0).trans ((congrArg Eeprom.ofAnswer answered).trans ?_)
    exact congrArg Except.ok (Som.Record.ofBytes_toBytes record)
  · have later := (eeprom.bus.read eeprom.device 0 47).2.answersBy_fetch eeprom.device
      (by decide : 8 < UInt32.size)
    rw [I2c.ImageBus.fetch_read] at later
    rw [Eeprom.AnswersRows, Eeprom.readModule, Eeprom.bus_read, Eeprom.device_read]
    exact later

/-- **What was provisioned is what the module record says and what the tuned timing has.**  The
device is found by its bus name and address and its record is read back.  If the record is trusted,
then, whatever is to be done after a failure, every table is read in full and takes all its
overrides, and the timing is overlaid with them.  Since offsets are bytes, all rows end before
offset 256. -/
theorem tune_of_provisioned {bus : I2c.ImageBus} {found : I2c.ImageDevice}
    (reached : bus.Reaches found) (whole : bus.broken = none)
    (contents : found.image = provisionedImage record filler overrides rest)
    (recent : 2 ≤ record.version)
    (provisioned : Provisioned record (47 + filler.length) overrides)
    (points : 2 ≤ timing.setPoints.length)
    (fits : ∀ (i : Fin Som.tableCount) (table : List Setting),
      timing.table? (tunedTables.get i) = some table → Fits (overrides (tunedTables.get i)) table)
    (cache : κ) :
    ∃ eeprom after, Eeprom.find bus found.bus found.address cache = (.ok eeprom, after) ∧
      ∃ later, eeprom.readModule = (.ok record, later) ∧
        ∀ trusted : Som.Judgement, trusted record = true → ∀ onFailure, ∃ final,
          tune onFailure trusted record timing later =
            (.ok (.tuned (fullReport record.tableOffsets overrides) record.dataRate.toUInt32),
              timing.overlaidWith overrides record.dataRate.toUInt32, final) := by
  obtain ⟨device, resolved, seen⟩ := reached.resolve
  let eeprom : Eeprom I2c.ImageBus κ :=
    { bus := (bus.probe found.bus found.address).2, device, cache }
  have probed : I2c.Bus.probe bus found.bus found.address = (.ok device, eeprom.bus) :=
    Prod.ext resolved rfl
  obtain ⟨read, steady⟩ :=
    readModule_of_provisioned (show eeprom.bus.broken = none from whole) seen contents
  refine ⟨eeprom, eeprom.bus, by rw [Eeprom.find, probed], eeprom.readModule.2, Prod.ext read rfl,
    fun trusted believed onFailure => ?_⟩
  have present : ∀ i : Fin Som.tableCount, ∃ table,
      timing.table? (tunedTables.get i) = some table ∧
        Fits (overrides (tunedTables.get i)) table := by
    intro i
    obtain ⟨table, there⟩ := exists_table_of_two_points points i
    exact ⟨table, there, fits i table there⟩
  exact tune_of_stored steady believed recent (provisioned.get_rowCounts (by omega))
    (stored_of_provisioned whole seen contents provisioned) present onFailure

/-- Two overrides of a register that the controller's table has twice, tables without overrides in
the middle, and another device before the EEPROM. -/
theorem tune_of_provisioned_twice :
    let record : Som.Record :=
      { magic := 0x4356, partNumber := .replicate 3 0x31, assembly := .replicate 10 0x41
        date := .replicate 9 0x32, mac := #v[0, 1, 2, 3, 4, 5], revision := 1, version := 3
        features := 7, memoryUnits := 16, tableOffsets := #v[48, 64, 64, 64, 72, 80]
        partNumberTail := .replicate 5 0, dataRate := 3200 }
    let overrides : TableName → List Setting := fun name =>
      if name = .controller then [⟨9, 1⟩, ⟨9, 2⟩]
      else if name = .setPoint 0 then [⟨4, 5⟩]
      else if name = .setPoint 1 then [⟨0x54000000, 6⟩]
      else []
    let found : I2c.ImageDevice :=
      { bus := "i2c0", address := 0x52, image := provisionedImage record [0xff] overrides [7, 7] }
    let bus : I2c.ImageBus :=
      { names := ["spi", "i2c0"]
        devices := [{ bus := "i2c0", address := 0x50, image := [] }, found] }
    let timing : Timing :=
      { controller := [⟨3, 0⟩, ⟨9, 0⟩, ⟨9, 7⟩], phy := [], trainedPhy := [⟨9, 9⟩], phyEngine := []
        setPoints := [⟨4000, .oneDimensional, [⟨4, 0⟩]⟩, ⟨4000, .twoDimensional, [⟨0x54000000, 0⟩]⟩,
          ⟨667, .oneDimensional, []⟩]
        dataRates := #v[4000, 667, 0, 0] }
    let trusted : Som.Judgement := Som.TrustRule.everyRecord.judgement
    (bus.Reaches found ∧ bus.broken = none ∧ 2 ≤ record.version ∧
      Provisioned record (47 + [(0xff : UInt8)].length) overrides ∧ 2 ≤ timing.setPoints.length ∧
      (∀ (i : Fin Som.tableCount) (table : List Setting),
        timing.table? (tunedTables.get i) = some table →
          Fits (overrides (tunedTables.get i)) table)) ∧
    ∃ eeprom after, Eeprom.find bus "i2c0" 0x52 (none : Option FlushCount) = (.ok eeprom, after) ∧
      ∃ later, eeprom.readModule = (.ok record, later) ∧
        ∀ onFailure, ∃ final, tune onFailure trusted record timing later =
          (.ok (.tuned
            [{ offset := 48, rows := 2, read := 2, matched := 2 }, { offset := 64, rows := 0 },
              { offset := 64, rows := 0 }, { offset := 64, rows := 1, read := 1, matched := 1 },
              { offset := 72, rows := 1, read := 1, matched := 1 }] 3200),
            { controller := [⟨3, 0⟩, ⟨9, 2⟩, ⟨9, 7⟩], phy := [], trainedPhy := [⟨9, 9⟩]
              phyEngine := []
              setPoints := [⟨3200, .oneDimensional, [⟨4, 5⟩]⟩,
                ⟨3200, .twoDimensional, [⟨0x54000000, 6⟩]⟩, ⟨667, .oneDimensional, []⟩]
              dataRates := #v[3200, 667, 0, 0] }, final) := by
  intro record overrides found bus timing trusted
  have reached : bus.Reaches found :=
    ⟨by decide, by decide, by decide, [_], [], rfl, by decide⟩
  have recent : 2 ≤ record.version := by decide
  have provisioned : Provisioned record (47 + [(0xff : UInt8)].length) overrides :=
    ⟨by decide, by decide +kernel +zetaReduce⟩
  have points : 2 ≤ timing.setPoints.length := by decide
  have allFit : ∀ i : Fin Som.tableCount, ∀ table ∈ timing.table? (tunedTables.get i),
      Fits (overrides (tunedTables.get i)) table := by
    decide +kernel +zetaReduce
  have fits := fun i table there => allFit i table there
  obtain ⟨eeprom, after, probed, later, read, tuned⟩ :=
    tune_of_provisioned reached rfl rfl recent provisioned points fits (none : Option FlushCount)
  refine ⟨⟨reached, rfl, recent, provisioned, points, fits⟩, eeprom, after, probed, later, read,
    fun onFailure => ?_⟩
  obtain ⟨final, run⟩ := tuned trusted rfl onFailure
  exact ⟨final, run⟩

end BoardIdentity.Dram
