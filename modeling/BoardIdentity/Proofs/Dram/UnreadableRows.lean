import BoardIdentity.Proofs.Dram.StoppedTuning
import BoardIdentity.Proofs.I2c.ImageLookup
import Mathlib.Data.Nat.Find

/-!
# When a tuning is stopped

On a bus that answers by offset, a tuning that stops at a failure is stopped by the first row, in
order of tables and rows, that cannot be read (`tune_stop_of_first_failure`), and else comes to its
end (`tune_stop_of_readable`).  On the bus in memory a row cannot be read if it holds the broken
byte or leaves the image, and that is all there is (`tune_stop_of_probed`): since the offsets of
tables are bytes, an image of 255 bytes has every row that a record can describe.
-/

namespace BoardIdentity.Dram

/-! ## The first failing row of a table -/

namespace RowAnswers

variable {answers : RowAnswers} {start rows row : Nat}

theorem failure?_of_readable
    (readable : ∀ k < rows, ∃ bytes, answers.row start k = .ok bytes) :
    answers.failure? start rows = none := by
  rw [failure?, List.findSome?_eq_none_iff]
  intro k member
  obtain ⟨bytes, read⟩ := readable k (List.mem_range.mp member)
  rw [read]

/-- The first row that cannot be read ends the reading, and tells why. -/
theorem readable_of_first {fault : I2c.Fault} (inside : row < rows)
    (failed : answers.row start row = .error fault)
    (before : ∀ k < row, ∃ bytes, answers.row start k = .ok bytes) :
    answers.readable start rows = row ∧
      answers.failure? start rows = some (.readFailed fault) := by
  induction row generalizing start rows with
  | zero =>
    obtain ⟨rows, rfl⟩ := Nat.exists_eq_succ_of_ne_zero (Nat.ne_of_gt inside)
    exact ⟨readable_succ_of_error failed, failure?_succ_of_error failed⟩
  | succ row ih =>
    obtain ⟨rows, rfl⟩ := Nat.exists_eq_succ_of_ne_zero (Nat.ne_of_gt (Nat.zero_lt_of_lt inside))
    obtain ⟨bytes, first⟩ := before 0 (Nat.zero_lt_succ row)
    rw [row_succ] at failed
    obtain ⟨count, told⟩ := ih (Nat.lt_of_succ_lt_succ inside) failed fun k early => by
      rw [← row_succ]
      exact before (k + 1) (Nat.succ_lt_succ early)
    rw [Nat.succ_eq_add_one, readable_succ_of_ok first, failure?_succ_of_ok first]
    exact ⟨congrArg (· + 1) count, told⟩

end RowAnswers

/-! ## The first failing row of a tuning -/

section Steady

variable {β κ : Type} [I2c.Bus β] [Cache κ] {trusted : Som.Judgement} {record : Som.Record}
  {timing : Timing} {answers : RowAnswers} {eeprom : Eeprom β κ}

/-- Every row of a table, if the board has the table, is answered with its bytes. -/
def Readable (answers : RowAnswers) (record : Som.Record) (timing : Timing)
    (i : Fin Som.tableCount) : Prop :=
  (timing.table? (tunedTables.get i)).isSome → ∀ row < (rowCounts record.tableOffsets).get i,
    ∃ bytes, answers.row (record.tableOffsets.get i.castSucc).toNat row = .ok bytes

theorem Readable.outcome {i : Fin Som.tableCount} (readable : Readable answers record timing i) :
    (answers.outcome (record.tableOffsets.get i.castSucc) ((rowCounts record.tableOffsets).get i)
      (timing.table? (tunedTables.get i))).failure = none := by
  cases present : timing.table? (tunedTables.get i) with
  | none => rfl
  | some table => exact RowAnswers.failure?_of_readable (readable (by rw [present]; rfl))

/-- Where every row of every table is readable, nothing stops the tuning. -/
theorem tune_stop_of_readable (steady : eeprom.AnswersRows answers)
    (believed : trusted record = true) (recent : 2 ≤ record.version)
    (readable : ∀ i, Readable answers record timing i) :
    ∃ outcomes rate,
      (tune .stop trusted record timing eeprom).1 = .ok (.tuned outcomes rate) := by
  have clean : ∀ outcome ∈ (tuneEach (plans record.tableOffsets) timing eeprom).1,
      outcome.failure = none := by
    rw [(tuneEach_plans_of_answersRows steady record.tableOffsets timing).1]
    intro outcome member
    obtain ⟨i, rfl⟩ := List.mem_ofFn.mp member
    exact (readable i).outcome
  rw [tune_stop_of_forall believed recent timing eeprom clean,
    tune_nextTable_eq_tuneEach believed recent]
  exact ⟨_, _, rfl⟩

/-- The first row that is not readable stops the tuning. -/
theorem tune_stop_of_first_failure (steady : eeprom.AnswersRows answers)
    (believed : trusted record = true) (recent : 2 ≤ record.version) {i : Fin Som.tableCount}
    {row : Nat} {fault : I2c.Fault} (present : (timing.table? (tunedTables.get i)).isSome)
    (inside : row < (rowCounts record.tableOffsets).get i)
    (failed : answers.row (record.tableOffsets.get i.castSucc).toNat row = .error fault)
    (rowsBefore : ∀ k < row,
      ∃ bytes, answers.row (record.tableOffsets.get i.castSucc).toNat k = .ok bytes)
    (tablesBefore : ∀ j < i, Readable answers record timing j) :
    (tune .stop trusted record timing eeprom).1 =
      .error { table := (targets.get i).name, row, failure := .readFailed fault } := by
  obtain ⟨table, present⟩ := Option.isSome_iff_exists.mp present
  obtain ⟨count, told⟩ := RowAnswers.readable_of_first inside failed rowsBefore
  have reported : ∀ j : Fin Som.tableCount,
      (tuneEach (plans record.tableOffsets) timing eeprom).1[j.val]? =
        some (answers.outcome (record.tableOffsets.get j.castSucc)
          ((rowCounts record.tableOffsets).get j) (timing.table? (tunedTables.get j))) := by
    intro j
    rw [(tuneEach_plans_of_answersRows steady record.tableOffsets timing).1, List.getElem?_ofFn,
      dif_pos j.isLt]
  have turn := reported i
  rw [present] at turn
  have clean : ∀ earlier < i.val, ∀ other,
      (tuneEach (plans record.tableOffsets) timing eeprom).1[earlier]? = some other →
        other.failure = none := by
    intro earlier early other found
    have before := reported ⟨earlier, Nat.lt_trans early i.isLt⟩
    rw [found] at before
    obtain rfl := Option.some.inj before
    exact (tablesBefore ⟨earlier, Nat.lt_trans early i.isLt⟩ early).outcome
  rw [tune_stop_of_failure believed recent timing eeprom turn told clean]
  simp only [RowAnswers.outcome, count]

end Steady

/-! ## Rows of an image -/

/-- The broken byte is one of the eight of the row at `start`. -/
def Covers (start : Nat) (broken : I2c.BrokenByte) : Prop :=
  start ≤ broken.offset.toNat ∧ broken.offset.toNat < start + 8

/-- The row at `start` holds the broken byte, or the image ends before the row does. -/
def Unreadable (broken : Option I2c.BrokenByte) (imageLength start : Nat) : Prop :=
  (∃ byte ∈ broken, Covers start byte) ∨ imageLength < start + 8

instance (start : Nat) (broken : I2c.BrokenByte) : Decidable (Covers start broken) :=
  inferInstanceAs (Decidable (_ ∧ _))

instance (broken : Option I2c.BrokenByte) (imageLength start : Nat) :
    Decidable (Unreadable broken imageLength start) :=
  inferInstanceAs (Decidable (_ ∨ _))

/-- What a read of an unreadable row reports: the broken byte's fault, if the row holds it. -/
def RowFault (broken : Option I2c.BrokenByte) (start : Nat) (fault : I2c.Fault) : Prop :=
  (∀ byte ∈ broken, Covers start byte → fault = byte.fault) ∧
    ((∀ byte ∈ broken, ¬ Covers start byte) → fault = .badArgument)

section Image

variable {bus : I2c.ImageBus} {device : I2c.Device} {stored : I2c.ImageDevice} {start : Nat}

theorem toNat_ofNat_row (small : start + 8 ≤ 255) : (UInt32.ofNat start).toNat = start :=
  UInt32.toNat_ofNat_of_lt' (by simp only [UInt32.size]; omega)

theorem isTouched_row_iff (small : start + 8 ≤ 255) (broken : I2c.BrokenByte) :
    broken.isTouched (UInt32.ofNat start) 8 = true ↔ Covers start broken := by
  rw [I2c.BrokenByte.isTouched_iff, toNat_ofNat_row small, Covers, UInt32.size,
    Nat.min_eq_left (by omega)]

theorem fetch_row (seen : bus.device? device = some stored) (small : start + 8 ≤ 255)
    (clear : ∀ byte ∈ bus.broken, ¬ Covers start byte) :
    (start + 8 ≤ stored.image.length →
        ∃ bytes, bus.fetch device (UInt32.ofNat start) 8 = .ok bytes) ∧
      (stored.image.length < start + 8 →
        bus.fetch device (UInt32.ofNat start) 8 = .error .badArgument) := by
  have untouched : ∀ broken, bus.broken = some broken →
      broken.isTouched (UInt32.ofNat start) 8 = false := by
    intro broken breaks
    rw [← Bool.not_eq_true, isTouched_row_iff small]
    exact clear broken breaks
  have answered := I2c.ImageBus.fetch_of_not_touched seen untouched
  rw [toNat_ofNat_row small] at answered
  refine ⟨fun inside => ?_, answered.2⟩
  obtain ⟨bytes, fetched, -⟩ := answered.1 inside
  exact ⟨bytes, fetched⟩

theorem exists_bytes_of_not_unreadable (seen : bus.device? device = some stored)
    (small : start + 8 ≤ 255) (whole : ¬ Unreadable bus.broken stored.image.length start) :
    ∃ bytes, bus.fetch device (UInt32.ofNat start) 8 = .ok bytes := by
  obtain ⟨clear, inside⟩ := not_or.mp whole
  exact (fetch_row seen small fun byte breaks covers => clear ⟨byte, breaks, covers⟩).1
    (Nat.not_lt.mp inside)

theorem exists_fault_of_unreadable (seen : bus.device? device = some stored)
    (small : start + 8 ≤ 255) (bad : Unreadable bus.broken stored.image.length start) :
    ∃ fault, RowFault bus.broken start fault ∧
      bus.fetch device (UInt32.ofNat start) 8 = .error fault := by
  by_cases covered : ∃ byte ∈ bus.broken, Covers start byte
  · obtain ⟨byte, breaks, covers⟩ := covered
    refine ⟨byte.fault, ⟨fun other breaksToo _ => ?_,
      fun clear => absurd covers (clear byte breaks)⟩,
      I2c.ImageBus.fetch_of_touched breaks ((isTouched_row_iff small byte).mpr covers)⟩
    rw [Option.some.inj (breaks.symm.trans breaksToo)]
  · have clear : ∀ byte ∈ bus.broken, ¬ Covers start byte :=
      fun byte breaks covers => covered ⟨byte, breaks, covers⟩
    exact ⟨.badArgument, ⟨fun byte breaks covers => absurd covers (clear byte breaks),
      fun _ => rfl⟩, (fetch_row seen small clear).2 (bad.resolve_left covered)⟩

end Image

/-- Of the rows that fail, in order of tables and rows, there is a first. -/
theorem exists_first_row {n : Nat} {bad : Fin n → Nat → Prop} (some : ∃ i row, bad i row) :
    ∃ i row, bad i row ∧ ∀ j k, bad j k → i < j ∨ i = j ∧ row ≤ k := by
  classical
  have tables : ∃ index, ∃ inside : index < n, ∃ row, bad ⟨index, inside⟩ row := by
    obtain ⟨i, row, failing⟩ := some
    exact ⟨i.val, i.isLt, row, failing⟩
  obtain ⟨inside, rows⟩ := Nat.find_spec tables
  refine ⟨⟨Nat.find tables, inside⟩, Nat.find rows, Nat.find_spec rows, fun j k failing => ?_⟩
  rcases Nat.lt_or_eq_of_le (Nat.find_min' tables ⟨j.isLt, k, failing⟩) with before | same
  · exact Or.inl before
  · obtain rfl : (⟨Nat.find tables, inside⟩ : Fin n) = j := Fin.ext same
    exact Or.inr ⟨rfl, Nat.find_min' rows failing⟩

/-! ## The bus in memory -/

section Probed

variable {κ : Type} [Cache κ] {trusted : Som.Judgement} {record : Som.Record}

/-- A row that the record describes, of a table that the board has. -/
structure IsRow (record : Som.Record) (timing : Timing) (i : Fin Som.tableCount) (row : Nat) :
    Prop where
  present : (timing.table? (tunedTables.get i)).isSome
  inside : row < (rowCounts record.tableOffsets).get i

/-- Where a row starts in the EEPROM. -/
def rowStart (record : Som.Record) (i : Fin Som.tableCount) (row : Nat) : Nat :=
  (record.tableOffsets.get i.castSucc).toNat + 8 * row

theorem IsRow.end_le {timing : Timing} {i : Fin Som.tableCount} {row : Nat}
    (isRow : IsRow record timing i row) : rowStart record i row + 8 ≤ 255 := by
  have ends := row_end_le isRow.inside
  have byte := (record.tableOffsets.get i.succ).toNat_lt
  simp only [rowStart]
  omega

/-- **A tuning is stopped exactly by the first row that cannot be read.**  The handle is one that a
probe came to, whatever was read, broken or counted since; the image is that of the first device of
the name and address.  The tuning tells the table, the row and the fault of the first unreadable
row.  It is never stopped if the image has 255 bytes and none of them is broken. -/
theorem tune_stop_of_probed {before : I2c.ImageBus} {name : String} {address : UInt8} {cache : κ}
    {handle eeprom : Eeprom I2c.ImageBus κ}
    (probed : (Eeprom.find before name address cache).1 = .ok handle)
    (device : eeprom.device = handle.device) (names : eeprom.bus.names = before.names)
    (devices : eeprom.bus.devices = before.devices) (believed : trusted record = true)
    (recent : 2 ≤ record.version) (timing : Timing) :
    ∃ stored, before.first? name address = some stored ∧
      let result := (tune .stop trusted record timing eeprom).1
      let bad := fun i row => IsRow record timing i row ∧
        Unreadable eeprom.bus.broken stored.image.length (rowStart record i row)
      ((∃ stop, result = .error stop) ↔ ∃ i row, bad i row) ∧
        (∀ i row, bad i row → (∀ j k, bad j k → i < j ∨ i = j ∧ row ≤ k) →
          ∃ fault, RowFault eeprom.bus.broken (rowStart record i row) fault ∧
            result = .error
              { table := (targets.get i).name, row, failure := .readFailed fault }) ∧
        (255 ≤ stored.image.length → (∀ byte ∈ eeprom.bus.broken, 255 ≤ byte.offset.toNat) →
          ∃ outcomes rate, result = .ok (.tuned outcomes rate)) := by
  have resolved : before.resolve name address = .ok handle.device := Eeprom.probe_of_find probed
  obtain ⟨stored, first⟩ := Option.isSome_iff_exists.mp
    (I2c.ImageBus.resolve_eq_ok_iff.mp resolved).2.2.2
  have seen : eeprom.bus.device? eeprom.device = some stored := by
    rw [← first, ← I2c.ImageBus.device?_of_resolve resolved, device]
    simp only [I2c.ImageBus.device?, names, devices]
  have steady : eeprom.AnswersRows (eeprom.bus.fetch eeprom.device · 8) :=
    I2c.ImageBus.answersBy_fetch eeprom.bus eeprom.device (by decide)
  refine ⟨stored, first, ?_⟩
  intro result bad
  have whole : ∀ {i row}, IsRow record timing i row → ¬ bad i row →
      ∃ bytes, eeprom.bus.fetch eeprom.device (UInt32.ofNat (rowStart record i row)) 8 =
        .ok bytes := fun isRow good =>
    exists_bytes_of_not_unreadable seen isRow.end_le fun unreadable => good ⟨isRow, unreadable⟩
  have tuned : (∀ i row, ¬ bad i row) →
      ∃ outcomes rate, result = .ok (.tuned outcomes rate) := fun none =>
    tune_stop_of_readable steady believed recent fun i present row inside =>
      whole ⟨present, inside⟩ (none i row)
  have stopped : ∀ i row, bad i row → (∀ j k, bad j k → i < j ∨ i = j ∧ row ≤ k) →
      ∃ fault, RowFault eeprom.bus.broken (rowStart record i row) fault ∧
        result = .error { table := (targets.get i).name, row, failure := .readFailed fault } := by
    rintro i row ⟨isRow, unreadable⟩ first
    obtain ⟨fault, told, failed⟩ := exists_fault_of_unreadable seen isRow.end_le unreadable
    refine ⟨fault, told, tune_stop_of_first_failure steady believed recent isRow.present
      isRow.inside failed (fun k early => ?_) fun j early present k inside => ?_⟩
    · refine whole ⟨isRow.present, Nat.lt_trans early isRow.inside⟩ fun isBad => ?_
      have := first i k isBad
      omega
    · refine whole ⟨present, inside⟩ fun isBad => ?_
      have := first j k isBad
      omega
  refine ⟨⟨?_, fun some => ?_⟩, stopped, fun long unbroken => tuned fun i row => ?_⟩
  · rintro ⟨stop, isError⟩
    by_contra none
    obtain ⟨outcomes, rate, isTuned⟩ := tuned fun i row isBad => none ⟨i, row, isBad⟩
    cases isError.symm.trans isTuned
  · obtain ⟨i, row, isBad, first⟩ := exists_first_row some
    obtain ⟨fault, -, isError⟩ := stopped i row isBad first
    exact ⟨_, isError⟩
  · -- Every row of a record ends within the first 255 bytes.
    rintro ⟨isRow, ⟨byte, breaks, covers⟩ | short⟩
    · have inside := Nat.lt_of_lt_of_le covers.2 isRow.end_le
      exact absurd inside (Nat.not_lt.mpr (unbroken byte breaks))
    · exact absurd (Nat.lt_of_lt_of_le short isRow.end_le) (Nat.not_lt.mpr long)

/-- The second table has three rows: the second holds the broken byte and the third leaves the
image.  The third table's offsets run backwards, and the fourth table is not on the board. -/
theorem tune_stop_of_probed_broken_byte :
    let before : I2c.ImageBus :=
      { names := ["i2c0"]
        devices := [{ bus := "i2c0", address := 0x52, image := List.replicate 36 0 }]
        broken := some { offset := 30, fault := .busError } }
    let handle : Eeprom I2c.ImageBus (Option FlushCount) :=
      { bus := { before with probes := 1 }, device := { controller := 0, address := 0x52 }
        cache := none }
    let record : Som.Record :=
      { magic := 0, partNumber := .replicate 3 0, assembly := .replicate 10 0
        date := .replicate 9 0, mac := .replicate 6 0, revision := 0, version := 2, features := 0
        memoryUnits := 0, tableOffsets := #v[0, 16, 40, 8, 40, 48]
        partNumberTail := .replicate 5 0, dataRate := 3200 }
    let timing : Timing :=
      { controller := [], phy := [⟨3, 5⟩], trainedPhy := [], phyEngine := []
        setPoints := [], dataRates := #v[3733, 0, 0, 0] }
    let trusted : Som.Judgement := Som.TrustRule.everyRecord.judgement
    (Eeprom.find before "i2c0" 0x52 handle.cache).1 = .ok handle ∧ trusted record = true ∧
      2 ≤ record.version ∧
      (tune .stop trusted record timing handle).1 =
        .error { table := "DDR PHY", row := 1, failure := .readFailed .busError } := by
  intro before handle record timing trusted
  have probed : (Eeprom.find before "i2c0" 0x52 handle.cache).1 = .ok handle := rfl
  have believed : trusted record = true := rfl
  have recent : 2 ≤ record.version := by decide
  obtain ⟨stored, first, -, named, -⟩ :=
    tune_stop_of_probed probed rfl rfl rfl believed recent timing
  obtain rfl := Option.some.inj first
  let second : Fin Som.tableCount := ⟨1, by decide⟩
  have earliest : ∀ j, ∀ k < (rowCounts record.tableOffsets).get j,
      Unreadable before.broken 36 (rowStart record j k) → second < j ∨ second = j ∧ 1 ≤ k := by
    decide +kernel
  obtain ⟨fault, told, result⟩ := named second 1 ⟨⟨rfl, by decide⟩, by decide +kernel⟩
    fun j k isBad => earliest j k isBad.1.inside isBad.2
  rw [told.1 _ rfl (by decide)] at result
  exact ⟨probed, believed, recent, result⟩

end Probed

end BoardIdentity.Dram
