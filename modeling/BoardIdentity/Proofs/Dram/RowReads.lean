import BoardIdentity.Dram.Tuning
import BoardIdentity.Proofs.Eeprom.Reads

/-!
# Reading rows from a bus that answers by offset

`RowAnswers` is what such a bus says to reads of one row.  Everything that reading a table of rows
can show is then a function of it: how many rows are readable, what they ask for, and what the
first failing read reports.  Reading row by row shows exactly that (`readRows_of_answersRows`).
-/

namespace BoardIdentity.Dram

/-- What a bus answers to reads of eight bytes, by their offset. -/
abbrev RowAnswers := UInt32 → Except I2c.Fault (Vector UInt8 8)

/-- The number of four bytes, lowest first. -/
def wordOfBytes (b₀ b₁ b₂ b₃ : UInt8) : UInt32 :=
  UInt32.ofNat (b₀.toNat + 256 * (b₁.toNat + 256 * (b₂.toNat + 256 * b₃.toNat)))

/-- The setting that the eight bytes of a row ask for: a register, then its value. -/
def settingOfBytes (bytes : Vector UInt8 8) : Setting where
  register := wordOfBytes bytes[0] bytes[1] bytes[2] bytes[3]
  value := wordOfBytes bytes[4] bytes[5] bytes[6] bytes[7]

namespace RowAnswers

/-- The answer to a read of row `k` of the rows from `start` on. -/
def row (answers : RowAnswers) (start k : Nat) : Except I2c.Fault (Vector UInt8 8) :=
  answers (UInt32.ofNat (start + 8 * k))

/-- The index of the first row that cannot be read; without one, the number of rows. -/
def readable (answers : RowAnswers) (start rows : Nat) : Nat :=
  (List.range rows).findIdx fun k => !(answers.row start k).isOk

/-- What the rows before the first one that cannot be read ask for. -/
def overrides (answers : RowAnswers) (start rows : Nat) : List Setting :=
  (List.range (answers.readable start rows)).filterMap fun k =>
    (answers.row start k).toOption.map settingOfBytes

/-- What the first row that cannot be read reports. -/
def failure? (answers : RowAnswers) (start rows : Nat) : Option EepromFault :=
  (List.range rows).findSome? fun k =>
    match answers.row start k with
    | .ok _ => none
    | .error fault => some (.readFailed fault)

/-! ## The first row and the rows after it -/

variable {answers : RowAnswers} {start rows : Nat}

theorem row_succ (k : Nat) : answers.row start (k + 1) = answers.row (start + 8) k := by
  unfold row
  congr 2
  omega

theorem readable_succ_of_error {fault : I2c.Fault} (first : answers.row start 0 = .error fault) :
    answers.readable start (rows + 1) = 0 := by
  simp [readable, List.range_succ_eq_map, List.findIdx_cons, first, Except.isOk, Except.toBool]

theorem readable_succ_of_ok {bytes : Vector UInt8 8} (first : answers.row start 0 = .ok bytes) :
    answers.readable start (rows + 1) = answers.readable (start + 8) rows + 1 := by
  simp [readable, List.range_succ_eq_map, List.findIdx_cons, first, Except.isOk, Except.toBool,
    List.findIdx_map, Function.comp_def, row_succ]

theorem overrides_succ_of_error {fault : I2c.Fault} (first : answers.row start 0 = .error fault) :
    answers.overrides start (rows + 1) = [] := by
  simp [overrides, readable_succ_of_error first]

theorem overrides_succ_of_ok {bytes : Vector UInt8 8} (first : answers.row start 0 = .ok bytes) :
    answers.overrides start (rows + 1) =
      settingOfBytes bytes :: answers.overrides (start + 8) rows := by
  have later : (fun k => (answers.row start k).toOption.map settingOfBytes) ∘ Nat.succ =
      fun k => (answers.row (start + 8) k).toOption.map settingOfBytes :=
    funext fun k => congrArg (·.toOption.map settingOfBytes) (row_succ k)
  rw [overrides, readable_succ_of_ok first, List.range_succ_eq_map, List.filterMap_cons, first,
    List.filterMap_map, later]
  rfl

theorem failure?_succ_of_error {fault : I2c.Fault} (first : answers.row start 0 = .error fault) :
    answers.failure? start (rows + 1) = some (.readFailed fault) := by
  simp [failure?, List.range_succ_eq_map, first]

theorem failure?_succ_of_ok {bytes : Vector UInt8 8} (first : answers.row start 0 = .ok bytes) :
    answers.failure? start (rows + 1) = answers.failure? (start + 8) rows := by
  simp [failure?, List.range_succ_eq_map, first, List.findSome?_map, Function.comp_def, row_succ]

/-- Every readable row asks for something. -/
@[simp]
theorem length_overrides : (answers.overrides start rows).length = answers.readable start rows := by
  induction rows generalizing start with
  | zero => rfl
  | succ rows ih =>
    cases first : answers.row start 0 with
    | error fault => rw [overrides_succ_of_error first, readable_succ_of_error first]; rfl
    | ok bytes =>
      rw [overrides_succ_of_ok first, readable_succ_of_ok first, List.length_cons, ih]

end RowAnswers

/-- A word read through the digits of its bytes is the word read byte by byte. -/
theorem little32_eq_wordOfBytes (bytes : Vector UInt8 4) :
    Endian.little32 bytes =
      wordOfBytes (bytes.get 0) (bytes.get 1) (bytes.get 2) (bytes.get 3) := by
  have digits : bytes.toList = [bytes[0], bytes[1], bytes[2], bytes[3]] := by
    refine List.ext_getElem (by simp) fun index inside _ => ?_
    rw [Vector.length_toList] at inside
    rw [Vector.getElem_toList]
    rcases index with _ | _ | _ | _ | index
    · rfl
    · rfl
    · rfl
    · rfl
    · omega
  rw [Endian.little32, digits]
  rfl

/-- The register of a stored row is its first word and the value its second. -/
theorem setting_ofBytes (bytes : Vector UInt8 8) :
    (Layout.ofBytes bytes : OverrideRow).setting = settingOfBytes bytes := by
  show Setting.mk (Endian.little32 (slice bytes 0 4)) (Endian.little32 (slice bytes 4 4)) = _
  have inField : ∀ (start : Nat) (inside : start + 4 ≤ 8) (index : Fin 4),
      (slice bytes start 4 inside).get index = bytes[start + index.val] :=
    fun start inside index => getElem_slice bytes start 4 inside index.val index.isLt
  rw [little32_eq_wordOfBytes, little32_eq_wordOfBytes]
  simp only [inField]
  rfl

end BoardIdentity.Dram

namespace BoardIdentity.Eeprom

variable {β κ : Type} [I2c.Bus β] [Cache κ] {eeprom : Eeprom β κ} {answers : Dram.RowAnswers}

/-- The bus of a handle answers every read of a row by its offset. -/
def AnswersRows (eeprom : Eeprom β κ) (answers : Dram.RowAnswers) : Prop :=
  I2c.AnswersBy eeprom.bus eeprom.device answers

theorem AnswersRows.read_fst (steady : eeprom.AnswersRows answers) (offset : UInt32) :
    (eeprom.read Dram.OverrideRow offset).1 = ofAnswer (answers offset) :=
  (eeprom.read_fst Dram.OverrideRow offset).trans
    (congrArg ofAnswer (I2c.AnswersBy.read_fst steady offset))

theorem AnswersRows.read_snd (steady : eeprom.AnswersRows answers) (offset : UInt32) :
    (eeprom.read Dram.OverrideRow offset).2.AnswersRows answers := by
  unfold AnswersRows
  rw [bus_read, device_read]
  exact I2c.AnswersBy.read_snd steady offset

end BoardIdentity.Eeprom

namespace BoardIdentity.Dram

variable {β κ : Type} [I2c.Bus β] [Cache κ]

/-! ## Row by row -/

/-- Reading rows one by one delivers the readable ones and the first failure, and the handle can
be read on as before. -/
theorem readRows_of_answersRows {answers : RowAnswers} {eeprom : Eeprom β κ}
    (steady : eeprom.AnswersRows answers) (start count : Nat) :
    (readRows eeprom start count).1 =
        { overrides := answers.overrides start count, failure := answers.failure? start count } ∧
      (readRows eeprom start count).2.AnswersRows answers := by
  induction count generalizing eeprom start with
  | zero => exact ⟨rfl, steady⟩
  | succ count ih =>
    have answered := steady.read_fst (UInt32.ofNat start)
    have later := steady.read_snd (UInt32.ofNat start)
    rw [readRows]
    rcases reading : eeprom.read OverrideRow (UInt32.ofNat start) with ⟨answer, after⟩
    rw [reading] at answered later
    cases first : answers.row start 0 with
    | error fault =>
      obtain rfl : answer = .error (.readFailed fault) := answered.trans (congrArg _ first)
      rw [RowAnswers.overrides_succ_of_error first, RowAnswers.failure?_succ_of_error first]
      exact ⟨rfl, later⟩
    | ok bytes =>
      obtain rfl : answer = .ok (Layout.ofBytes bytes) := answered.trans (congrArg _ first)
      obtain ⟨found, steadyLater⟩ := ih later (start + OverrideRow.width)
      refine ⟨?_, steadyLater⟩
      rw [RowAnswers.overrides_succ_of_ok first, RowAnswers.failure?_succ_of_ok first,
        ← setting_ofBytes]
      show RowsRead.mk (_ :: (readRows after (start + OverrideRow.width) count).1.overrides)
        (readRows after (start + OverrideRow.width) count).1.failure = _
      rw [found]
      rfl

end BoardIdentity.Dram
