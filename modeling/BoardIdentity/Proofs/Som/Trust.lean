import BoardIdentity.Proofs.Dram.TuningReads
import BoardIdentity.Som.Product

/-!
# What a record tells, trusted or not

Four things are asked of a module's record: the network address, the memory size, the product
information, and the tuning of the memory.  Each asks the board's judgement for itself.  `Told` puts
their answers together, and `told_of_judgement` says of all of them at once that the judgement
decides: two records that it rejects tell the same, which is nothing of their own, and no answer to
a record that it accepts is refused.
-/

namespace BoardIdentity.Som

variable {β κ : Type} [I2c.Bus β] [Cache κ]

/-- What is asked for besides the record. -/
structure Inquiry (β κ : Type) where
  defaultSize : Nat
  partPrefix : String
  onFailure : Dram.OnFailure
  timing : Dram.Timing
  eeprom : Eeprom β κ

/-- All that is told of a module, with what the tuning asked of the bus and its answers. -/
structure Told (β κ : Type) where
  mac : Option MacAddress
  memorySize : Nat
  product : Option Product
  tuning : Except Dram.Stop Dram.Tuning
  timing : Dram.Timing
  eeprom : Eeprom β κ
  exchanges : List I2c.Exchange

/-- All that a record tells under a judgement. -/
def told (trusted : Judgement) (inquiry : Inquiry β κ) (record : Record) : Told β κ :=
  let (tuning, timing, eeprom) :=
    Dram.tune inquiry.onFailure trusted record inquiry.timing inquiry.eeprom
  { mac := macAddress? trusted record
    memorySize := memorySize trusted record inquiry.defaultSize
    product := product? trusted record inquiry.partPrefix
    tuning
    timing
    eeprom
    exchanges :=
      Dram.tuneExchanges inquiry.onFailure trusted record inquiry.timing inquiry.eeprom }

/-- What is told of a module without a word of its record. -/
def Told.nothing (inquiry : Inquiry β κ) : Told β κ where
  mac := none
  memorySize := inquiry.defaultSize
  product := none
  tuning := .ok .untrusted
  timing := inquiry.timing
  eeprom := inquiry.eeprom
  exchanges := []

/-! ## Rejected records -/

variable {trusted : Judgement} {record : Record}

theorem tune_of_rejected (rejected : trusted record = false) (onFailure : Dram.OnFailure)
    (timing : Dram.Timing) (eeprom : Eeprom β κ) :
    Dram.tune onFailure trusted record timing eeprom = (.ok .untrusted, timing, eeprom) := by
  rw [Dram.tune, rejected]
  rfl

/-- The tuning of a rejected record asks nothing of the bus. -/
theorem tuneExchanges_of_rejected (rejected : trusted record = false)
    (onFailure : Dram.OnFailure) (timing : Dram.Timing) (eeprom : Eeprom β κ) :
    Dram.tuneExchanges onFailure trusted record timing eeprom = [] := by
  refine Dram.tuneExchanges_eq ?_
  rw [tune_of_rejected rejected]
  exact .refl _

theorem told_of_rejected (rejected : trusted record = false) (inquiry : Inquiry β κ) :
    told trusted inquiry record = .nothing inquiry := by
  have untrusted : ¬ trusted record = true := Bool.not_eq_true _ ▸ rejected
  rw [told, tune_of_rejected rejected, tuneExchanges_of_rejected rejected, macAddress?,
    if_neg untrusted, memorySize, if_neg untrusted, product?, if_neg untrusted]
  rfl

/-! ## Accepted records -/

/-- The date of a record is its year, its month and its day. -/
theorem toList_date_eq (record : Record) :
    (slice record.date 0 4).toList ++ (slice record.date 4 3).toList ++
      (slice record.date 7 2).toList = record.date.toList := by
  have length : record.date.toList.length = 9 := Vector.length_toList
  simp only [toList_slice, List.drop_zero]
  have short : (record.date.toList.drop 7).length ≤ 2 :=
    Nat.le_of_eq (by rw [List.length_drop, length])
  have day : (record.date.toList.drop 7).take 2 = (record.date.toList.drop 4).drop 3 := by
    rw [List.take_of_length_le short, List.drop_drop]
  rw [day, List.append_assoc, List.take_append_drop, List.take_append_drop]

/-- The size in bytes is that in MiB, whatever stands in for the size of other modules. -/
theorem memorySize_of_accepted (accepted : trusted record = true) (default : Nat) :
    memorySize trusted record default = record.memoryUnits.toNat * 128 * (1 <<< 20) := by
  rw [memorySize, if_pos accepted, memoryUnit, Nat.mul_assoc]
  rfl

/-- A size in MiB is small enough for 32 bits, and in bytes for 64. -/
theorem memoryUnits_fit (record : Record) :
    record.memoryUnits.toNat * 128 < UInt32.size ∧
      record.memoryUnits.toNat * 128 * (1 <<< 20) < UInt64.size := by
  have bound := record.memoryUnits.toNat_lt
  have mib : (1 <<< 20 : Nat) = 1048576 := rfl
  simp only [mib, UInt32.size, UInt64.size]
  omega

theorem tune_ne_untrusted (accepted : trusted record = true) (onFailure : Dram.OnFailure)
    (timing : Dram.Timing) (eeprom : Eeprom β κ) :
    (Dram.tune onFailure trusted record timing eeprom).1 ≠ .ok .untrusted := by
  by_cases recent : 2 ≤ record.version
  · rw [Dram.tune_of_trusted accepted recent]
    rcases Dram.tuneTables onFailure (Dram.plans record.tableOffsets) timing eeprom with
      ⟨stop | outcomes, final, after⟩ <;> (intro same; cases same)
  · have old : record.version < Dram.firstTuningVersion := UInt8.not_le.mp recent
    rw [Dram.tune, accepted, if_neg (by decide), if_pos old]
    intro same
    cases same

/-- **The judgement decides all that is told of a module.**  A record that it rejects tells nothing:
no address, no product information, the memory size that was supplied instead, and a tuning that
leaves timing, bus and cache alone and asks nothing of the bus.  So any two such records tell the
same.  Of a record that it accepts all is told: its address, which is also the serial number, its
date, its part number, with the tail from version 3 on, and its memory size in bytes and in MiB,
neither of which overflows; and the tuning is not refused for want of trust. -/
theorem told_of_judgement (trusted : Judgement) (inquiry : Inquiry β κ) :
    (∀ record, trusted record = false → told trusted inquiry record = .nothing inquiry) ∧
    (∀ first second, trusted first = false → trusted second = false →
      told trusted inquiry first = told trusted inquiry second) ∧
    ∀ record, trusted record = true →
      (told trusted inquiry record).mac = some ⟨record.mac⟩ ∧
      (∃ product, (told trusted inquiry record).product = some product ∧
        product.serial = ⟨record.mac⟩ ∧
        product.memoryMib < UInt32.size ∧
        (∀ default, product.memoryMib * (1 <<< 20) = memorySize trusted record default ∧
          memorySize trusted record default < UInt64.size) ∧
        product.year.toList ++ product.month.toList ++ product.day.toList =
          record.date.toList ∧
        product.partNumber.bytes = record.partNumber.toList ++
          if 3 ≤ record.version then record.partNumberTail.toList else []) ∧
      (told trusted inquiry record).tuning ≠ .ok .untrusted := by
  refine ⟨fun record rejected => told_of_rejected rejected inquiry, ?_, ?_⟩
  · intro first second rejected rejectedToo
    rw [told_of_rejected rejected, told_of_rejected rejectedToo]
  · intro record accepted
    obtain ⟨number, stated, bytes⟩ := exists_partNumber? record
    have reported : (told trusted inquiry record).product =
        product? trusted record inquiry.partPrefix := rfl
    rw [reported, product?, if_pos accepted, stated]
    obtain ⟨mib, bytesFit⟩ := memoryUnits_fit record
    refine ⟨if_pos accepted, ⟨_, rfl, rfl, mib, fun default => ?_, toList_date_eq record, bytes⟩,
      tune_ne_untrusted accepted _ _ _⟩
    rw [memorySize_of_accepted accepted]
    exact ⟨rfl, bytesFit⟩

/-- A blank part and one of zeros tell the same, under a judgement that accepts a record of
version 3 with the right number in front. -/
theorem told_of_judgement_of_magic :
    let trusted : Judgement := (TrustRule.magic 0x4356).judgement
    let blank := Record.ofBytes (.replicate 47 0xff)
    let zeros := Record.ofBytes (.replicate 47 0)
    let written : Record :=
      { magic := 0x4356, partNumber := .replicate 3 0x31, assembly := .replicate 10 0x41
        date := .replicate 9 0x32, mac := #v[0, 0x19, 0xb8, 10, 11, 12], revision := 0x11
        version := 3, features := 0, memoryUnits := 16, tableOffsets := #v[47, 0xff, 0, 0, 0, 0]
        partNumberTail := .replicate 5 0x42, dataRate := 3200 }
    let inquiry : Inquiry I2c.ImageBus FlushCount :=
      { defaultSize := 4096, partPrefix := "VSM-", onFailure := .stop
        timing :=
          { controller := [⟨1, 0⟩], phy := [], trainedPhy := [], phyEngine := [], setPoints := []
            dataRates := #v[3733, 0, 0, 0] }
        eeprom :=
          { bus := { names := ["i2c0"], devices := [] }
            device := { controller := 0, address := 0x52 }, cache := {} } }
    trusted blank = false ∧ trusted zeros = false ∧ blank ≠ zeros ∧
      told trusted inquiry blank = told trusted inquiry zeros ∧
      trusted written = true ∧
      (told trusted inquiry written).mac = some ⟨#v[0, 0x19, 0xb8, 10, 11, 12]⟩ ∧
      ∃ product, (told trusted inquiry written).product = some product ∧
        product.partNumber.bytes = [0x31, 0x31, 0x31, 0x42, 0x42, 0x42, 0x42, 0x42] := by
  intro trusted blank zeros written inquiry
  obtain ⟨-, same, all⟩ := told_of_judgement trusted inquiry
  have blankRejected : trusted blank = false := by decide
  have zerosRejected : trusted zeros = false := by decide
  have accepted : trusted written = true := by decide
  obtain ⟨mac, ⟨product, reported, -, -, -, -, partNumber⟩, -⟩ := all written accepted
  exact ⟨blankRejected, zerosRejected, by decide, same blank zeros blankRejected zerosRejected,
    accepted, mac, product, reported, partNumber⟩

end BoardIdentity.Som
