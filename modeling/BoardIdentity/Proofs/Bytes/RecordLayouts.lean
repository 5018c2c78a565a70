import BoardIdentity.Carrier.Record
import BoardIdentity.Dram.OverrideRow
import BoardIdentity.Som.Record
import Mathlib.Data.List.Induction

/-!
# Records and their bytes

What a record writes is read back field by field: `Som.Record.ofBytes_toBytes` for the module
record, `Carrier.Record.ofBytes_toBytes` for the carrier record and
`Dram.OverrideRow.ofBytes_toBytes` for a row of overrides.
-/

namespace BoardIdentity

/-! ## Fields and numbers -/

theorem slice_eq_of_toList {n count : Nat} {bytes : Vector UInt8 n} {start : Nat}
    {inside : start + count ≤ n} {field : Vector UInt8 count}
    (same : (bytes.toList.drop start).take count = field.toList) :
    slice bytes start count inside = field :=
  Vector.toList_inj.mp ((toList_slice bytes start count inside).trans same)

theorem getElem_eq_of_toList {n : Nat} {bytes : Vector UInt8 n} {index : Nat} {inside : index < n}
    {value : UInt8} (found : bytes.toList[index]? = some value) : bytes[index] = value := by
  rw [← Vector.getElem_toList]
  exact (List.getElem?_eq_some_iff.mp found).2

namespace Endian

/-- The number whose base-256 digits, highest first, are `bytes`. -/
def bigEndian (bytes : List UInt8) : Nat :=
  bytes.foldl (fun value digit => 256 * value + digit.toNat) 0

theorem littleEndian_reverse (bytes : List UInt8) :
    littleEndian bytes.reverse = bigEndian bytes := by
  induction bytes using List.reverseRecOn with
  | nil => rfl
  | append_singleton front digit ih =>
    rw [List.reverse_append, List.reverse_singleton, List.singleton_append, littleEndian, ih,
      bigEndian, bigEndian, List.foldl_append, List.foldl_cons, List.foldl_nil, Nat.add_comm]

theorem toNat_little16 (bytes : Vector UInt8 2) :
    (little16 bytes).toNat = littleEndian bytes.toList := by
  have bound := littleEndian_lt bytes.toList
  simp only [Vector.length_toList, capacity] at bound
  rw [little16, UInt16.toNat_ofNat', Nat.mod_eq_of_lt (by omega)]

theorem toNat_little32 (bytes : Vector UInt8 4) :
    (little32 bytes).toNat = littleEndian bytes.toList := by
  have bound := littleEndian_lt bytes.toList
  simp only [Vector.length_toList, capacity] at bound
  rw [little32, UInt32.toNat_ofNat', Nat.mod_eq_of_lt (by omega)]

theorem toNat_big16 (bytes : Vector UInt8 2) : (big16 bytes).toNat = bigEndian bytes.toList := by
  rw [big16, toNat_little16, Vector.toList_reverse, littleEndian_reverse]

theorem toNat_big32 (bytes : Vector UInt8 4) : (big32 bytes).toNat = bigEndian bytes.toList := by
  rw [big32, toNat_little32, Vector.toList_reverse, littleEndian_reverse]

end Endian

/-! ## Rows of overrides -/

theorem Dram.OverrideRow.toList_toBytes (row : OverrideRow) :
    (Layout.toBytes row).toList = row.register.toList ++ row.value.toList :=
  Vector.toList_append

theorem Dram.OverrideRow.ofBytes_toBytes (row : OverrideRow) :
    (Layout.ofBytes (Layout.toBytes row) : OverrideRow) = row := by
  obtain ⟨register, value⟩ := row
  refine congr (congrArg OverrideRow.mk ?_) ?_
  · exact slice_eq_of_toList (by rw [toList_toBytes]; simp)
  · exact slice_eq_of_toList (by rw [toList_toBytes]; simp [List.take_of_length_le])

/-! ## The module record -/

namespace Som.Record

theorem toList_toBytes (record : Record) :
    record.toBytes.toList =
      (Endian.little16Bytes record.magic).toList ++ record.partNumber.toList ++
        record.assembly.toList ++ record.date.toList ++ record.mac.toList ++
        [record.revision, record.version, record.features, record.memoryUnits] ++
        record.tableOffsets.toList ++ record.partNumberTail.toList ++
        (Endian.little16Bytes record.dataRate).toList := by
  show (Endian.little16Bytes record.magic ++ record.partNumber ++ record.assembly ++ record.date ++
    record.mac ++ #v[record.revision, record.version, record.features, record.memoryUnits] ++
    record.tableOffsets ++ record.partNumberTail ++ Endian.little16Bytes record.dataRate).toList = _
  simp only [Vector.toList_append]
  rfl

theorem ofBytes_toBytes (record : Record) : ofBytes record.toBytes = record := by
  have offsets : record.tableOffsets.toList.length = 6 := Vector.length_toList
  have field : ∀ {start count : Nat} {inside : start + count ≤ 47} {value : Vector UInt8 count},
      (record.toBytes.toList.drop start).take count = value.toList →
        slice record.toBytes start count inside = value := slice_eq_of_toList
  have byte : ∀ {index : Nat} {inside : index < 47} {value : UInt8},
      record.toBytes.toList[index]? = some value → record.toBytes[index] = value :=
    getElem_eq_of_toList
  simp only [toList_toBytes] at field byte
  have magic : slice record.toBytes 0 2 = Endian.little16Bytes record.magic :=
    field (by simp)
  have partNumber : slice record.toBytes 2 3 = record.partNumber :=
    field (by simp)
  have assembly : slice record.toBytes 5 10 = record.assembly :=
    field (by simp [List.drop_append, List.drop_of_length_le])
  have date : slice record.toBytes 15 9 = record.date :=
    field (by simp [List.drop_append, List.drop_of_length_le])
  have mac : slice record.toBytes 24 6 = record.mac :=
    field (by simp [List.drop_append, List.drop_of_length_le])
  have revision : record.toBytes[30] = record.revision := byte (by simp [List.getElem?_append])
  have version : record.toBytes[31] = record.version := byte (by simp [List.getElem?_append])
  have features : record.toBytes[32] = record.features := byte (by simp [List.getElem?_append])
  have memoryUnits : record.toBytes[33] = record.memoryUnits :=
    byte (by simp [List.getElem?_append])
  have tableOffsets : slice record.toBytes 34 6 = record.tableOffsets :=
    field (by simp [List.drop_append, List.drop_of_length_le, offsets]; rfl)
  have partNumberTail : slice record.toBytes 40 5 = record.partNumberTail :=
    field (by simp [List.drop_append, List.drop_of_length_le, offsets])
  have dataRate : slice record.toBytes 45 2 = Endian.little16Bytes record.dataRate :=
    field (by simp [List.drop_append, List.drop_of_length_le, List.take_of_length_le, offsets])
  rw [ofBytes, magic, partNumber, assembly, date, mac, revision, version, features, memoryUnits,
    tableOffsets, partNumberTail, dataRate, Endian.little16_little16Bytes,
    Endian.little16_little16Bytes]

end Som.Record

/-! ## The carrier record -/

namespace Carrier.Record

variable (bytes : Vector UInt8 23)

theorem toNat_magic_ofBytes :
    (ofBytes bytes).magic.toNat = Endian.bigEndian (bytes.toList.take 2) := by
  rw [ofBytes, Endian.toNat_big16, toList_slice, List.drop_zero]

theorem toNat_crc_ofBytes :
    (ofBytes bytes).crc.toNat = Endian.bigEndian (bytes.toList.drop 19) := by
  rw [ofBytes, Endian.toNat_big32, toList_slice, List.take_of_length_le (by simp)]

theorem toList_revision_ofBytes :
    (ofBytes bytes).revision.toList = (bytes.toList.drop 3).take 16 :=
  toList_slice bytes 3 16 (by decide)

/-- The checksum covers the first nineteen of the bytes that a record is read from. -/
theorem toList_covered_ofBytes : (ofBytes bytes).covered.toList = bytes.toList.take 19 := by
  have front : bytes.toList.take (2 + 17) =
      bytes.toList.take 2 ++ [bytes[2]] ++ (bytes.toList.drop 3).take 16 := by
    rw [List.take_add, List.drop_eq_getElem_cons (by simp), Vector.getElem_toList,
      List.take_succ_cons, List.append_assoc, List.singleton_append]
  rw [covered, Vector.toList_append, Vector.toList_append, toList_revision_ofBytes, front, ofBytes,
    Endian.big16Bytes_big16, toList_slice, List.drop_zero]
  rfl

theorem toList_toBytes (record : Record) :
    record.toBytes.toList = record.covered.toList ++ (Endian.big32Bytes record.crc).toList :=
  Vector.toList_append

theorem toList_covered (record : Record) :
    record.covered.toList = (Endian.big16Bytes record.magic).toList ++ [record.version] ++
      record.revision.toList := by
  rw [covered, Vector.toList_append, Vector.toList_append]
  rfl

theorem ofBytes_toBytes (record : Record) : ofBytes record.toBytes = record := by
  have field : ∀ {start count : Nat} {inside : start + count ≤ 23} {value : Vector UInt8 count},
      (record.toBytes.toList.drop start).take count = value.toList →
        slice record.toBytes start count inside = value := slice_eq_of_toList
  have version : record.toBytes[2] = record.version := by
    refine getElem_eq_of_toList ?_
    rw [toList_toBytes, toList_covered]
    simp
  simp only [toList_toBytes, toList_covered] at field
  have magic : slice record.toBytes 0 2 = Endian.big16Bytes record.magic :=
    field (by simp)
  have revision : slice record.toBytes 3 16 = record.revision :=
    field (by simp [List.drop_append, List.drop_of_length_le])
  have crc : slice record.toBytes 19 4 = Endian.big32Bytes record.crc :=
    field (by simp [List.drop_append, List.drop_of_length_le, List.take_of_length_le])
  rw [ofBytes, magic, version, revision, crc, Endian.big16_big16Bytes, Endian.big32_big32Bytes]

end Carrier.Record

end BoardIdentity
