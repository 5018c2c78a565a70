import BoardIdentity.Som.Record
import BoardIdentity.Text.Field

/-!
# Product information

What is known of a module at start-up.  Each accessor asks the board's judgement first and, of a
record that it rejects, tells nothing: no address, no product information, and the memory size that
the caller supplies instead.
-/

namespace BoardIdentity

/-! ## Network address -/

structure MacAddress where
  octets : Vector UInt8 6
  deriving DecidableEq, Repr

/-- Six pairs of digits, with colons in between. -/
def MacAddress.text (mac : MacAddress) : String :=
  String.ofList (List.intercalate [':'] (mac.octets.toList.map Hex.twoDigits))

namespace Som

/-- The network address of a trusted module. -/
def macAddress? (trusted : Judgement) (record : Record) : Option MacAddress :=
  if trusted record then some ⟨record.mac⟩ else none

/-! ## Memory size -/

/-- The unit of the record's memory size: 128 MiB, in bytes. -/
def memoryUnit : Nat := 128 <<< 20

/-- The memory size in bytes; `default` unless the record is trusted. -/
def memorySize (trusted : Judgement) (record : Record) (default : Nat) : Nat :=
  if trusted record then record.memoryUnits.toNat * memoryUnit else default

/-! ## Part numbers -/

/-- The number of bytes that a part number has room for. -/
def PartNumber.capacity : Nat := 8

structure PartNumber where
  bytes : List UInt8
  fits : bytes.length ≤ PartNumber.capacity
  deriving DecidableEq, Repr

namespace PartNumber

def empty : PartNumber where
  bytes := []
  fits := Nat.zero_le capacity

/-- The part number with more bytes at its end, if there is room for all of them. -/
def append? (number : PartNumber) (more : List UInt8) : Option PartNumber :=
  if fits : (number.bytes ++ more).length ≤ capacity then some ⟨number.bytes ++ more, fits⟩
  else none

theorem append?_of_fits {number : PartNumber} {more : List UInt8}
    (fits : (number.bytes ++ more).length ≤ capacity) :
    number.append? more = some ⟨number.bytes ++ more, fits⟩ :=
  dif_pos fits

end PartNumber

/-- Records carry the tail of the part number from this version on. -/
def longPartNumberVersion : UInt8 := 3

/-- The part number that a record states, with its tail where the record's version has one.  There
is none if it does not fit. -/
def partNumber? (record : Record) : Option PartNumber := do
  let number ← PartNumber.empty.append? record.partNumber.toList
  if record.version ≥ longPartNumberVersion then number.append? record.partNumberTail.toList
  else return number

/-- Every record states a part number: the longest takes all the room that there is. -/
theorem exists_partNumber? (record : Record) :
    ∃ number, partNumber? record = some number ∧
      number.bytes = record.partNumber.toList ++
        if 3 ≤ record.version then record.partNumberTail.toList else [] := by
  have short : (PartNumber.empty.bytes ++ record.partNumber.toList).length ≤
      PartNumber.capacity := by
    rw [PartNumber.empty, List.nil_append, Vector.length_toList]
    decide
  unfold partNumber?
  rw [PartNumber.append?_of_fits short, Option.bind_eq_bind, Option.bind_some]
  by_cases tail : 3 ≤ record.version
  · have long : (PartNumber.empty.bytes ++ record.partNumber.toList ++
        record.partNumberTail.toList).length ≤ PartNumber.capacity := by
      rw [PartNumber.empty, List.nil_append, List.length_append, Vector.length_toList,
        Vector.length_toList]
      decide
    have asked : record.version ≥ longPartNumberVersion := tail
    rw [if_pos asked, PartNumber.append?_of_fits long, if_pos tail]
    exact ⟨_, rfl, rfl⟩
  · have notAsked : ¬ record.version ≥ longPartNumberVersion := tail
    rw [if_neg notAsked, if_neg tail, List.append_nil]
    exact ⟨_, rfl, rfl⟩

/-! ## Product information -/

/-- What is reported of a module at start-up. -/
structure Product where
  partPrefix : String
  partNumber : PartNumber
  assembly : Vector UInt8 10
  year : Vector UInt8 4
  month : Vector UInt8 3
  day : Vector UInt8 2
  serial : MacAddress
  revision : UInt8
  features : UInt8
  version : UInt8
  memoryMib : Nat
  deriving DecidableEq, Repr

/-- The product information of a trusted module. -/
def product? (trusted : Judgement) (record : Record) (partPrefix : String) : Option Product :=
  if trusted record then do
    let partNumber ← partNumber? record
    return {
      partPrefix
      partNumber
      assembly := record.assembly
      year := slice record.date 0 4
      month := slice record.date 4 3
      day := slice record.date 7 2
      serial := ⟨record.mac⟩
      revision := record.revision
      features := record.features
      version := record.version
      memoryMib := record.memoryUnits.toNat * 128 }
  else
    none

/-- The report printed at start-up, five lines without a final line break.  Fields are trimmed and
escaped; the prefix is shown as it is. -/
def Product.text (product : Product) : String :=
  "Part number: " ++ product.partPrefix ++ TextField.text product.partNumber.bytes ++
    "\nAssembly: AS" ++ TextField.text product.assembly.toList ++
    "\nProduction date: " ++ TextField.text product.year.toList ++
    " " ++ TextField.text product.month.toList ++ " " ++ TextField.text product.day.toList ++
    "\nSerial Number: " ++ product.serial.text ++
    "\nSOM revision: 0x" ++ String.ofList (Hex.fewestDigits product.revision)

end Som

end BoardIdentity
