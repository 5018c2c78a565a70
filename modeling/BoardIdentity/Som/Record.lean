import BoardIdentity.Bytes.Endian
import BoardIdentity.Eeprom.Handle

/-!
# The module record

The system-on-module carries an identity record at the start of its EEPROM.  `Som.Record.toBytes`
writes the fields one after the other and `Som.Record.ofBytes` reads each from its offset; both
numbers of more than one byte are stored lowest byte first.

Nothing in the record says that it was ever written, so the board supplies a judgement of records,
of type `Som.Judgement`.
-/

namespace BoardIdentity.Som

/-- Number of memory tables that a record can adjust. -/
def tableCount : Nat := 5

/-! ## Fields -/

/-- The identity record of a module.  The date has four characters of year, three of month and two
of day.  Table `i` of overrides starts at offset `i`, and the last offset is where the last table
ends.  Long part numbers, which version 3 brought, go on in the tail. -/
structure Record where
  magic : UInt16
  partNumber : Vector UInt8 3
  assembly : Vector UInt8 10
  date : Vector UInt8 9
  mac : Vector UInt8 6
  revision : UInt8
  version : UInt8
  features : UInt8
  memoryUnits : UInt8
  tableOffsets : Vector UInt8 (tableCount + 1)
  partNumberTail : Vector UInt8 5
  dataRate : UInt16
  deriving DecidableEq, Repr

namespace Record

/-! ## Bytes -/

def ofBytes (bytes : Vector UInt8 47) : Record where
  magic := Endian.little16 (slice bytes 0 2)
  partNumber := slice bytes 2 3
  assembly := slice bytes 5 10
  date := slice bytes 15 9
  mac := slice bytes 24 6
  revision := bytes[30]
  version := bytes[31]
  features := bytes[32]
  memoryUnits := bytes[33]
  tableOffsets := slice bytes 34 6
  partNumberTail := slice bytes 40 5
  dataRate := Endian.little16 (slice bytes 45 2)

def toBytes (record : Record) : Vector UInt8 47 :=
  Endian.little16Bytes record.magic ++ record.partNumber ++ record.assembly ++ record.date ++
    record.mac ++ #v[record.revision, record.version, record.features, record.memoryUnits] ++
    record.tableOffsets ++ record.partNumberTail ++ Endian.little16Bytes record.dataRate

instance : Layout Record where
  size := 47
  ofBytes := ofBytes
  toBytes := toBytes

end Record

/-! ## Trust -/

/-- The board's judgement whether a record was really written to the EEPROM. -/
abbrev Judgement := Record → Bool

/-- Judgements that need no knowledge of the board. -/
inductive TrustRule where
  | everyRecord
  | noRecord
  | magic (number : Nat)
  deriving DecidableEq, Repr

/-- The judgement that a rule makes. -/
def TrustRule.judgement : TrustRule → Judgement
  | everyRecord, _ => true
  | noRecord, _ => false
  | magic number, record => record.magic.toNat = number

end BoardIdentity.Som

namespace BoardIdentity

/-- Reads the module record, with which the EEPROM starts. -/
def Eeprom.readModule {β κ : Type} [I2c.Bus β] [Cache κ] (eeprom : Eeprom β κ) :
    Except EepromFault Som.Record × Eeprom β κ :=
  eeprom.read Som.Record 0

end BoardIdentity
