import BoardIdentity.Bytes.Endian
import BoardIdentity.Checksum.Crc32
import BoardIdentity.Eeprom.Handle

/-!
# The carrier record

The carrier board has an identity record of its own.  Version 1 has no checksum; from version 2 on a
CRC-32 covers everything in front of it.  `Carrier.Record.verify` judges the magic number first, the
version next and the checksum last.  Numbers of more than one byte are stored highest byte first.
-/

namespace BoardIdentity.Carrier

/-! ## Fields -/

/-- The identity record of a carrier board. -/
structure Record where
  magic : UInt16
  version : UInt8
  revision : Vector UInt8 16
  crc : UInt32
  deriving DecidableEq, Repr

/-- The magic number of a carrier record: the letters `VC`. -/
def magic : UInt16 := 0x5643

namespace Record

/-! ## Bytes -/

def ofBytes (bytes : Vector UInt8 23) : Record where
  magic := Endian.big16 (slice bytes 0 2)
  version := bytes[2]
  revision := slice bytes 3 16
  crc := Endian.big32 (slice bytes 19 4)

/-- The bytes that the checksum covers. -/
def covered (record : Record) : Vector UInt8 19 :=
  Endian.big16Bytes record.magic ++ #v[record.version] ++ record.revision

def toBytes (record : Record) : Vector UInt8 23 :=
  record.covered ++ Endian.big32Bytes record.crc

instance : Layout Record where
  size := 23
  ofBytes := ofBytes
  toBytes := toBytes

/-- The checksum that the record should carry. -/
def properCrc (record : Record) : UInt32 :=
  Crc32.checksum record.covered.toList

/-- The record with the checksum that it should carry. -/
def sealed (record : Record) : Record :=
  { record with crc := record.properCrc }

/-- What the checksum should be does not depend on what it is. -/
@[simp]
theorem properCrc_sealed (record : Record) : record.sealed.properCrc = record.properCrc := rfl

end Record

/-! ## Verification -/

/-- Why a carrier record is not accepted. -/
inductive Defect where
  | wrongMagic (found expected : UInt16)
  | unknownVersion (version : UInt8)
  | wrongCrc (computed stored : UInt32)
  deriving DecidableEq, Repr

namespace Record

/-- Accepts a record of the right magic number whose version is 1, or is later and comes with the
right checksum. -/
def verify (record : Record) : Except Defect Unit :=
  if record.magic ≠ Carrier.magic then
    .error (.wrongMagic record.magic Carrier.magic)
  else if record.version = 0 then
    .error (.unknownVersion 0)
  else if record.version = 1 ∨ record.properCrc = record.crc then
    .ok ()
  else
    .error (.wrongCrc record.properCrc record.crc)

def isAccepted (record : Record) : Bool :=
  record.verify.isOk

end Record

end BoardIdentity.Carrier
