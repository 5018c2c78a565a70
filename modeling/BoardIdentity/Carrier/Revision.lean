import BoardIdentity.Carrier.Record
import BoardIdentity.Text.Field

/-!
# Carrier revisions

The revision of the carrier board, as far as it can be told.  A board without an EEPROM, or with a
record that is not accepted, counts as a legacy board, and so does a board that says so itself.
-/

namespace BoardIdentity.Carrier

/-- The number of bytes that a revision has room for: as many as the field of a record. -/
def Revision.capacity : Nat := 16

structure Revision where
  bytes : List UInt8
  fits : bytes.length ≤ Revision.capacity
  deriving DecidableEq, Repr

namespace Revision

/-- The revision of a given text.  A text that there is no room for is dropped as a whole. -/
def ofBytes (bytes : List UInt8) : Revision :=
  if fits : bytes.length ≤ capacity then ⟨bytes, fits⟩ else ⟨[], Nat.zero_le capacity⟩

theorem bytes_ofBytes {bytes : List UInt8} (fits : bytes.length ≤ capacity) :
    (ofBytes bytes).bytes = bytes := by
  rw [ofBytes, dif_pos fits]

/-- What boards that cannot be identified are called: the letters `legacy`. -/
def legacyLetters : List UInt8 :=
  [0x6c, 0x65, 0x67, 0x61, 0x63, 0x79]

def legacy : Revision :=
  ofBytes legacyLetters

def isLegacy (revision : Revision) : Bool :=
  revision.bytes = legacyLetters

def text (revision : Revision) : String :=
  String.ofList (Escaped.encode revision.bytes)

/-- The revision that an accepted record states, up to its first zero byte. -/
def ofRecord (record : Record) : Revision :=
  if record.isAccepted then ofBytes (TextField.trim record.revision.toList) else legacy

/-- The revision after an attempt to read the record: a failed attempt means a legacy board. -/
def ofAttempt : Except EepromFault Record → Revision
  | .ok record => ofRecord record
  | .error _ => legacy

end Revision

/-- Looks for the EEPROM of the carrier and, if it is there, reads the record that it starts with.
The bus and the cache are handed back along with the answer. -/
def readRecord {β κ : Type} [I2c.Bus β] [Cache κ] (bus : β) (name : String) (address : UInt8)
    (cache : κ) : Except EepromFault Record × β × κ :=
  match Eeprom.find bus name address cache with
  | (.error fault, bus) => (.error fault, bus, cache)
  | (.ok eeprom, _) =>
    let (answer, eeprom) := eeprom.read Record 0
    (answer, eeprom.bus, eeprom.cache)

end BoardIdentity.Carrier
