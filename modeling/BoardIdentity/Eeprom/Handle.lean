import BoardIdentity.Bytes.Layout
import BoardIdentity.I2c.Bus

/-!
# EEPROM handles

An EEPROM is found once and then read through its handle.  To read is to ask the bus exactly once,
whatever it answers, and its fault is passed on unchanged.  Each success is followed by one flush of
the cache, since the bytes may have reached memory without passing through it; a failed read
delivered nothing and flushes nothing.
-/

namespace BoardIdentity

/-! ## Failures -/

/-- Why an EEPROM could not be used, with the fault of the bus behind it: it was not found, or it
was and a read of it failed. -/
inductive EepromFault where
  | unreachable (fault : I2c.Fault)
  | readFailed (fault : I2c.Fault)
  deriving DecidableEq, Repr

def EepromFault.fault : EepromFault → I2c.Fault
  | unreachable fault => fault
  | readFailed fault => fault

/-! ## Caches -/

/-- A data cache, which may hold outdated copies of what a read delivers until it is flushed. -/
class Cache (κ : Type) where
  flush : κ → κ

/-- A cache that only counts how often it is flushed. -/
structure FlushCount where
  flushes : Nat := 0
  deriving DecidableEq, Repr

instance : Cache FlushCount where
  flush cache := { flushes := cache.flushes + 1 }

/-- Where there is no cache, there is nothing to flush. -/
instance {κ : Type} [Cache κ] : Cache (Option κ) where
  flush := Option.map Cache.flush

/-! ## Handles -/

/-- An EEPROM that has been found, with the bus and the cache that its reads go through. -/
structure Eeprom (β κ : Type) where
  bus : β
  device : I2c.Device
  cache : κ
  deriving Repr

namespace Eeprom

variable {β κ : Type} [I2c.Bus β] [Cache κ]

/-- Looks for an EEPROM.  The bus is handed back along with the answer, since a search that fails
leaves no handle to hold it. -/
def find (bus : β) (name : String) (address : UInt8) (cache : κ) :
    Except EepromFault (Eeprom β κ) × β :=
  match I2c.Bus.probe bus name address with
  | (.ok device, bus) => (.ok { bus, device, cache }, bus)
  | (.error fault, bus) => (.error (.unreachable fault), bus)

def readBytes (eeprom : Eeprom β κ) (offset : UInt32) (length : Nat) :
    Except EepromFault (Vector UInt8 length) × Eeprom β κ :=
  match I2c.Bus.read eeprom.bus eeprom.device offset length with
  | (.ok bytes, bus) => (.ok bytes, { eeprom with bus, cache := Cache.flush eeprom.cache })
  | (.error fault, bus) => (.error (.readFailed fault), { eeprom with bus })

def read (eeprom : Eeprom β κ) (α : Type) [Layout α] (offset : UInt32) :
    Except EepromFault α × Eeprom β κ :=
  let (answer, eeprom) := eeprom.readBytes offset (Layout.size α)
  (answer.map Layout.ofBytes, eeprom)

/-- Reading does not change which device is read. -/
@[simp]
theorem device_readBytes (eeprom : Eeprom β κ) (offset : UInt32) (length : Nat) :
    (eeprom.readBytes offset length).2.device = eeprom.device := by
  unfold readBytes
  split <;> rfl

end Eeprom

end BoardIdentity
