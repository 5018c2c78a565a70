import BoardIdentity.I2c.Device

/-!
# Buses

A bus is used in two ways: it is asked whether a device is there, and it is asked for bytes of a
device.  Either question is one transaction.  A bus is a value: a transaction answers and leaves the
bus as it is afterwards.
-/

namespace BoardIdentity.I2c

/-- Access to named buses during start-up.  A probe resolves a bus name to its controller and checks
that the address acknowledges there; a read delivers bytes of a device, from `offset` on. -/
class Bus (β : Type) where
  probe : β → (name : String) → (address : UInt8) → Except Fault Device × β
  read : β → Device → (offset : UInt32) → (length : Nat) → Except Fault (Vector UInt8 length) × β

/-- Reads a device into a buffer.  The buffer holds the delivered bytes if the read succeeds, and
what it held before if the read fails. -/
def readOver {β : Type} [Bus β] {length : Nat} (bus : β) (device : Device) (offset : UInt32)
    (buffer : Vector UInt8 length) : Except Fault Unit × Vector UInt8 length × β :=
  match Bus.read bus device offset length with
  | (.ok bytes, bus) => (.ok (), bytes, bus)
  | (.error fault, bus) => (.error fault, buffer, bus)

end BoardIdentity.I2c
