/-!
# Bus faults

Why a bus transaction did not succeed.  Controllers report a raw status word, and every word that is
not one of the known ones counts as a garbled answer.
-/

namespace BoardIdentity.I2c

/-- The cause of a failed bus transaction.  A read that leaves the device's contents has a bad
argument, and a byte is refused by a device that is there but does not acknowledge what is written
to it. -/
inductive Fault where
  | garbledAnswer
  | badArgument
  | noDevice
  | noSuchBus
  | reservedAddress
  | byteRefused
  | busReset
  | busLocked
  | controllerBusy
  | busError
  | unsupported
  deriving DecidableEq, Repr

namespace Fault

/-- The status word that reports the fault. -/
def status : Fault → UInt32
  | garbledAnswer => 1
  | badArgument => 2
  | noDevice => 3
  | noSuchBus => 4
  | reservedAddress => 5
  | byteRefused => 8
  | busReset => 17
  | busLocked => 19
  | controllerBusy => 21
  | busError => 22
  | unsupported => 25

/-- The fault that a status word reports; an unknown word is a garbled answer. -/
def ofStatus (word : UInt32) : Fault :=
  match word with
  | 2 => badArgument
  | 3 => noDevice
  | 4 => noSuchBus
  | 5 => reservedAddress
  | 8 => byteRefused
  | 17 => busReset
  | 19 => busLocked
  | 21 => controllerBusy
  | 22 => busError
  | 25 => unsupported
  | _ => garbledAnswer

/-- Every fault is read back from its own status word. -/
@[simp]
theorem ofStatus_status (fault : Fault) : ofStatus fault.status = fault := by
  cases fault <;> rfl

end Fault

end BoardIdentity.I2c
