import BoardIdentity.I2c.Fault
import BoardIdentity.Text.Hex

/-!
# Devices on a bus

A device is named by the controller its bus hangs off and by its address on that bus.  Addresses are
seven bits wide, and the first eight and last four of them are set aside by the bus standard;
`checkAddress` accepts the rest and says why it refuses the others.
-/

namespace BoardIdentity.I2c

/-! ## Controllers -/

/-- One of the eight bus controllers of the chip, by its number. -/
abbrev Controller := Fin 8

namespace Controller

/-- The controller of a given number, if the chip has that many. -/
def ofIndex? (index : Nat) : Option Controller :=
  if inRange : index < 8 then some ⟨index, inRange⟩ else none

/-- The controller's name in the chip's manual. -/
def name (controller : Controller) : String :=
  "I2C" ++ String.singleton (Nat.digitChar controller.val)

end Controller

/-! ## Addresses -/

/-- Addresses that the bus standard sets aside: `0x00` to `0x07` and `0x7c` to `0x7f`. -/
def isReserved (address : UInt8) : Bool :=
  address ≤ 0x07 || (0x7c ≤ address && address ≤ 0x7f)

/-- Accepts the seven-bit addresses that are not set aside. -/
def checkAddress (address : UInt8) : Except Fault Unit :=
  if isReserved address then .error .reservedAddress
  else if address > 0x7f then .error .badArgument
  else .ok ()

/-- The reserved addresses in numbers. -/
theorem isReserved_iff (address : UInt8) :
    isReserved address = true ↔
      address.toNat ≤ 0x07 ∨ (0x7c ≤ address.toNat ∧ address.toNat ≤ 0x7f) := by
  simp [isReserved, UInt8.le_iff_toNat_le]

/-- An address is accepted exactly when it lies between the two reserved ranges. -/
theorem checkAddress_eq_ok_iff (address : UInt8) :
    checkAddress address = .ok () ↔ 0x08 ≤ address.toNat ∧ address.toNat ≤ 0x7b := by
  have reserved := isReserved_iff address
  unfold checkAddress
  split
  case isTrue inside =>
    have bounds := reserved.mp inside
    simp only [reduceCtorEq, false_iff]
    omega
  case isFalse outside =>
    rw [reserved] at outside
    split
    case isTrue above =>
      have bound := UInt8.lt_iff_toNat_lt.mp above
      simp only [reduceCtorEq, false_iff, UInt8.reduceToNat] at bound ⊢
      omega
    case isFalse below =>
      have bound := UInt8.le_iff_toNat_le.mp (UInt8.not_lt.mp below)
      simp only [true_iff, UInt8.reduceToNat] at bound ⊢
      omega

/-! ## Devices -/

/-- A device that has acknowledged its address. -/
structure Device where
  controller : Controller
  address : UInt8
  deriving DecidableEq, Repr

/-- The device's name in messages: its controller, then its address in hexadecimal. -/
def Device.text (device : Device) : String :=
  device.controller.name ++ " 0x" ++ String.ofList (Hex.fewestDigits device.address)

end BoardIdentity.I2c
