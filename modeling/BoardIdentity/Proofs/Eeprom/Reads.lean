import BoardIdentity.Eeprom.Handle
import BoardIdentity.Proofs.I2c.RecordedBus
import BoardIdentity.Proofs.I2c.SteadyBus

/-!
# Reads through a handle

A read of a record is one transaction of its bus: `Eeprom.read_fst` gives the answer,
`Eeprom.bus_read` the bus that is left.

`Eeprom.recorded` puts a record of all requests around the bus of a handle, and `Eeprom.forget`
takes it away again.  Recording changes no answer (`Eeprom.read_forget`).
-/

namespace BoardIdentity.Eeprom

variable {β κ : Type} [I2c.Bus β] [Cache κ]

/-- What a handle makes of its bus's answer to a read of one record. -/
def ofAnswer {α : Type} [Layout α] :
    Except I2c.Fault (Vector UInt8 (Layout.size α)) → Except EepromFault α
  | .ok bytes => .ok (Layout.ofBytes bytes)
  | .error fault => .error (.readFailed fault)

theorem read_fst (eeprom : Eeprom β κ) (α : Type) [Layout α] (offset : UInt32) :
    (eeprom.read α offset).1 =
      ofAnswer (I2c.Bus.read eeprom.bus eeprom.device offset (Layout.size α)).1 := by
  unfold read readBytes
  rcases I2c.Bus.read eeprom.bus eeprom.device offset (Layout.size α) with ⟨answer, bus⟩
  cases answer <;> rfl

theorem bus_read (eeprom : Eeprom β κ) (α : Type) [Layout α] (offset : UInt32) :
    (eeprom.read α offset).2.bus =
      (I2c.Bus.read eeprom.bus eeprom.device offset (Layout.size α)).2 := by
  unfold read readBytes
  rcases I2c.Bus.read eeprom.bus eeprom.device offset (Layout.size α) with ⟨answer, bus⟩
  cases answer <;> rfl

@[simp]
theorem device_read (eeprom : Eeprom β κ) (α : Type) [Layout α] (offset : UInt32) :
    (eeprom.read α offset).2.device = eeprom.device :=
  device_readBytes eeprom offset (Layout.size α)

omit [Cache κ] in
/-- A handle that was found is of the device that the probe came to. -/
theorem probe_of_find {bus : β} {name : String} {address : UInt8} {cache : κ}
    {handle : Eeprom β κ} (found : (find bus name address cache).1 = .ok handle) :
    (I2c.Bus.probe bus name address).1 = .ok handle.device := by
  unfold find at found
  generalize I2c.Bus.probe bus name address = probed at found ⊢
  rcases probed with ⟨fault | device, after⟩
  · cases found
  · cases found
    rfl

/-! ## Recorded handles -/

/-- The handle with an empty record around its bus. -/
def recorded (eeprom : Eeprom β κ) : Eeprom (I2c.Recorded β) κ :=
  { eeprom with bus := { bus := eeprom.bus } }

/-- The handle without the record. -/
def forget (eeprom : Eeprom (I2c.Recorded β) κ) : Eeprom β κ :=
  { eeprom with bus := eeprom.bus.bus }

omit [I2c.Bus β] [Cache κ] in
@[simp]
theorem forget_recorded (eeprom : Eeprom β κ) : eeprom.recorded.forget = eeprom := rfl

/-- A read of bytes without the record answers, and leaves, what it does with it. -/
theorem readBytes_forget (eeprom : Eeprom (I2c.Recorded β) κ) (offset : UInt32) (length : Nat) :
    eeprom.forget.readBytes offset length =
      ((eeprom.readBytes offset length).1, (eeprom.readBytes offset length).2.forget) := by
  obtain ⟨⟨bus, requests⟩, device, cache⟩ := eeprom
  simp only [forget, readBytes, I2c.Bus.read, I2c.Recorded.read]
  rcases I2c.Bus.read bus device offset length with ⟨answer, after⟩
  cases answer <;> rfl

/-- A read without the record answers, and leaves, what it does with it. -/
theorem read_forget (eeprom : Eeprom (I2c.Recorded β) κ) (α : Type) [Layout α]
    (offset : UInt32) :
    eeprom.forget.read α offset =
      ((eeprom.read α offset).1, (eeprom.read α offset).2.forget) := by
  simp only [read, readBytes_forget]

/-- A read adds its own request to the record, whatever it is answered. -/
theorem requests_read (eeprom : Eeprom (I2c.Recorded β) κ) (α : Type) [Layout α]
    (offset : UInt32) :
    (eeprom.read α offset).2.bus.requests = eeprom.bus.requests ++
      [{ device := eeprom.device, offset, length := Layout.size α }] := by
  rw [bus_read]
  rfl

end BoardIdentity.Eeprom
