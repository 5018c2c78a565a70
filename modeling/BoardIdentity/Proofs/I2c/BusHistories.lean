import BoardIdentity.I2c.ImageBus

/-!
# Histories of a bus

`operate` is one thing that is done with a bus in memory, `after` a whole history.  The names and
the devices of a bus are fixed when it is made (`after_keeps`), so that a handle leads to the same
device at any time (`device?_after`).
-/

namespace BoardIdentity.I2c.ImageBus

/-- One thing that is done with a bus. -/
inductive Operation
  | probe (name : String) (address : UInt8)
  | read (device : Device) (offset : UInt32) (length : Nat)
  | emptyLog
  | breakByte (offset : UInt32) (fault : Fault)

/-- The bus after one operation. -/
def operate (bus : ImageBus) : Operation → ImageBus
  | .probe name address => (bus.probe name address).2
  | .read device offset length => (bus.read device offset length).2
  | .emptyLog => bus.emptyLog
  | .breakByte offset fault => bus.breakByte offset fault

/-- The bus after operations, the first of them first. -/
def after (bus : ImageBus) (operations : List Operation) : ImageBus :=
  operations.foldl operate bus

/-- No operation changes the names or the devices. -/
theorem operate_keeps (bus : ImageBus) (operation : Operation) :
    (bus.operate operation).names = bus.names ∧
      (bus.operate operation).devices = bus.devices := by
  cases operation with
  | read device offset length =>
    rw [operate, read]
    split <;> exact ⟨rfl, rfl⟩
  | probe | emptyLog | breakByte => exact ⟨rfl, rfl⟩

theorem after_keeps (bus : ImageBus) (operations : List Operation) :
    (bus.after operations).names = bus.names ∧
      (bus.after operations).devices = bus.devices := by
  induction operations generalizing bus with
  | nil => exact ⟨rfl, rfl⟩
  | cons operation operations ih =>
    obtain ⟨names, devices⟩ := bus.operate_keeps operation
    obtain ⟨namesLater, devicesLater⟩ := ih (bus.operate operation)
    exact ⟨namesLater.trans names, devicesLater.trans devices⟩

/-- What a handle leads to is the same after any operations. -/
theorem device?_after (bus : ImageBus) (operations : List Operation) (device : Device) :
    (bus.after operations).device? device = bus.device? device := by
  obtain ⟨names, devices⟩ := bus.after_keeps operations
  rw [device?, names, devices]
  rfl

end BoardIdentity.I2c.ImageBus
