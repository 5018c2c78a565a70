import BoardIdentity.I2c.Bus

/-!
# A bus in memory

A bus whose devices are byte images.  It answers as hardware would, counts what is asked of it,
keeps the first reads in a log, and can be told that one byte is broken, so that every read that
touches it fails.

What a read answers is `ImageBus.fetch`, which does not look at the log or the counters; `read` adds
the bookkeeping.
-/

namespace BoardIdentity.I2c

/-! ## State -/

/-- A device on one of the buses, backed by its contents. -/
structure ImageDevice where
  bus : String
  address : UInt8
  image : List UInt8
  deriving DecidableEq, Repr

/-- One read that was asked for, whether or not it succeeded. -/
structure ReadRequest where
  device : Device
  offset : UInt32
  length : Nat
  deriving DecidableEq, Repr

/-- A byte that cannot be read, and the fault that reads of it report. -/
structure BrokenByte where
  offset : UInt32
  fault : Fault
  deriving DecidableEq, Repr

/-- Named buses with devices on them.  A bus hangs off the controller of its position.  The log
keeps the first reads asked for since it was emptied, oldest first; reads are counted from then on
as well, probes from the beginning. -/
structure ImageBus where
  names : List String
  devices : List ImageDevice
  log : List ReadRequest := []
  reads : Nat := 0
  probes : Nat := 0
  broken : Option BrokenByte := none
  deriving DecidableEq, Repr

def logCapacity : Nat := 64

/-- Whether a read of `length` bytes from `offset` on touches the broken byte.  The end of the range
stops short of the last 32-bit offset, at which a broken byte does no harm. -/
def BrokenByte.isTouched (broken : BrokenByte) (offset : UInt32) (length : Nat) : Bool :=
  offset ≤ broken.offset &&
    broken.offset.toNat < min (offset.toNat + length) (UInt32.size - 1)

namespace ImageBus

/-! ## Answers -/

/-- The first device with the handle's bus and address. -/
def device? (bus : ImageBus) (device : Device) : Option ImageDevice := do
  let name ← bus.names[device.controller.val]?
  bus.devices.find? fun candidate => candidate.bus == name && candidate.address == device.address

/-- The device of a given bus name and address.  The address is judged first, then the bus name,
then whether a device is there. -/
def resolve (bus : ImageBus) (name : String) (address : UInt8) : Except Fault Device := do
  checkAddress address
  match (bus.names.idxOf? name).bind Controller.ofIndex? with
  | none => .error .noSuchBus
  | some controller =>
    let device := { controller, address : Device }
    if (bus.device? device).isSome then .ok device else .error .noDevice

/-- The bytes of a device from `offset` on.  A broken byte in the range is reported first, then a
missing device, then a range that leaves the image. -/
def fetch (bus : ImageBus) (device : Device) (offset : UInt32) (length : Nat) :
    Except Fault (Vector UInt8 length) :=
  match bus.broken.filter (·.isTouched offset length) with
  | some broken => .error broken.fault
  | none =>
    match bus.device? device with
    | none => .error .noDevice
    | some found =>
      if inside : offset.toNat + length ≤ found.image.length then
        .ok ⟨((found.image.drop offset.toNat).take length).toArray, by
          simp only [List.size_toArray, List.length_take, List.length_drop]
          omega⟩
      else
        .error .badArgument

/-! ## Transactions -/

def probe (bus : ImageBus) (name : String) (address : UInt8) : Except Fault Device × ImageBus :=
  (bus.resolve name address, { bus with probes := bus.probes + 1 })

/-- The log after one more read, for which there is no room in a full log. -/
def logged (bus : ImageBus) (request : ReadRequest) : List ReadRequest :=
  if bus.log.length < logCapacity then bus.log ++ [request] else bus.log

/-- Counts the read, keeps it in the log and answers it.  A length that does not fit 32 bits is
refused before it reaches the log. -/
def read (bus : ImageBus) (device : Device) (offset : UInt32) (length : Nat) :
    Except Fault (Vector UInt8 length) × ImageBus :=
  let counted := { bus with reads := bus.reads + 1 }
  if length < UInt32.size then
    (bus.fetch device offset length,
      { counted with log := bus.logged { device, offset, length } })
  else
    (.error .badArgument, counted)

instance : Bus ImageBus where
  probe := probe
  read := read

/-! ## Control -/

/-- Breaks the byte at an offset; a byte that was broken before is whole again. -/
def breakByte (bus : ImageBus) (offset : UInt32) (fault : Fault) : ImageBus :=
  { bus with broken := some { offset, fault } }

/-- Empties the log and counts reads anew; the count of probes and the broken byte stay. -/
def emptyLog (bus : ImageBus) : ImageBus :=
  { bus with log := [], reads := 0 }

/-! ## Bookkeeping leaves answers alone -/

@[simp]
theorem fetch_probe (bus : ImageBus) (name : String) (address : UInt8) :
    (bus.probe name address).2.fetch = bus.fetch := rfl

@[simp]
theorem fetch_read (bus : ImageBus) (device : Device) (offset : UInt32) (length : Nat) :
    (bus.read device offset length).2.fetch = bus.fetch := by
  unfold read
  split <;> rfl

@[simp]
theorem fetch_emptyLog (bus : ImageBus) : bus.emptyLog.fetch = bus.fetch := rfl

end ImageBus

end BoardIdentity.I2c
