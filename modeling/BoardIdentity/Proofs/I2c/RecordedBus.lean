import BoardIdentity.I2c.ImageBus

/-!
# Buses with a record of their reads

`Recorded` puts a record around any bus.  Every read is passed on unchanged and its request is
written down, whether or not it succeeds, so that the transactions of a program are the requests
that its run on a recorded bus leaves.
-/

namespace BoardIdentity.I2c

/-- A bus, and what was read from it, oldest first. -/
structure Recorded (β : Type) where
  bus : β
  requests : List ReadRequest := []

namespace Recorded

variable {β : Type} [Bus β]

/-- Passes the probe on. -/
def probe (recorded : Recorded β) (name : String) (address : UInt8) :
    Except Fault Device × Recorded β :=
  let (answer, bus) := Bus.probe recorded.bus name address
  (answer, { recorded with bus })

/-- Passes the read on and writes its request down. -/
def read (recorded : Recorded β) (device : Device) (offset : UInt32) (length : Nat) :
    Except Fault (Vector UInt8 length) × Recorded β :=
  let (answer, bus) := Bus.read recorded.bus device offset length
  (answer, { bus, requests := recorded.requests ++ [{ device, offset, length }] })

instance : Bus (Recorded β) where
  probe := probe
  read := read

end Recorded

end BoardIdentity.I2c
