import BoardIdentity.Carrier.Revision
import BoardIdentity.Dram.Tuning
import BoardIdentity.I2c.ImageBus
import BoardIdentity.Som.Product

/-!
# Start-up sessions

A session holds what a board has while it starts up: a bus, at most one EEPROM handle, at most one
module record, and the memory timing.  Commands act on it one at a time, and each is answered.

Commands that need a record or a handle say so if there is none; the record is looked for first.
-/

namespace BoardIdentity

/-! ## State -/

/-- The EEPROM that a session found, and whether it is read through a cache. -/
structure FoundEeprom where
  device : I2c.Device
  cached : Bool
  deriving DecidableEq, Repr

/-- A board that is starting up. -/
structure Session where
  bus : I2c.ImageBus
  timing : Dram.Timing
  flushes : Nat := 0
  eeprom : Option FoundEeprom := none
  record : Option Som.Record := none

namespace Session

/-! ## Commands and replies -/

inductive Command where
  | findEeprom (bus : String) (address : UInt8) (cached : Bool)
  | readBytes (offset : UInt32) (length : Nat)
  | readRow (offset : UInt32)
  | readModule
  | setRecord (bytes : List UInt8)
  | macAddress (trusted : Som.Judgement)
  | memorySize (trusted : Som.Judgement) (default : Nat)
  | product (trusted : Som.Judgement) (partPrefix : String)
  | tune (onFailure : Dram.OnFailure) (trusted : Som.Judgement)
  | readCarrier (bus : String) (address : UInt8) (cached : Bool)
  | probeBus (bus : String) (address : UInt8)
  | readBus (device : I2c.Device) (offset : UInt32) (length : Nat)
  | breakByte (offset : UInt32) (fault : I2c.Fault)
  | emptyLog
  | showLog
  | showTable (name : Dram.TableName)
  | setRow (name : Dram.TableName) (index : Nat) (row : Dram.Setting)
  | showTiming

inductive Reply where
  | done
  | noRecord
  | noEeprom
  | wrongSize (length : Nat)
  | found (answer : Except EepromFault I2c.Device)
  | bytes (answer : Except EepromFault (List UInt8))
  | row (answer : Except EepromFault Dram.Setting)
  | record (answer : Except EepromFault Som.Record)
  | macAddress (answer : Option MacAddress)
  | memorySize (bytes : Nat)
  | product (answer : Option Som.Product)
  | tuned (answer : Except Dram.Stop Dram.Tuning) (timing : Dram.Timing)
  | carrier (answer : Except EepromFault Carrier.Record) (revision : Carrier.Revision)
  | probed (answer : Except I2c.Fault I2c.Device)
  | buffer (answer : Except I2c.Fault Unit) (buffer : List UInt8)
  | broken (fault : I2c.Fault)
  | log (requests : List I2c.ReadRequest)
  | table (settings : Option (List Dram.Setting))
  | noRow
  | timing (timing : Dram.Timing)

/-! ## Access -/

/-- The byte that a buffer is filled with before a read, to show what the read left alone. -/
def fillByte : UInt8 := 0xa5

/-- The cache that an EEPROM is read through, with the flushes so far. -/
def cache (session : Session) (cached : Bool) : Option FlushCount :=
  if cached then some { flushes := session.flushes } else none

/-- Keeps what a read did to the bus and to the cache. -/
def keep (session : Session) (bus : I2c.ImageBus) (cache : Option FlushCount) : Session :=
  { session with bus, flushes := (cache.map (·.flushes)).getD session.flushes }

/-- Runs an action on the session's EEPROM, if it has one. -/
def onEeprom (session : Session) {α : Type}
    (action : Eeprom I2c.ImageBus (Option FlushCount) →
      α × Eeprom I2c.ImageBus (Option FlushCount))
    (reply : α → Session → Reply × Session) : Reply × Session :=
  match session.eeprom with
  | none => (.noEeprom, session)
  | some found =>
    let (answer, eeprom) := action
      { bus := session.bus, device := found.device, cache := session.cache found.cached }
    reply answer (session.keep eeprom.bus eeprom.cache)

def onRecord (session : Session) (action : Som.Record → Reply × Session) : Reply × Session :=
  match session.record with
  | none => (.noRecord, session)
  | some record => action record

/-! ## Steps -/

/-- Looks for an EEPROM.  A search that fails also gives up the one found before. -/
def findEeprom (session : Session) (name : String) (address : UInt8) (cached : Bool) :
    Reply × Session :=
  match Eeprom.find session.bus name address (session.cache cached) with
  | (.ok eeprom, bus) =>
    (.found (.ok eeprom.device),
      { session with bus, eeprom := some { device := eeprom.device, cached } })
  | (.error fault, bus) => (.found (.error fault), { session with bus, eeprom := none })

/-- Reads the carrier record; the session's own EEPROM is not used. -/
def readCarrier (session : Session) (name : String) (address : UInt8) (cached : Bool) :
    Reply × Session :=
  let (answer, bus, cache) := Carrier.readRecord session.bus name address (session.cache cached)
  (.carrier answer (.ofAttempt answer), session.keep bus cache)

def tune (session : Session) (onFailure : Dram.OnFailure) (trusted : Som.Judgement)
    (record : Som.Record) : Reply × Session :=
  session.onEeprom
    (fun eeprom =>
      let (answer, timing, eeprom) := Dram.tune onFailure trusted record session.timing eeprom
      ((answer, timing), eeprom))
    fun (answer, timing) session => (.tuned answer timing, { session with timing })

def setRow (session : Session) (name : Dram.TableName) (index : Nat) (row : Dram.Setting) :
    Reply × Session :=
  match session.timing.setRow name index row with
  | .ok timing => (.table (timing.table? name), { session with timing })
  | .error .noTable => (.table none, session)
  | .error .noRow => (.noRow, session)

def step (session : Session) : Command → Reply × Session
  | .findEeprom bus address cached => session.findEeprom bus address cached
  | .readBytes offset length =>
    session.onEeprom (·.readBytes offset length) fun answer session =>
      (.bytes (answer.map (·.toList)), session)
  | .readRow offset =>
    session.onEeprom (·.read Dram.OverrideRow offset) fun answer session =>
      (.row (answer.map (·.setting)), session)
  | .readModule =>
    session.onEeprom (·.readModule) fun answer session =>
      (.record answer, { session with record := answer.toOption })
  | .setRecord bytes =>
    match Layout.ofList? Som.Record bytes with
    | some record => (.done, { session with record := some record })
    | none => (.wrongSize bytes.length, session)
  | .macAddress trusted =>
    session.onRecord fun record => (.macAddress (Som.macAddress? trusted record), session)
  | .memorySize trusted default =>
    session.onRecord fun record => (.memorySize (Som.memorySize trusted record default), session)
  | .product trusted partPrefix =>
    session.onRecord fun record => (.product (Som.product? trusted record partPrefix), session)
  | .tune onFailure trusted => session.onRecord (session.tune onFailure trusted)
  | .readCarrier bus address cached => session.readCarrier bus address cached
  | .probeBus bus address =>
    let (answer, bus) := session.bus.probe bus address
    (.probed answer, { session with bus })
  | .readBus device offset length =>
    let (answer, buffer, bus) :=
      I2c.readOver session.bus device offset (Vector.replicate length fillByte)
    (.buffer answer buffer.toList, { session with bus })
  | .breakByte offset fault =>
    (.broken fault, { session with bus := session.bus.breakByte offset fault })
  | .emptyLog => (.done, { session with bus := session.bus.emptyLog })
  | .showLog => (.log session.bus.log, session)
  | .showTable name => (.table (session.timing.table? name), session)
  | .setRow name index row => session.setRow name index row
  | .showTiming => (.timing session.timing, session)

end Session

end BoardIdentity
