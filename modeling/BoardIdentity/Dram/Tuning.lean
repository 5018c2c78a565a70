import BoardIdentity.Dram.OverrideRow
import BoardIdentity.Dram.Patch
import BoardIdentity.Som.Record

/-!
# Tuning memory to the module

From version 2 on, the module's EEPROM holds a table of overrides for each of five timing tables.
Table `i` starts at the record's offset `i` and ends at offset `i + 1`; an end of zero means that no
further table follows.  The length of a table is stored nowhere else.

`Dram.tune` reads the overrides, one row a transaction, and patches each timing table with them.  A
record that is not trusted, or is too old, leaves everything alone.  A failed read ends its table,
and the caller says whether the next table is tried or the tuning stops.
-/

namespace BoardIdentity.Dram

/-! ## Targets -/

/-- A timing table that the EEPROM can override, and its name in messages. -/
structure Target where
  name : String
  table : TableName
  deriving DecidableEq, Repr

/-- The tables behind the record's offsets, in the order in which they are provisioned. -/
def targets : Vector Target Som.tableCount :=
  #v[⟨"DDRC", .controller⟩, ⟨"DDR PHY", .phy⟩, ⟨"PIE", .phyEngine⟩, ⟨"FSP0", .setPoint 0⟩,
    ⟨"FSP0 2D", .setPoint 1⟩]

/-- Older records have no overrides. -/
def firstTuningVersion : UInt8 := 2

/-- How many rows each table of overrides has.  A zero where a table should end cuts that table and
all later ones off; only whole rows count, and a table that ends before it starts has none. -/
def rowCounts (offsets : Vector UInt8 (Som.tableCount + 1)) : Vector Nat Som.tableCount :=
  let bounds := offsets.toList.zip offsets.toList.tail
  let present := bounds.takeWhile fun (_, stop) => stop != 0
  let counts := present.map fun (start, stop) => (stop.toNat - start.toNat) / OverrideRow.width
  Vector.ofFn fun i => counts.getD i.val 0

/-- A target with the part of the EEPROM that holds its overrides. -/
structure Plan where
  target : Target
  offset : UInt8
  rows : Nat
  deriving DecidableEq, Repr

/-- The targets with the offsets and row counts that the record gives them. -/
def plans (offsets : Vector UInt8 (Som.tableCount + 1)) : List Plan :=
  List.ofFn fun i : Fin Som.tableCount =>
    { target := targets[i], offset := offsets[i.castSucc], rows := (rowCounts offsets)[i] }

/-! ## Results -/

/-- What to do after a failed read: end the tuning, with all that was patched before it, or read no
more of this table and tune the ones after it. -/
inductive OnFailure where
  | stop
  | nextTable
  deriving DecidableEq, Repr

/-- What happened to one table: how many rows the record's offsets leave room for, how many of them
were read, how many of those found an entry, and the read that failed, if one did. -/
structure TableOutcome where
  offset : UInt8
  rows : Nat
  read : Nat := 0
  matched : Nat := 0
  failure : Option EepromFault := none
  deriving DecidableEq, Repr

/-- How a tuning that was not stopped ended.  Only one that is `tuned` went through the tables and
set the data rate; a record that is too old has no overrides. -/
inductive Tuning where
  | untrusted
  | tooOld (version : UInt8)
  | tuned (tables : List TableOutcome) (dataRate : UInt32)
  deriving DecidableEq, Repr

/-- The failed read that stopped a tuning. -/
structure Stop where
  table : String
  row : Nat
  failure : EepromFault
  deriving DecidableEq, Repr

/-! ## Reading rows -/

variable {β κ : Type} [I2c.Bus β] [Cache κ]

/-- The overrides that were read before the first failure, if there was one. -/
structure RowsRead where
  overrides : List Setting
  failure : Option EepromFault
  deriving DecidableEq, Repr

/-- Reads rows one after the other, from an address on, up to the first failure. -/
def readRows (eeprom : Eeprom β κ) (address : Nat) : (count : Nat) → RowsRead × Eeprom β κ
  | 0 => ({ overrides := [], failure := none }, eeprom)
  | count + 1 =>
    match eeprom.read OverrideRow (UInt32.ofNat address) with
    | (.error failure, eeprom) => ({ overrides := [], failure := some failure }, eeprom)
    | (.ok row, eeprom) =>
      let (later, eeprom) := readRows eeprom (address + OverrideRow.width) count
      ({ later with overrides := row.setting :: later.overrides }, eeprom)

/-! ## Tuning tables -/

/-- Reads the overrides of one table and patches it with those that were read.  A table that the
board does not have is passed over without a read. -/
def tuneTable (plan : Plan) (timing : Timing) (eeprom : Eeprom β κ) :
    TableOutcome × Timing × Eeprom β κ :=
  match timing.table? plan.target.table with
  | none => ({ offset := plan.offset, rows := plan.rows }, timing, eeprom)
  | some table =>
    let (found, eeprom) := readRows eeprom plan.offset.toNat plan.rows
    let (steps, patch) := Patch.run { table } found.overrides
    ({ offset := plan.offset
       rows := plan.rows
       read := found.overrides.length
       matched := Patch.hits steps
       failure := found.failure },
      timing.setTable plan.target.table patch.table, eeprom)

/-- Tunes tables in order and reports on each, or stops after the first failed read if asked to. -/
def tuneTables (onFailure : OnFailure) :
    List Plan → Timing → Eeprom β κ → Except Stop (List TableOutcome) × Timing × Eeprom β κ
  | [], timing, eeprom => (.ok [], timing, eeprom)
  | plan :: plans, timing, eeprom =>
    let (outcome, timing, eeprom) := tuneTable plan timing eeprom
    match onFailure, outcome.failure with
    | .stop, some failure =>
      (.error { table := plan.target.name, row := outcome.read, failure }, timing, eeprom)
    | _, _ =>
      let (later, timing, eeprom) := tuneTables onFailure plans timing eeprom
      (later.map (outcome :: ·), timing, eeprom)

/-- Patches the timing with the overrides that the record describes, then sets the record's data
rate, unless the tuning was stopped. -/
def tune (onFailure : OnFailure) (trusted : Som.Judgement) (record : Som.Record) (timing : Timing)
    (eeprom : Eeprom β κ) : Except Stop Tuning × Timing × Eeprom β κ :=
  if !trusted record then
    (.ok .untrusted, timing, eeprom)
  else if record.version < firstTuningVersion then
    (.ok (.tooOld record.version), timing, eeprom)
  else
    match tuneTables onFailure (plans record.tableOffsets) timing eeprom with
    | (.error stop, timing, eeprom) => (.error stop, timing, eeprom)
    | (.ok tables, timing, eeprom) =>
      let dataRate := record.dataRate.toUInt32
      (.ok (.tuned tables dataRate), timing.setDataRate dataRate, eeprom)

end BoardIdentity.Dram
