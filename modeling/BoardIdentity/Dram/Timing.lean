/-!
# Memory timing

The register tables that set up the memory controller and its physical layer.  A board brings a
complete set; code that knows better patches single values before training starts.

`Timing.table?` reads a table by name and `Timing.setTable` replaces one.  The two agree:
`table?_setTable_self` and `table?_setTable_of_ne` say that a table reads back as it was set and
that no other table notices.  `Timing.access?` opens a table for writing single rows of it.
-/

namespace BoardIdentity.Dram

/-! ## Settings -/

/-- A value to be written to a register. -/
structure Setting where
  register : UInt32
  value : UInt32
  deriving DecidableEq, Repr

/-- The training firmware that a set point runs. -/
inductive Firmware where
  | oneDimensional
  | twoDimensional
  deriving DecidableEq, Repr

/-- What one frequency set point asks of the training firmware. -/
structure SetPoint where
  dataRate : UInt32
  firmware : Firmware
  settings : List Setting
  deriving DecidableEq, Repr

/-- All tables of a board, and the data rate of each set point.  The registers of a table are
expected in ascending order. -/
structure Timing where
  controller : List Setting
  phy : List Setting
  trainedPhy : List Setting
  phyEngine : List Setting
  setPoints : List SetPoint
  dataRates : Vector UInt32 4
  deriving DecidableEq, Repr

/-! ## Tables by name -/

inductive TableName where
  | controller
  | phy
  | trainedPhy
  | phyEngine
  | setPoint (index : Nat)
  deriving DecidableEq, Repr

namespace Timing

/-- The table of that name; a set point that the board does not have has none. -/
def table? (timing : Timing) : TableName → Option (List Setting)
  | .controller => some timing.controller
  | .phy => some timing.phy
  | .trainedPhy => some timing.trainedPhy
  | .phyEngine => some timing.phyEngine
  | .setPoint index => timing.setPoints[index]?.map (·.settings)

/-- The timing with one table replaced; without a table of that name it stays as it is. -/
def setTable (timing : Timing) (name : TableName) (settings : List Setting) : Timing :=
  match name with
  | .controller => { timing with controller := settings }
  | .phy => { timing with phy := settings }
  | .trainedPhy => { timing with trainedPhy := settings }
  | .phyEngine => { timing with phyEngine := settings }
  | .setPoint index =>
    { timing with setPoints := timing.setPoints.modify index ({ · with settings }) }

/-- A table that exists reads back as it was set. -/
theorem table?_setTable_self (timing : Timing) (name : TableName) (settings : List Setting) :
    (timing.setTable name settings).table? name = (timing.table? name).map fun _ => settings := by
  cases name with
  | setPoint index =>
    simp only [table?, setTable, List.getElem?_modify, if_true, Option.map_map]
    cases timing.setPoints[index]? <;> rfl
  | _ => rfl

/-- Setting one table leaves every other table as it is. -/
theorem table?_setTable_of_ne (timing : Timing) {name other : TableName} (settings : List Setting)
    (distinct : other ≠ name) :
    (timing.setTable name settings).table? other = timing.table? other := by
  cases name <;> cases other <;>
    simp_all [table?, setTable, eq_comm]

/-! ## Rows -/

/-- A table that is open for writing: the settings that it holds, and the timing with others in
their place. -/
structure Access where
  settings : List Setting
  store : List Setting → Timing

/-- Opens the table of that name for writing; a set point that the board does not have has none. -/
def access? (timing : Timing) : TableName → Option Access
  | .controller =>
    some { settings := timing.controller, store := ({ timing with controller := · }) }
  | .phy => some { settings := timing.phy, store := ({ timing with phy := · }) }
  | .trainedPhy =>
    some { settings := timing.trainedPhy, store := ({ timing with trainedPhy := · }) }
  | .phyEngine => some { settings := timing.phyEngine, store := ({ timing with phyEngine := · }) }
  | .setPoint index =>
    timing.setPoints[index]?.map fun point =>
      { settings := point.settings
        store := fun settings =>
          { timing with setPoints := timing.setPoints.set index { point with settings } } }

/-- Why a row cannot be written. -/
inductive RowError where
  | noTable
  | noRow
  deriving DecidableEq, Repr

/-- The timing with one row of one table replaced. -/
def setRow (timing : Timing) (name : TableName) (index : Nat) (row : Setting) :
    Except RowError Timing :=
  match timing.access? name with
  | none => .error .noTable
  | some access =>
    if index < access.settings.length then .ok (access.store (access.settings.set index row))
    else .error .noRow

/-! ## Data rates -/

/-- The timing with one data rate for the first set point of the rate table and for the first two
set points of the training firmware, as far as the board has them. -/
def setDataRate (timing : Timing) (rate : UInt32) : Timing :=
  { timing with
    setPoints := (timing.setPoints.take 2).map ({ · with dataRate := rate }) ++
      timing.setPoints.drop 2
    dataRates := timing.dataRates.set 0 rate }

end Timing

end BoardIdentity.Dram
