import BoardIdentity.Proofs.Dram.TableRuns
import BoardIdentity.Proofs.Eeprom.Exchanges
import Mathlib.Algebra.GroupWithZero.Nat
import Mathlib.Data.List.Forall2

/-!
# What a tuning says to its bus

Nothing is assumed about the bus here: it may answer by anything it has seen before.  `Scan` is what
passes over the bus while the rows of one table are read, and `InTurn` puts the scans of several
tables one after the other, with nothing behind a failure that stops the tuning.  Whatever the bus,
reading rows is a scan (`readRows_scan`), a table's turn merges what its scan delivered
(`tuneTable_turn`), and a run over tables is scans in turn (`tuneTables_inTurn`).
-/

namespace BoardIdentity.I2c.Exchange

/-- The setting that the delivered bytes ask for, if they are a row. -/
def setting? (exchange : Exchange) : Option Dram.Setting :=
  exchange.answer.toOption.bind fun bytes =>
    (Layout.ofList? Dram.OverrideRow bytes).map (·.setting)

/-- The failure that the exchange is for the reader of an EEPROM. -/
def failure? (exchange : Exchange) : Option EepromFault :=
  match exchange.answer with
  | .ok _ => none
  | .error fault => some (.readFailed fault)

variable {request : ReadRequest}

@[simp]
theorem failure?_ok (bytes : List UInt8) :
    (Exchange.mk request (.ok bytes)).failure? = none := rfl

@[simp]
theorem failure?_error (fault : Fault) :
    (Exchange.mk request (.error fault)).failure? = some (.readFailed fault) := rfl

end BoardIdentity.I2c.Exchange

namespace BoardIdentity.Dram

open I2c (Exchange)

/-! ## Rows of one table -/

/-- The request for row `row` of the rows from `start` on. -/
def rowRequest (device : I2c.Device) (start row : Nat) : I2c.ReadRequest where
  device
  offset := UInt32.ofNat (start + 8 * row)
  length := 8

/-- Every read of a scan succeeded. -/
def Clean (scan : List Exchange) : Prop :=
  ∀ exchange ∈ scan, exchange.succeeded = true

/-- What the rows that were delivered ask for. -/
def delivered (scan : List Exchange) : List Setting :=
  scan.filterMap (·.setting?)

/-- Rows are read one after the other from the first on, up to and including the first that fails,
or to the last. -/
structure Scan (device : I2c.Device) (start rows : Nat) (scan : List Exchange) : Prop where
  requests : scan.map (·.request) = (List.range scan.length).map (rowRequest device start)
  length_le : scan.length ≤ rows
  clean_dropLast : Clean scan.dropLast
  ended : scan.length = rows ∨ ∃ last ∈ scan.getLast?, last.succeeded = false

variable {device : I2c.Device} {start rows : Nat}

theorem rowRequest_succ (row : Nat) :
    rowRequest device start (row + 1) = rowRequest device (start + 8) row := by
  unfold rowRequest
  congr 2
  omega

namespace Scan

theorem done : Scan device start 0 [] :=
  ⟨rfl, Nat.le_refl 0, nofun, Or.inl rfl⟩

theorem failed (fault : I2c.Fault) :
    Scan device start (rows + 1)
      [{ request := rowRequest device start 0, answer := .error fault }] :=
  ⟨rfl, Nat.succ_le_succ (Nat.zero_le rows), nofun, Or.inr ⟨_, rfl, rfl⟩⟩

theorem next {bytes : List UInt8} {later : List Exchange}
    (scan : Scan device (start + 8) rows later) :
    Scan device start (rows + 1)
      ({ request := rowRequest device start 0, answer := .ok bytes } :: later) where
  requests := by
    simp only [List.map_cons, List.length_cons, List.range_succ_eq_map, scan.requests, List.map_map,
      Function.comp_def, Nat.succ_eq_add_one, rowRequest_succ]
  length_le := Nat.succ_le_succ scan.length_le
  clean_dropLast := by
    cases later with
    | nil => exact nofun
    | cons exchange later =>
      intro member inside
      rcases List.mem_cons.mp inside with rfl | behind
      · rfl
      · exact scan.clean_dropLast member behind
  ended := by
    rcases scan.ended with all | ⟨last, isLast, failed⟩
    · exact Or.inl (congrArg (· + 1) all)
    · refine Or.inr ⟨last, ?_, failed⟩
      cases later with
      | nil => cases isLast
      | cons exchange later => exact isLast

/-- Every read of a scan asks for one of the rows. -/
theorem request_of_mem {scan : List Exchange} (scanned : Scan device start rows scan)
    {exchange : Exchange} (member : exchange ∈ scan) :
    ∃ row < rows, exchange.request = rowRequest device start row := by
  obtain ⟨row, inside, rfl⟩ := List.getElem_of_mem member
  refine ⟨row, Nat.lt_of_lt_of_le inside scanned.length_le, ?_⟩
  have asked := congrArg (·[row]?) scanned.requests
  simpa [inside] using asked

end Scan

variable {β κ : Type} [I2c.Bus β] [Cache κ]

/-- Reading rows is a scan, and delivers what the scan delivered, with the scan's failure. -/
theorem readRows_scan (eeprom : Eeprom (I2c.Recorded β) κ) (address count : Nat) :
    ∃ scan, Scan eeprom.device address count scan ∧
      eeprom.Exchanged scan (readRows eeprom address count).2 ∧
      (readRows eeprom address count).1 =
        { overrides := delivered scan, failure := scan.findSome? (·.failure?) } ∧
      (delivered scan).length = scan.countP (·.succeeded) := by
  induction count generalizing eeprom address with
  | zero => exact ⟨[], .done, .refl eeprom, rfl, rfl⟩
  | succ count ih =>
    rw [readRows]
    rcases reading : eeprom.read OverrideRow (UInt32.ofNat address) with ⟨failure | row, after⟩
    · obtain ⟨fault, rfl, exchanged⟩ :=
        Eeprom.exchanged_read_of_error (congrArg (·.1) reading)
      rw [reading] at exchanged
      exact ⟨_, .failed fault, exchanged, rfl, rfl⟩
    · obtain ⟨bytes, holds, exchanged⟩ :=
        Eeprom.exchanged_read_of_ok (congrArg (·.1) reading)
      rw [reading] at exchanged
      obtain ⟨later, scan, exchangedLater, found, count⟩ := ih after (address + OverrideRow.width)
      rw [exchanged.device] at scan
      have first : ∀ request, (Exchange.mk request (.ok bytes)).setting? = some row.setting := by
        intro request
        simp [Exchange.setting?, Except.toOption, holds]
      refine ⟨_, scan.next, exchanged.trans exchangedLater, ?_, ?_⟩
      · simp only [found, delivered, List.filterMap_cons, first, List.findSome?_cons,
          Exchange.failure?_ok]
      · simp only [delivered, List.filterMap_cons, first, List.length_cons, List.countP_cons,
          Exchange.succeeded_ok, if_true]
        exact congrArg (· + 1) count

/-! ## The turn of a table -/

/-- A table that the board has is scanned, and one that it has not is passed over. -/
def ScansTable (device : I2c.Device) (plan : Plan) (table? : Option (List Setting))
    (scan : List Exchange) : Prop :=
  match table? with
  | none => scan = []
  | some _ => Scan device plan.offset.toNat plan.rows scan

/-- What an outcome tells of the reads of its table. -/
structure Reports (scan : List Exchange) (outcome : TableOutcome) : Prop where
  read : outcome.read = scan.countP (·.succeeded)
  failure : outcome.failure = scan.findSome? (·.failure?)

/-- A table with the delivered rows merged into it. -/
def mergedWith (table : List Setting) (scan : List Exchange) : List Setting :=
  (Reference.merge table (delivered scan)).table

theorem mergedWith_nil (table : List Setting) : mergedWith table [] = table := rfl

theorem clean_iff (scan : List Exchange) : Clean scan ↔ scan.findSome? (·.failure?) = none := by
  rw [List.findSome?_eq_none_iff]
  refine forall₂_congr fun exchange _ => ?_
  obtain ⟨request, fault | bytes⟩ := exchange
  · exact ⟨nofun, nofun⟩
  · exact ⟨fun _ => rfl, fun _ => rfl⟩

/-- A scan is as long as its successes are many, and one longer if it failed. -/
theorem Scan.length_eq {scan : List Exchange} (scanned : Scan device start rows scan) :
    scan.length = scan.countP (·.succeeded) +
      if (scan.findSome? (·.failure?)).isSome then 1 else 0 := by
  rcases List.eq_nil_or_concat scan with rfl | ⟨front, last, rfl⟩
  · rfl
  · have clean : Clean front := by simpa using scanned.clean_dropLast
    have all : front.countP (·.succeeded) = front.length := List.countP_eq_length.mpr clean
    have none := (clean_iff front).mp clean
    obtain ⟨request, fault | bytes⟩ := last
    · simp [all]
    · simp [all, List.findSome?_append, none]

/-- Outcomes account for every read of their scans. -/
theorem sum_read_of_reports {scans : List (List Exchange)} {outcomes : List TableOutcome}
    (reports : List.Forall₂ Reports scans outcomes)
    (counted : ∀ scan ∈ scans, scan.length = scan.countP (·.succeeded) +
      if (scan.findSome? (·.failure?)).isSome then 1 else 0) :
    scans.flatten.countP (·.succeeded) = (outcomes.map (·.read)).sum ∧
      scans.flatten.length =
        (outcomes.map (·.read)).sum + outcomes.countP (·.failure.isSome) := by
  induction reports with
  | nil => exact ⟨rfl, rfl⟩
  | cons report reports ih =>
    rw [List.forall_mem_cons] at counted
    obtain ⟨first, later⟩ := counted
    obtain ⟨successes, length⟩ := ih later
    rw [← report.read, ← report.failure] at first
    simp only [List.flatten_cons, List.countP_append, List.length_append, List.map_cons,
      List.sum_cons, List.countP_cons, ← report.read]
    omega

theorem tuneTable_turn (plan : Plan) (timing : Timing) (eeprom : Eeprom (I2c.Recorded β) κ) :
    ∃ scan, ScansTable eeprom.device plan (timing.table? plan.target.table) scan ∧
      eeprom.Exchanged scan (tuneTable plan timing eeprom).2.2 ∧
      Reports scan (tuneTable plan timing eeprom).1 ∧
      (tuneTable plan timing eeprom).2.1.table? plan.target.table =
        (timing.table? plan.target.table).map (mergedWith · scan) := by
  unfold tuneTable
  cases present : timing.table? plan.target.table with
  | none => exact ⟨[], rfl, .refl eeprom, ⟨rfl, rfl⟩, present⟩
  | some table =>
    obtain ⟨scan, scanned, exchanged, found, count⟩ :=
      readRows_scan eeprom plan.offset.toNat plan.rows
    refine ⟨scan, scanned, exchanged, ⟨?_, ?_⟩, ?_⟩
    · simp only [found, count]
    · simp only [found]
    · simp only [found, Timing.table?_setTable_self, present, Reference.table_run_eq_merge,
        Option.map_some, mergedWith]

/-! ## Tables in turn -/

/-- The scans of several tables, in order.  A failure that stops the tuning leaves nothing to scan
for the tables after it. -/
inductive InTurn (onFailure : OnFailure) (device : I2c.Device) (timing : Timing) :
    List Plan → List (List Exchange) → Prop
  | nil : InTurn onFailure device timing [] []
  | stop {plan : Plan} {plans : List Plan} {scan : List Exchange} (asked : onFailure = .stop)
      (turn : ScansTable device plan (timing.table? plan.target.table) scan)
      (failed : ¬ Clean scan) :
      InTurn onFailure device timing (plan :: plans) (scan :: plans.map fun _ => [])
  | next {plan : Plan} {plans : List Plan} {scan : List Exchange} {scans : List (List Exchange)}
      (turn : ScansTable device plan (timing.table? plan.target.table) scan)
      (goesOn : onFailure = .stop → Clean scan)
      (later : InTurn onFailure device timing plans scans) :
      InTurn onFailure device timing (plan :: plans) (scan :: scans)

variable {onFailure : OnFailure} {timing : Timing}

theorem InTurn.congr {plans : List Plan} {scans : List (List Exchange)} {other : Timing}
    (inTurn : InTurn onFailure device timing plans scans)
    (same : ∀ plan ∈ plans, timing.table? plan.target.table = other.table? plan.target.table) :
    InTurn onFailure device other plans scans := by
  induction inTurn with
  | nil => exact .nil
  | stop asked turn failed =>
    rw [List.forall_mem_cons] at same
    rw [same.1] at turn
    exact .stop asked turn failed
  | next turn goesOn later ih =>
    rw [List.forall_mem_cons] at same
    rw [same.1] at turn
    exact .next turn goesOn (ih same.2)

namespace InTurn

variable {plans : List Plan} {scans : List (List Exchange)} {plan : Plan} {scan : List Exchange}
  {index : Nat}

theorem length_eq (inTurn : InTurn onFailure device timing plans scans) :
    scans.length = plans.length := by
  induction inTurn with
  | nil => rfl
  | stop => simp
  | next _ _ _ ih => exact congrArg (· + 1) ih

/-- A table whose turn comes is scanned. -/
theorem turn (inTurn : InTurn onFailure device timing plans scans)
    (planned : plans[index]? = some plan) (scanned : scans[index]? = some scan)
    (reached : onFailure = .stop → ∀ earlier ∈ scans.take index, Clean earlier) :
    ScansTable device plan (timing.table? plan.target.table) scan := by
  induction inTurn generalizing index with
  | nil => cases planned
  | stop asked turn failed =>
    cases index with
    | zero =>
      cases planned
      cases scanned
      exact turn
    | succ index => exact absurd (reached asked _ (List.mem_cons_self ..)) failed
  | next turn goesOn later ih =>
    cases index with
    | zero =>
      cases planned
      cases scanned
      exact turn
    | succ index =>
      exact ih planned scanned fun asked earlier member =>
        reached asked earlier (List.mem_cons_of_mem _ member)

/-- Nothing is scanned behind a failure that stops the tuning. -/
theorem stopped (inTurn : InTurn onFailure device timing plans scans) (asked : onFailure = .stop)
    (scanned : scans[index]? = some scan) {earlier : List Exchange}
    (before : earlier ∈ scans.take index) (failed : ¬ Clean earlier) : scan = [] := by
  induction inTurn generalizing index with
  | nil => cases scanned
  | stop =>
    cases index with
    | zero => cases before
    | succ index =>
      obtain ⟨_, _, rfl⟩ := List.mem_map.mp (List.mem_of_getElem? scanned)
      rfl
  | next turn goesOn later ih =>
    cases index with
    | zero => cases before
    | succ index =>
      rcases List.mem_cons.mp before with rfl | behind
      · exact absurd (goesOn asked) failed
      · exact ih scanned behind

end InTurn

/-- **A run over different tables scans them in turn.**  Each table ends as what its scan delivered
makes of it, and each outcome tells of its scan. -/
theorem tuneTables_inTurn (onFailure : OnFailure) {plans : List Plan}
    (distinct : plans.Pairwise fun first second => first.target.table ≠ second.target.table)
    (timing : Timing) (eeprom : Eeprom (I2c.Recorded β) κ) :
    ∃ scans, InTurn onFailure eeprom.device timing plans scans ∧
      eeprom.Exchanged scans.flatten (tuneTables onFailure plans timing eeprom).2.2 ∧
      List.Forall₂ (fun plan scan =>
        (tuneTables onFailure plans timing eeprom).2.1.table? plan.target.table =
          (timing.table? plan.target.table).map (mergedWith · scan)) plans scans ∧
      ∀ outcomes, (tuneTables onFailure plans timing eeprom).1 = .ok outcomes →
        List.Forall₂ Reports scans outcomes := by
  induction plans generalizing timing eeprom with
  | nil =>
    refine ⟨[], .nil, .refl eeprom, .nil, fun outcomes reported => ?_⟩
    cases reported
    exact .nil
  | cons plan plans ih =>
    rw [List.pairwise_cons] at distinct
    obtain ⟨apart, distinctLater⟩ := distinct
    obtain ⟨scan, turn, exchanged, reports, patched⟩ := tuneTable_turn plan timing eeprom
    have kept : ∀ later ∈ plans, (tuneTable plan timing eeprom).2.1.table? later.target.table =
        timing.table? later.target.table := fun later member =>
      table?_tuneTable_of_ne (apart later member).symm timing eeprom
    by_cases clean : onFailure = .stop → Clean scan
    case neg =>
      obtain ⟨rfl, failed⟩ := Classical.not_imp.mp clean
      obtain ⟨failure, fails⟩ : ∃ failure, scan.findSome? (·.failure?) = some failure :=
        Option.ne_none_iff_exists'.mp fun none => failed ((clean_iff scan).mpr none)
      rw [tuneTables_cons_of_stop (reports.failure.trans fails)]
      refine ⟨_, .stop rfl turn failed, ?_, .cons patched ?_, nofun⟩
      · simpa using exchanged
      · refine List.forall₂_map_right_iff.mpr (List.forall₂_same.mpr fun later member => ?_)
        simp only [kept later member, mergedWith_nil, Option.map_id']
    case pos =>
      have goesOn : onFailure = .stop → (tuneTable plan timing eeprom).1.failure = none :=
        fun stop => reports.failure.trans ((clean_iff scan).mp (clean stop))
      obtain ⟨scans, inTurn, exchangedLater, tables, reportsLater⟩ :=
        ih distinctLater (tuneTable plan timing eeprom).2.1 (tuneTable plan timing eeprom).2.2
      rw [exchanged.device] at inTurn
      rw [tuneTables_cons_of_next goesOn]
      refine ⟨_, .next turn clean (inTurn.congr kept), exchanged.trans exchangedLater,
        .cons ?_ ?_, fun outcomes reported => ?_⟩
      · exact (table?_tuneTables_of_forall_ne (fun later member => apart later member) _ _).trans
          patched
      · exact ((List.forall₂_and_left plans scans).mpr ⟨kept, tables⟩).imp
          fun _ _ ⟨same, merged⟩ => merged.trans (by rw [same])
      · cases run : (tuneTables onFailure plans (tuneTable plan timing eeprom).2.1
            (tuneTable plan timing eeprom).2.2).1 with
        | error stop =>
          rw [run] at reported
          cases reported
        | ok later =>
          rw [run] at reported
          cases reported
          exact .cons reports (reportsLater later run)

end BoardIdentity.Dram
