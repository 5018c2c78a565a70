import BoardIdentity.Proofs.Dram.ReferenceMerge
import BoardIdentity.Proofs.Dram.RowReads
import BoardIdentity.Proofs.Dram.TimingFields

/-!
# Runs over the tables

`tuneEach` goes through all tables whatever fails.  A tuning that passes failures over is that run
(`tuneTables_nextTable`); one that stops at a failure is that run too if nothing fails
(`tuneTables_stop_of_forall`), and else the part of it up to the first table that fails
(`tuneTables_stop_of_failure`).

A run touches no table but those it is for and nothing besides the tables, and it only adds to the
record of the bus.  On a bus that answers by offset, `RowAnswers.outcome` and `RowAnswers.patched`
are what it reports of a table and what it makes of it.
-/

namespace BoardIdentity.Dram

variable {β κ : Type} [I2c.Bus β] [Cache κ]

/-- Tunes tables in order and reports on each, whatever fails. -/
def tuneEach : List Plan → Timing → Eeprom β κ → List TableOutcome × Timing × Eeprom β κ
  | [], timing, eeprom => ([], timing, eeprom)
  | plan :: plans, timing, eeprom =>
    let (outcome, timing, eeprom) := tuneTable plan timing eeprom
    let (later, timing, eeprom) := tuneEach plans timing eeprom
    (outcome :: later, timing, eeprom)

theorem tuneEach_append (before after : List Plan) (timing : Timing) (eeprom : Eeprom β κ) :
    tuneEach (before ++ after) timing eeprom =
      let (outcomes, timing, eeprom) := tuneEach before timing eeprom
      let (later, timing, eeprom) := tuneEach after timing eeprom
      (outcomes ++ later, timing, eeprom) := by
  induction before generalizing timing eeprom with
  | nil => rfl
  | cons plan before ih =>
    simp only [List.cons_append, tuneEach]
    rw [ih]

@[simp]
theorem length_tuneEach (plans : List Plan) (timing : Timing) (eeprom : Eeprom β κ) :
    (tuneEach plans timing eeprom).1.length = plans.length := by
  induction plans generalizing timing eeprom with
  | nil => rfl
  | cons plan plans ih => exact congrArg (· + 1) (ih _ _)

/-! ## The two ways to go on after a failure -/

theorem next_or_stop (onFailure : OnFailure) (outcome : TableOutcome) :
    (onFailure = .stop → outcome.failure = none) ∨
      onFailure = .stop ∧ ∃ failure, outcome.failure = some failure := by
  cases failed : outcome.failure with
  | none => exact Or.inl fun _ => rfl
  | some failure =>
    cases onFailure with
    | nextTable => exact Or.inl nofun
    | stop => exact Or.inr ⟨rfl, failure, rfl⟩

/-- A failure that stops the run leaves the later tables alone. -/
theorem tuneTables_cons_of_stop {plan : Plan} {plans : List Plan} {timing : Timing}
    {eeprom : Eeprom β κ} {failure : EepromFault}
    (fails : (tuneTable plan timing eeprom).1.failure = some failure) :
    tuneTables .stop (plan :: plans) timing eeprom =
      (.error { table := plan.target.name, row := (tuneTable plan timing eeprom).1.read, failure },
        (tuneTable plan timing eeprom).2) := by
  simp only [tuneTables, fails]

/-- Otherwise the run goes on with the later tables. -/
theorem tuneTables_cons_of_next {onFailure : OnFailure} {plan : Plan} {plans : List Plan}
    {timing : Timing} {eeprom : Eeprom β κ}
    (goesOn : onFailure = .stop → (tuneTable plan timing eeprom).1.failure = none) :
    tuneTables onFailure (plan :: plans) timing eeprom =
      ((tuneTables onFailure plans (tuneTable plan timing eeprom).2.1
          (tuneTable plan timing eeprom).2.2).1.map ((tuneTable plan timing eeprom).1 :: ·),
        (tuneTables onFailure plans (tuneTable plan timing eeprom).2.1
          (tuneTable plan timing eeprom).2.2).2) := by
  cases onFailure with
  | nextTable => rfl
  | stop => simp only [tuneTables, goesOn rfl]

/-- Passing failures over means going through all tables. -/
theorem tuneTables_nextTable (plans : List Plan) (timing : Timing) (eeprom : Eeprom β κ) :
    tuneTables .nextTable plans timing eeprom =
      (.ok (tuneEach plans timing eeprom).1, (tuneEach plans timing eeprom).2) := by
  induction plans generalizing timing eeprom with
  | nil => rfl
  | cons plan plans ih =>
    rw [tuneTables_cons_of_next, ih]
    · rfl
    · exact nofun

/-- Where no table fails, there is no reason to stop. -/
theorem tuneTables_stop_of_forall {plans : List Plan} {timing : Timing} {eeprom : Eeprom β κ}
    (clean : ∀ outcome ∈ (tuneEach plans timing eeprom).1, outcome.failure = none) :
    tuneTables .stop plans timing eeprom =
      (.ok (tuneEach plans timing eeprom).1, (tuneEach plans timing eeprom).2) := by
  induction plans generalizing timing eeprom with
  | nil => rfl
  | cons plan plans ih =>
    simp only [tuneEach, List.mem_cons, forall_eq_or_imp] at clean
    obtain ⟨first, later⟩ := clean
    rw [tuneTables_cons_of_next fun _ => first, ih later]
    rfl

/-- The first table that fails ends the run, right after what was read of it was merged. -/
theorem tuneTables_stop_of_failure {plans : List Plan} {plan : Plan} {index : Nat}
    {timing : Timing} {eeprom : Eeprom β κ} {outcome : TableOutcome} {failure : EepromFault}
    (turn : plans[index]? = some plan)
    (reported : (tuneEach plans timing eeprom).1[index]? = some outcome)
    (fails : outcome.failure = some failure)
    (clean : ∀ earlier < index, ∀ other,
      (tuneEach plans timing eeprom).1[earlier]? = some other → other.failure = none) :
    tuneTables .stop plans timing eeprom =
      (.error { table := plan.target.name, row := outcome.read, failure },
        (tuneEach (plans.take (index + 1)) timing eeprom).2) := by
  induction plans generalizing timing eeprom index with
  | nil => cases turn
  | cons first plans ih =>
    cases index with
    | zero =>
      obtain rfl : first = plan := Option.some.inj turn
      obtain rfl : (tuneTable first timing eeprom).1 = outcome := Option.some.inj reported
      exact tuneTables_cons_of_stop fails
    | succ index =>
      have cleanFirst : (tuneTable first timing eeprom).1.failure = none :=
        clean 0 (Nat.zero_lt_succ index) _ rfl
      rw [tuneTables_cons_of_next fun _ => cleanFirst]
      have cleanLater := fun earlier before => clean (earlier + 1) (Nat.succ_lt_succ before)
      rw [@ih index (tuneTable first timing eeprom).2.1 (tuneTable first timing eeprom).2.2 turn
        reported cleanLater]
      rfl

/-! ## Frames -/

/-- What one table's turn does to the timing: nothing, or one new content of that table. -/
theorem timing_tuneTable (plan : Plan) (timing : Timing) (eeprom : Eeprom β κ) :
    (tuneTable plan timing eeprom).2.1 = timing ∨
      ∃ settings, (tuneTable plan timing eeprom).2.1 =
        timing.setTable plan.target.table settings := by
  unfold tuneTable
  cases timing.table? plan.target.table with
  | none => exact Or.inl rfl
  | some table => exact Or.inr ⟨_, rfl⟩

theorem table?_tuneTable_of_ne {plan : Plan} {name : TableName}
    (other : name ≠ plan.target.table) (timing : Timing) (eeprom : Eeprom β κ) :
    (tuneTable plan timing eeprom).2.1.table? name = timing.table? name := by
  rcases timing_tuneTable plan timing eeprom with same | ⟨settings, changed⟩
  · rw [same]
  · rw [changed, Timing.table?_setTable_of_ne timing settings other]

/-- A table that a run is not for stays as it is. -/
theorem table?_tuneEach_of_forall_ne {plans : List Plan} {name : TableName}
    (others : ∀ plan ∈ plans, name ≠ plan.target.table) (timing : Timing) (eeprom : Eeprom β κ) :
    (tuneEach plans timing eeprom).2.1.table? name = timing.table? name := by
  induction plans generalizing timing eeprom with
  | nil => rfl
  | cons plan plans ih =>
    rw [List.forall_mem_cons] at others
    exact (ih others.2 _ _).trans (table?_tuneTable_of_ne others.1 timing eeprom)

theorem besidesTables_tuneTable (plan : Plan) (timing : Timing) (eeprom : Eeprom β κ) :
    (tuneTable plan timing eeprom).2.1.besidesTables = timing.besidesTables := by
  rcases timing_tuneTable plan timing eeprom with same | ⟨settings, changed⟩
  · rw [same]
  · rw [changed, Timing.besidesTables_setTable]

/-- A run changes nothing besides tables. -/
theorem besidesTables_tuneEach (plans : List Plan) (timing : Timing) (eeprom : Eeprom β κ) :
    (tuneEach plans timing eeprom).2.1.besidesTables = timing.besidesTables := by
  induction plans generalizing timing eeprom with
  | nil => rfl
  | cons plan plans ih => exact (ih _ _).trans (besidesTables_tuneTable plan timing eeprom)

/-- Whatever is done after a failure, a run goes through the tables up to some one. -/
theorem exists_tuneEach_take (onFailure : OnFailure) (plans : List Plan) (timing : Timing)
    (eeprom : Eeprom β κ) :
    ∃ count, (tuneTables onFailure plans timing eeprom).2 =
      (tuneEach (plans.take count) timing eeprom).2 := by
  induction plans generalizing timing eeprom with
  | nil => exact ⟨0, rfl⟩
  | cons plan plans ih =>
    rcases next_or_stop onFailure (tuneTable plan timing eeprom).1 with
      goesOn | ⟨rfl, failure, fails⟩
    · obtain ⟨count, later⟩ :=
        ih (tuneTable plan timing eeprom).2.1 (tuneTable plan timing eeprom).2.2
      rw [tuneTables_cons_of_next goesOn]
      exact ⟨count + 1, later⟩
    · rw [tuneTables_cons_of_stop fails]
      exact ⟨1, rfl⟩

theorem table?_tuneTables_of_forall_ne {onFailure : OnFailure} {plans : List Plan}
    {name : TableName} (others : ∀ plan ∈ plans, name ≠ plan.target.table) (timing : Timing)
    (eeprom : Eeprom β κ) :
    (tuneTables onFailure plans timing eeprom).2.1.table? name = timing.table? name := by
  obtain ⟨count, run⟩ := exists_tuneEach_take onFailure plans timing eeprom
  rw [run]
  exact table?_tuneEach_of_forall_ne
    (fun plan member => others plan (List.mem_of_mem_take member)) timing eeprom

theorem besidesTables_tuneTables (onFailure : OnFailure) (plans : List Plan) (timing : Timing)
    (eeprom : Eeprom β κ) :
    (tuneTables onFailure plans timing eeprom).2.1.besidesTables = timing.besidesTables := by
  obtain ⟨count, run⟩ := exists_tuneEach_take onFailure plans timing eeprom
  rw [run]
  exact besidesTables_tuneEach (plans.take count) timing eeprom

/-! ## Records -/

theorem readRows_forget (eeprom : Eeprom (I2c.Recorded β) κ) (address count : Nat) :
    readRows eeprom.forget address count =
      ((readRows eeprom address count).1, (readRows eeprom address count).2.forget) := by
  induction count generalizing eeprom address with
  | zero => rfl
  | succ count ih =>
    rw [readRows, readRows, Eeprom.read_forget]
    rcases eeprom.read OverrideRow (UInt32.ofNat address) with ⟨answer, after⟩
    cases answer with
    | error failure => rfl
    | ok row =>
      simp only
      rw [ih]

theorem tuneTable_forget (plan : Plan) (timing : Timing) (eeprom : Eeprom (I2c.Recorded β) κ) :
    tuneTable plan timing eeprom.forget =
      ((tuneTable plan timing eeprom).1, (tuneTable plan timing eeprom).2.1,
        (tuneTable plan timing eeprom).2.2.forget) := by
  unfold tuneTable
  cases timing.table? plan.target.table with
  | none => rfl
  | some table =>
    simp only
    rw [readRows_forget]

/-- Tables are tuned without a record of the requests just as with one. -/
theorem tuneTables_forget (onFailure : OnFailure) (plans : List Plan) (timing : Timing)
    (eeprom : Eeprom (I2c.Recorded β) κ) :
    tuneTables onFailure plans timing eeprom.forget =
      ((tuneTables onFailure plans timing eeprom).1, (tuneTables onFailure plans timing eeprom).2.1,
        (tuneTables onFailure plans timing eeprom).2.2.forget) := by
  induction plans generalizing timing eeprom with
  | nil => rfl
  | cons plan plans ih =>
    simp only [tuneTables]
    rw [tuneTable_forget]
    rcases tuneTable plan timing eeprom with ⟨outcome, patched, after⟩
    cases onFailure with
    | nextTable =>
      simp only
      rw [ih]
    | stop =>
      cases outcome.failure with
      | some failure => rfl
      | none =>
        simp only
        rw [ih]

theorem requests_prefix_readRows (eeprom : Eeprom (I2c.Recorded β) κ) (address count : Nat) :
    eeprom.bus.requests <+: (readRows eeprom address count).2.bus.requests := by
  induction count generalizing eeprom address with
  | zero => exact List.prefix_rfl
  | succ count ih =>
    have first : eeprom.bus.requests <+:
        (eeprom.read OverrideRow (UInt32.ofNat address)).2.bus.requests := by
      rw [Eeprom.requests_read]
      exact List.prefix_append _ _
    rw [readRows]
    rcases reading : eeprom.read OverrideRow (UInt32.ofNat address) with ⟨answer, after⟩
    rw [reading] at first
    cases answer with
    | error failure => exact first
    | ok row => exact first.trans (ih after (address + OverrideRow.width))

theorem requests_prefix_tuneTable (plan : Plan) (timing : Timing)
    (eeprom : Eeprom (I2c.Recorded β) κ) :
    eeprom.bus.requests <+: (tuneTable plan timing eeprom).2.2.bus.requests := by
  unfold tuneTable
  cases timing.table? plan.target.table with
  | none => exact List.prefix_rfl
  | some table => exact requests_prefix_readRows eeprom plan.offset.toNat plan.rows

/-- A run adds its requests to the record and takes none away. -/
theorem requests_prefix_tuneEach (plans : List Plan) (timing : Timing)
    (eeprom : Eeprom (I2c.Recorded β) κ) :
    eeprom.bus.requests <+: (tuneEach plans timing eeprom).2.2.bus.requests := by
  induction plans generalizing timing eeprom with
  | nil => exact List.prefix_rfl
  | cons plan plans ih => exact (requests_prefix_tuneTable plan timing eeprom).trans (ih _ _)

/-! ## Runs on a bus that answers by offset -/

/-- What is reported of a table with `rows` rows of overrides from `offset` on. -/
def RowAnswers.outcome (answers : RowAnswers) (offset : UInt8) (rows : Nat) :
    Option (List Setting) → TableOutcome
  | none => { offset, rows, read := 0, matched := 0, failure := none }
  | some table =>
    { offset
      rows
      read := answers.readable offset.toNat rows
      matched := (Reference.merge table (answers.overrides offset.toNat rows)).matched
      failure := answers.failure? offset.toNat rows }

/-- What is made of a table with `rows` rows of overrides from `offset` on. -/
def RowAnswers.patched (answers : RowAnswers) (offset : UInt8) (rows : Nat)
    (table : List Setting) : List Setting :=
  (Reference.merge table (answers.overrides offset.toNat rows)).table

variable {answers : RowAnswers} {eeprom : Eeprom β κ}

theorem tuneTable_of_answersRows (steady : eeprom.AnswersRows answers) (plan : Plan)
    (timing : Timing) :
    (tuneTable plan timing eeprom).1 =
        answers.outcome plan.offset plan.rows (timing.table? plan.target.table) ∧
      (tuneTable plan timing eeprom).2.1.table? plan.target.table =
        (timing.table? plan.target.table).map (answers.patched plan.offset plan.rows) ∧
      (tuneTable plan timing eeprom).2.2.AnswersRows answers := by
  obtain ⟨found, later⟩ := readRows_of_answersRows steady plan.offset.toNat plan.rows
  unfold tuneTable
  cases present : timing.table? plan.target.table with
  | none => exact ⟨rfl, present, steady⟩
  | some table =>
    refine ⟨?_, ?_, later⟩
    · simp only [found, RowAnswers.outcome, RowAnswers.length_overrides,
        Reference.hits_run_eq_merge]
    · simp only [found, Timing.table?_setTable_self, present, Reference.table_run_eq_merge,
        Option.map_some, RowAnswers.patched]

/-- A run over different tables reports on each of them, and patches it, as it was at the start. -/
theorem tuneEach_of_answersRows (steady : eeprom.AnswersRows answers) {plans : List Plan}
    (distinct : plans.Pairwise fun first second => first.target.table ≠ second.target.table)
    (timing : Timing) :
    (tuneEach plans timing eeprom).1 = plans.map (fun plan =>
        answers.outcome plan.offset plan.rows (timing.table? plan.target.table)) ∧
      (∀ plan ∈ plans, (tuneEach plans timing eeprom).2.1.table? plan.target.table =
        (timing.table? plan.target.table).map (answers.patched plan.offset plan.rows)) ∧
      (tuneEach plans timing eeprom).2.2.AnswersRows answers := by
  induction plans generalizing timing eeprom with
  | nil => exact ⟨rfl, by simp, steady⟩
  | cons plan plans ih =>
    rw [List.pairwise_cons] at distinct
    obtain ⟨apart, distinctLater⟩ := distinct
    obtain ⟨reported, patched, steadyNext⟩ := tuneTable_of_answersRows steady plan timing
    obtain ⟨outcomes, tables, steadyEnd⟩ :=
      ih steadyNext distinctLater (tuneTable plan timing eeprom).2.1
    -- The table of a later plan is, when its turn comes, still what it was at the start.
    have kept : ∀ later ∈ plans, (tuneTable plan timing eeprom).2.1.table? later.target.table =
        timing.table? later.target.table := fun later member =>
      table?_tuneTable_of_ne (apart later member).symm timing eeprom
    refine ⟨?_, ?_, steadyEnd⟩
    · show (tuneTable plan timing eeprom).1 :: (tuneEach plans (tuneTable plan timing eeprom).2.1
        (tuneTable plan timing eeprom).2.2).1 = _
      rw [reported, outcomes, List.map_cons]
      refine congrArg _ (List.map_congr_left fun later member => ?_)
      rw [kept later member]
    · rw [List.forall_mem_cons]
      refine ⟨?_, fun later member => ?_⟩
      · exact (table?_tuneEach_of_forall_ne (fun later member => apart later member) _ _).trans
          patched
      · exact (tables later member).trans (by rw [kept later member])

end BoardIdentity.Dram
