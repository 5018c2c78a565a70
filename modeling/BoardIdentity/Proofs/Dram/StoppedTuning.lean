import BoardIdentity.Proofs.Dram.TuningOutcome

/-!
# Stopping at a failure against passing it over

Two tunings from one start, one that stops at the first failed read and one that goes on with the
next table.  They do the same up to that read, so nothing need be assumed about the bus: either both
leave the record alone, or the second reports on all tables, and the report says where the first
stopped and what it had done by then (`tune_stop_of_tune_nextTable`).

The transactions of a tuning are the requests that it leaves on a recorded bus, `tuneRequests`.
-/

namespace BoardIdentity.Dram

variable {β κ : Type} [I2c.Bus β] [Cache κ] {trusted : Som.Judgement} {record : Som.Record}

/-- The reads that a tuning asks of its bus, in order. -/
def tuneRequests (onFailure : OnFailure) (trusted : Som.Judgement) (record : Som.Record)
    (timing : Timing) (eeprom : Eeprom β κ) : List I2c.ReadRequest :=
  (tune onFailure trusted record timing eeprom.recorded).2.2.bus.requests

/-- The tuning whose requests are recorded is the tuning itself. -/
theorem tune_recorded (onFailure : OnFailure) (trusted : Som.Judgement) (record : Som.Record)
    (timing : Timing) (eeprom : Eeprom β κ) :
    tune onFailure trusted record timing eeprom =
      ((tune onFailure trusted record timing eeprom.recorded).1,
        (tune onFailure trusted record timing eeprom.recorded).2.1,
        (tune onFailure trusted record timing eeprom.recorded).2.2.forget) := by
  have forgotten := tuneTables_forget onFailure (plans record.tableOffsets) timing eeprom.recorded
  rw [Eeprom.forget_recorded] at forgotten
  unfold tune
  split
  · rfl
  · split
    · rfl
    · rw [forgotten]
      rcases tuneTables onFailure (plans record.tableOffsets) timing eeprom.recorded with
        ⟨stop | outcomes, patched, after⟩ <;> rfl

/-- A tuning that does not skip the record and passes failures over, as a run over the tables. -/
theorem tune_nextTable_eq_tuneEach (believed : trusted record = true)
    (recent : 2 ≤ record.version) (timing : Timing) (eeprom : Eeprom β κ) :
    tune .nextTable trusted record timing eeprom =
      (.ok (.tuned (tuneEach (plans record.tableOffsets) timing eeprom).1
          record.dataRate.toUInt32),
        (tuneEach (plans record.tableOffsets) timing eeprom).2.1.setDataRate
          record.dataRate.toUInt32,
        (tuneEach (plans record.tableOffsets) timing eeprom).2.2) := by
  rw [tune_of_trusted believed recent, tuneTables_nextTable]

/-- Without a failed read, a tuning that would stop is the same run. -/
theorem tune_stop_of_forall (believed : trusted record = true) (recent : 2 ≤ record.version)
    (timing : Timing) (eeprom : Eeprom β κ)
    (clean : ∀ outcome ∈ (tuneEach (plans record.tableOffsets) timing eeprom).1,
      outcome.failure = none) :
    tune .stop trusted record timing eeprom = tune .nextTable trusted record timing eeprom := by
  rw [tune_of_trusted believed recent, tuneTables_stop_of_forall clean,
    tune_nextTable_eq_tuneEach believed recent]

/-- With a failed read, a tuning that stops has gone through the tables up to the failing one. -/
theorem tune_stop_of_failure (believed : trusted record = true) (recent : 2 ≤ record.version)
    (timing : Timing) (eeprom : Eeprom β κ) {i : Fin Som.tableCount} {outcome : TableOutcome}
    {failure : EepromFault}
    (reported : (tuneEach (plans record.tableOffsets) timing eeprom).1[i.val]? = some outcome)
    (fails : outcome.failure = some failure)
    (clean : ∀ earlier < i.val, ∀ other,
      (tuneEach (plans record.tableOffsets) timing eeprom).1[earlier]? = some other →
        other.failure = none) :
    tune .stop trusted record timing eeprom =
      (.error { table := (targets.get i).name, row := outcome.read, failure },
        (tuneEach ((plans record.tableOffsets).take (i.val + 1)) timing eeprom).2) := by
  have turn := getElem?_plans record.tableOffsets i
  rw [tune_of_trusted believed recent, tuneTables_stop_of_failure turn reported fails clean]
  rfl

/-! ## Tables before and after the stop -/

/-- The tables of the first plans are, after all plans, what they are after those. -/
theorem table?_tuneEach_take_of_lt (offsets : Vector UInt8 (Som.tableCount + 1)) (timing : Timing)
    (eeprom : Eeprom β κ) {count : Nat} {j : Fin Som.tableCount} (early : j.val < count) :
    (tuneEach ((plans offsets).take count) timing eeprom).2.1.table? (tunedTables.get j) =
      (tuneEach (plans offsets) timing eeprom).2.1.table? (tunedTables.get j) := by
  have whole := tuneEach_append ((plans offsets).take count) ((plans offsets).drop count) timing
    eeprom
  rw [List.take_append_drop] at whole
  rw [whole]
  refine (table?_tuneEach_of_forall_ne (fun plan member same => ?_) _ _).symm
  obtain ⟨i, late, table⟩ := table_of_mem_drop_plans member
  obtain rfl := tunedTables_injective (same.trans table)
  omega

/-- The tables of the later plans are untouched by the first ones. -/
theorem table?_tuneEach_take_of_le (offsets : Vector UInt8 (Som.tableCount + 1)) (timing : Timing)
    (eeprom : Eeprom β κ) {count : Nat} {j : Fin Som.tableCount} (late : count ≤ j.val) :
    (tuneEach ((plans offsets).take count) timing eeprom).2.1.table? (tunedTables.get j) =
      timing.table? (tunedTables.get j) := by
  refine table?_tuneEach_of_forall_ne (fun plan member same => ?_) _ _
  obtain ⟨i, early, table⟩ := table_of_mem_take_plans member
  obtain rfl := tunedTables_injective (same.trans table)
  omega

/-- What the first plans ask of the bus is asked first. -/
theorem requests_prefix_tuneEach_take (plans : List Plan) (count : Nat) (timing : Timing)
    (eeprom : Eeprom (I2c.Recorded β) κ) :
    (tuneEach (plans.take count) timing eeprom).2.2.bus.requests <+:
      (tuneEach plans timing eeprom).2.2.bus.requests := by
  have whole := tuneEach_append (plans.take count) (plans.drop count) timing eeprom
  rw [List.take_append_drop] at whole
  rw [whole]
  exact requests_prefix_tuneEach _ _ _

theorem outcomes_tuneEach_recorded (plans : List Plan) (timing : Timing) (eeprom : Eeprom β κ) :
    (tuneEach plans timing eeprom.recorded).1 = (tuneEach plans timing eeprom).1 := by
  have forgotten := tuneTables_forget .nextTable plans timing eeprom.recorded
  rw [Eeprom.forget_recorded, tuneTables_nextTable, tuneTables_nextTable] at forgotten
  exact (Except.ok.inj (congrArg (·.1) forgotten)).symm

/-! ## The two tunings -/

/-- **What a tuning that stops has done can be read off the report of one that goes on.**  Either
both leave the record alone, for one reason.  Or the one that goes on reports on every table; if its
report has no failure, the two are the same run, and if it has, the other one stopped at the first:
it tells that table, row and fault, it leaves the tables up to that one as the other run does and
all else as it was, and what it asked of the bus, the other asked first. -/
theorem tune_stop_of_tune_nextTable (trusted : Som.Judgement) (record : Som.Record)
    (timing : Timing) (eeprom : Eeprom β κ) :
    let stopping := tune .stop trusted record timing eeprom
    let passing := tune .nextTable trusted record timing eeprom
    let stoppingRequests := tuneRequests .stop trusted record timing eeprom
    let passingRequests := tuneRequests .nextTable trusted record timing eeprom
    (∃ reason, (reason = .untrusted ∨ reason = .tooOld record.version) ∧
      stopping.1 = .ok reason ∧ passing.1 = .ok reason) ∨
    ∃ outcomes rate, passing.1 = .ok (.tuned outcomes rate) ∧
      outcomes.length = Som.tableCount ∧
      ((∀ outcome ∈ outcomes, outcome.failure = none) →
        stopping.1 = .ok (.tuned outcomes rate) ∧ stopping.2.1 = passing.2.1 ∧
          stoppingRequests = passingRequests) ∧
      ∀ (i : Fin Som.tableCount) (outcome : TableOutcome) (failure : EepromFault),
        outcomes[i.val]? = some outcome → outcome.failure = some failure →
        (∀ earlier < i.val, ∀ other, outcomes[earlier]? = some other → other.failure = none) →
        stopping.1 = .error { table := (targets.get i).name, row := outcome.read, failure } ∧
          (∀ j : Fin Som.tableCount, j.val ≤ i.val →
            stopping.2.1.table? (tunedTables.get j) = passing.2.1.table? (tunedTables.get j)) ∧
          (∀ j : Fin Som.tableCount, i.val < j.val →
            stopping.2.1.table? (tunedTables.get j) = timing.table? (tunedTables.get j)) ∧
          stopping.2.1.setPoints.map (·.dataRate) = timing.setPoints.map (·.dataRate) ∧
          stopping.2.1.dataRates = timing.dataRates ∧
          stoppingRequests <+: passingRequests := by
  intro stopping passing stoppingRequests passingRequests
  -- A record that is skipped is skipped before anything is read, so for either way to go on.
  by_cases believed : trusted record = true
  case neg =>
    have alone : ∀ onFailure,
        tune onFailure trusted record timing eeprom = (.ok .untrusted, timing, eeprom) := by
      intro onFailure
      simp [tune, believed]
    exact Or.inl ⟨_, Or.inl rfl, congrArg (·.1) (alone _), congrArg (·.1) (alone _)⟩
  by_cases recent : 2 ≤ record.version
  case neg =>
    have old : record.version < firstTuningVersion := UInt8.not_le.mp recent
    have alone : ∀ onFailure, tune onFailure trusted record timing eeprom =
        (.ok (.tooOld record.version), timing, eeprom) := by
      intro onFailure
      simp [tune, believed, old]
    exact Or.inl ⟨_, Or.inr rfl, congrArg (·.1) (alone _), congrArg (·.1) (alone _)⟩
  have passed := tune_nextTable_eq_tuneEach believed recent timing eeprom
  have passedRecorded := tune_nextTable_eq_tuneEach believed recent timing eeprom.recorded
  have recordedOutcomes := outcomes_tuneEach_recorded (plans record.tableOffsets) timing eeprom
  refine Or.inr ⟨_, _, congrArg (·.1) passed, ?_, fun clean => ?_,
    fun i outcome failure reported fails clean => ?_⟩
  · rw [length_tuneEach]
    simp [plans]
  · have same : stopping = passing := tune_stop_of_forall believed recent timing eeprom clean
    have sameRecorded := tune_stop_of_forall believed recent timing eeprom.recorded
      (by rwa [recordedOutcomes])
    exact ⟨(congrArg (·.1) same).trans (congrArg (·.1) passed), congrArg (·.2.1) same,
      congrArg (·.2.2.bus.requests) sameRecorded⟩
  · have stopped := tune_stop_of_failure believed recent timing eeprom reported fails clean
    have stoppedRecorded := tune_stop_of_failure believed recent timing eeprom.recorded
      (by rwa [recordedOutcomes]) fails
      (by rwa [recordedOutcomes])
    have besides :=
      besidesTables_tuneEach ((plans record.tableOffsets).take (i.val + 1)) timing eeprom
    have rates := congrArg (·.1.map Prod.fst) besides
    simp only [Timing.besidesTables, List.map_map, Function.comp_def] at rates
    simp only [stopping, passing, stoppingRequests, passingRequests, tuneRequests, stopped, passed,
      stoppedRecorded, passedRecorded, Timing.table?_setDataRate]
    refine ⟨trivial, fun j early => ?_, fun j late => ?_, rates, congrArg (·.2) besides, ?_⟩
    · exact table?_tuneEach_take_of_lt _ _ _ (by omega)
    · exact table?_tuneEach_take_of_le _ _ _ (by omega)
    · exact requests_prefix_tuneEach_take _ _ _ _

end BoardIdentity.Dram
