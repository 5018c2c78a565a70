import BoardIdentity.Proofs.Dram.RowScans
import BoardIdentity.Proofs.Dram.StoppedTuning

/-!
# Which reads a tuning makes

On any bus the reads of a tuning are those of its tables in order, each table row by row
(`tuneExchanges_byTable`).  `ByTable` says which rows of which table are read: all up to the first
failure, and after a failure that stops the tuning none.  Flushes are as many as successes, and a
report on all tables accounts for every read.
-/

namespace BoardIdentity.Dram

open I2c (Exchange)

variable {β κ : Type} [I2c.Bus β] [Cache κ]

/-- The reads that a tuning asks of its bus, with what the bus answers. -/
def tuneExchanges (onFailure : OnFailure) (trusted : Som.Judgement) (record : Som.Record)
    (timing : Timing) (eeprom : Eeprom β κ) : List Exchange :=
  (I2c.Bus.converse eeprom.bus (tuneRequests onFailure trusted record timing eeprom)).1

/-- The scans of the tables of a record, one for each. -/
structure ByTable (onFailure : OnFailure) (offsets : Vector UInt8 (Som.tableCount + 1))
    (timing : Timing) (device : I2c.Device) (scans : Fin Som.tableCount → List Exchange) :
    Prop where
  scanned : ∀ i table, timing.table? (tunedTables.get i) = some table →
    (onFailure = .stop → ∀ j < i, Clean (scans j)) →
      Scan device (offsets.get i.castSucc).toNat ((rowCounts offsets).get i) (scans i)
  absent : ∀ i, timing.table? (tunedTables.get i) = none → scans i = []
  stopped : onFailure = .stop → ∀ i, ∀ j < i, ¬ Clean (scans j) → scans i = []

/-! ## Scans by index -/

variable {onFailure : OnFailure} {offsets : Vector UInt8 (Som.tableCount + 1)} {timing : Timing}
  {device : I2c.Device}

theorem mem_take_ofFn {α : Type} {n : Nat} {items : Fin n → α} {i : Fin n} {item : α} :
    item ∈ (List.ofFn items).take i.val ↔ ∃ j < i, items j = item := by
  rw [List.mem_take_iff_getElem]
  constructor
  · rintro ⟨index, inside, rfl⟩
    rw [List.length_ofFn] at inside
    exact ⟨⟨index, by omega⟩, Fin.lt_def.mpr (by simp only; omega), (List.getElem_ofFn _).symm⟩
  · rintro ⟨j, early, rfl⟩
    exact ⟨j.val, by rw [List.length_ofFn]; omega, List.getElem_ofFn _⟩

/-- The turn of a table comes, or a failure before it stops the tuning. -/
theorem reached_or_stopped (onFailure : OnFailure) (scans : Fin Som.tableCount → List Exchange)
    (i : Fin Som.tableCount) :
    (onFailure = .stop → ∀ j < i, Clean (scans j)) ∨
      onFailure = .stop ∧ ∃ j < i, ¬ Clean (scans j) := by
  by_cases stopped : onFailure = .stop ∧ ∃ j < i, ¬ Clean (scans j)
  · exact Or.inr stopped
  · exact Or.inl fun asked j early => by_contra fun failed => stopped ⟨asked, j, early, failed⟩

theorem InTurn.byTable {scans : Fin Som.tableCount → List Exchange}
    (inTurn : InTurn onFailure device timing (plans offsets) (List.ofFn scans)) :
    ByTable onFailure offsets timing device scans := by
  have scanned : ∀ i : Fin Som.tableCount, (List.ofFn scans)[i.val]? = some (scans i) := by
    intro i
    rw [List.getElem?_ofFn, dif_pos i.isLt]
  have turn : ∀ i : Fin Som.tableCount, (onFailure = .stop → ∀ j < i, Clean (scans j)) →
      ScansTable device (planFor offsets i) (timing.table? (tunedTables.get i)) (scans i) := by
    intro i reached
    rw [← table_planFor offsets]
    refine inTurn.turn (getElem?_plans offsets i) (scanned i) fun asked earlier member => ?_
    obtain ⟨j, early, rfl⟩ := mem_take_ofFn.mp member
    exact reached asked j early
  have stopped : onFailure = .stop → ∀ i, ∀ j < i, ¬ Clean (scans j) → scans i = [] :=
    fun asked i j early failed =>
      inTurn.stopped asked (scanned i) (mem_take_ofFn.mpr ⟨j, early, rfl⟩) failed
  refine ⟨fun i table present reached => ?_, fun i none => ?_, stopped⟩
  · have scan := turn i reached
    rw [present] at scan
    exact scan
  · rcases reached_or_stopped onFailure scans i with reached | ⟨asked, j, early, failed⟩
    · have scan := turn i reached
      rw [none] at scan
      exact scan
    · exact stopped asked i j early failed

namespace ByTable

variable {scans : Fin Som.tableCount → List Exchange}

theorem scan_or_nil (byTable : ByTable onFailure offsets timing device scans)
    (i : Fin Som.tableCount) :
    scans i = [] ∨
      Scan device (offsets.get i.castSucc).toNat ((rowCounts offsets).get i) (scans i) := by
  cases present : timing.table? (tunedTables.get i) with
  | none => exact Or.inl (byTable.absent i present)
  | some table =>
    rcases reached_or_stopped onFailure scans i with reached | ⟨asked, j, early, failed⟩
    · exact Or.inr (byTable.scanned i table present reached)
    · exact Or.inl (byTable.stopped asked i j early failed)

/-- Every read stays between the start and the end of its table. -/
theorem offset_bounds (byTable : ByTable onFailure offsets timing device scans)
    {i : Fin Som.tableCount} {exchange : Exchange} (member : exchange ∈ scans i) :
    (offsets.get i.castSucc).toNat ≤ exchange.request.offset.toNat ∧
      exchange.request.offset.toNat + 8 ≤ (offsets.get i.succ).toNat := by
  rcases byTable.scan_or_nil i with none | scanned
  · rw [none] at member
    cases member
  · obtain ⟨row, inside, asked⟩ := scanned.request_of_mem member
    have ends := row_end_le inside
    have byte := (offsets.get i.succ).toNat_lt
    have small : (offsets.get i.castSucc).toNat + 8 * row < UInt32.size := by
      simp only [UInt32.size]
      omega
    rw [asked, rowRequest, UInt32.toNat_ofNat_of_lt' small]
    omega

theorem length_eq (byTable : ByTable onFailure offsets timing device scans) :
    ∀ scan ∈ List.ofFn scans, scan.length = scan.countP (·.succeeded) +
      if (scan.findSome? (·.failure?)).isSome then 1 else 0 := by
  intro scan member
  obtain ⟨i, rfl⟩ := List.mem_ofFn.mp member
  rcases byTable.scan_or_nil i with none | scanned
  · rw [none]
    rfl
  · exact scanned.length_eq

end ByTable

/-- A run over the tables of a record, with one scan for each. -/
theorem tuneTables_byTable (onFailure : OnFailure) (offsets : Vector UInt8 (Som.tableCount + 1))
    (timing : Timing) (eeprom : Eeprom (I2c.Recorded β) κ) :
    ∃ scans : Fin Som.tableCount → List Exchange,
      ByTable onFailure offsets timing eeprom.device scans ∧
      eeprom.Exchanged (List.ofFn scans).flatten
        (tuneTables onFailure (plans offsets) timing eeprom).2.2 ∧
      (∀ i, (tuneTables onFailure (plans offsets) timing eeprom).2.1.table? (tunedTables.get i) =
        (timing.table? (tunedTables.get i)).map (mergedWith · (scans i))) ∧
      ∀ outcomes, (tuneTables onFailure (plans offsets) timing eeprom).1 = .ok outcomes →
        List.Forall₂ Reports (List.ofFn scans) outcomes := by
  obtain ⟨scans, inTurn, exchanged, tables, reports⟩ :=
    tuneTables_inTurn onFailure (plans_pairwise_table_ne offsets) timing eeprom
  have length : scans.length = Som.tableCount := by
    rw [inTurn.length_eq, plans_eq_ofFn, List.length_ofFn]
  obtain ⟨scans, rfl⟩ : ∃ items : Fin Som.tableCount → List Exchange, List.ofFn items = scans :=
    ⟨fun i => scans.get (i.cast length.symm), List.ext_getElem (by simp [length]) (by simp)⟩
  refine ⟨scans, inTurn.byTable, exchanged, fun i => ?_, reports⟩
  have merged := tables.get (show i.val < (plans offsets).length by simp [plans_eq_ofFn]) (by simp)
  simpa [plans_eq_ofFn] using merged

/-! ## The reads of a tuning -/

section Tune

variable {trusted : Som.Judgement} {record : Som.Record} {eeprom : Eeprom β κ}

/-- The exchanges that the recorded tuning leaves are those of the tuning. -/
theorem tuneExchanges_eq {exchanges : List Exchange}
    (exchanged : eeprom.recorded.Exchanged exchanges
      (tune onFailure trusted record timing eeprom.recorded).2.2) :
    tuneExchanges onFailure trusted record timing eeprom = exchanges := by
  unfold tuneExchanges tuneRequests
  rw [exchanged.requests]
  exact congrArg (·.1) exchanged.answered

/-- A tuning leaves the record alone and reads nothing, or scans its tables and merges each. -/
theorem tune_scans (onFailure : OnFailure) (trusted : Som.Judgement) (record : Som.Record)
    (timing : Timing) (eeprom : Eeprom β κ) :
    let result := (tune onFailure trusted record timing eeprom).1
    let final := (tune onFailure trusted record timing eeprom).2.1
    let exchanges := tuneExchanges onFailure trusted record timing eeprom
    eeprom.recorded.Exchanged exchanges
        (tune onFailure trusted record timing eeprom.recorded).2.2 ∧
      ((Skipped result ∧ exchanges = [] ∧
        tune onFailure trusted record timing eeprom = (result, timing, eeprom)) ∨
      ¬ Skipped result ∧ ∃ scans : Fin Som.tableCount → List Exchange,
        ByTable onFailure record.tableOffsets timing eeprom.device scans ∧
        exchanges = (List.ofFn scans).flatten ∧
        (∀ i, final.table? (tunedTables.get i) =
          (timing.table? (tunedTables.get i)).map (mergedWith · (scans i))) ∧
        ∀ outcomes rate, result = .ok (.tuned outcomes rate) →
          List.Forall₂ Reports (List.ofFn scans) outcomes) := by
  intro result final exchanges
  have whole := tune_recorded onFailure trusted record timing eeprom
  obtain ⟨scans, byTable, exchanged, tables, reports⟩ :=
    tuneTables_byTable onFailure record.tableOffsets timing eeprom.recorded
  rcases tune_cases onFailure trusted record timing eeprom.recorded with
    ⟨reason, skipped, tuned⟩ | ⟨stop, -, tuned⟩ | ⟨outcomes, ran, tuned⟩
  · have exchanged : eeprom.recorded.Exchanged []
        (tune onFailure trusted record timing eeprom.recorded).2.2 := by
      rw [tuned]
      exact .refl _
    have none : exchanges = [] := tuneExchanges_eq exchanged
    rw [tuned] at whole
    simp only [none, result, whole]
    exact ⟨exchanged, Or.inl ⟨skipped, trivial, rfl⟩⟩
  · rw [← congrArg (·.2.2) tuned] at exchanged
    have same : exchanges = _ := tuneExchanges_eq exchanged
    rw [tuned] at whole
    simp only [same, result, final, whole]
    exact ⟨exchanged, Or.inr ⟨fun skipped => skipped.ne_error stop rfl, scans, byTable, rfl,
      tables, nofun⟩⟩
  · rw [← congrArg (·.2.2) tuned] at exchanged
    have same : exchanges = _ := tuneExchanges_eq exchanged
    rw [tuned] at whole
    simp only [same, result, final, whole, Timing.table?_setDataRate]
    refine ⟨exchanged, Or.inr ⟨fun skipped => skipped.ne_tuned _ _ rfl, scans, byTable, rfl,
      tables, ?_⟩⟩
    intro reported rate told
    cases told
    exact reports outcomes ran

/-- **A tuning reads its tables in order, each row by row.**  A record that is not trusted or too
old is left alone, without a read or a flush.  Otherwise the reads are the scans of the tables, each
read between the start and the end of its table.  The cache is flushed once for each success, and
the reads that a report on all tables counts, with one more for each failure, are all there are. -/
theorem tuneExchanges_byTable (onFailure : OnFailure) (trusted : Som.Judgement)
    (record : Som.Record) (timing : Timing) (eeprom : Eeprom β κ) :
    let result := (tune onFailure trusted record timing eeprom).1
    let after := (tune onFailure trusted record timing eeprom).2.2
    let exchanges := tuneExchanges onFailure trusted record timing eeprom
    tuneRequests onFailure trusted record timing eeprom = exchanges.map (·.request) ∧
      I2c.Bus.converse eeprom.bus (exchanges.map (·.request)) = (exchanges, after.bus) ∧
      (Skipped result ↔ ¬ (trusted record = true ∧ 2 ≤ record.version)) ∧
      (Skipped result → exchanges = [] ∧ after = eeprom) ∧
      (¬ Skipped result → ∃ scans : Fin Som.tableCount → List Exchange,
        ByTable onFailure record.tableOffsets timing eeprom.device scans ∧
        exchanges = (List.ofFn scans).flatten ∧
        ∀ i, ∀ exchange ∈ scans i,
          (record.tableOffsets.get i.castSucc).toNat ≤ exchange.request.offset.toNat ∧
          exchange.request.offset.toNat + 8 ≤ (record.tableOffsets.get i.succ).toNat) ∧
      after.cache = Cache.flush^[exchanges.countP (·.succeeded)] eeprom.cache ∧
      ∀ outcomes rate, result = .ok (.tuned outcomes rate) →
        exchanges.countP (·.succeeded) = (outcomes.map (·.read)).sum ∧
        exchanges.length =
          (outcomes.map (·.read)).sum + outcomes.countP (·.failure.isSome) := by
  intro result after exchanges
  have whole := tune_recorded onFailure trusted record timing eeprom
  have left : after = (tune onFailure trusted record timing eeprom.recorded).2.2.forget :=
    congrArg (·.2.2) whole
  obtain ⟨exchanged, cases⟩ := tune_scans onFailure trusted record timing eeprom
  refine ⟨exchanged.requests, ?_, skipped_tune_iff onFailure trusted record timing eeprom, ?_⟩
  · rw [left]
    exact exchanged.answered
  have flushed : after.cache = Cache.flush^[exchanges.countP (·.succeeded)] eeprom.cache := by
    rw [left]
    exact exchanged.flushed
  rcases cases with ⟨skipped, none, alone⟩ | ⟨notSkipped, scans, byTable, same, -, reports⟩
  · exact ⟨fun _ => ⟨none, congrArg (·.2.2) alone⟩, fun other => absurd skipped other, flushed,
      fun outcomes rate told => absurd told (skipped.ne_tuned outcomes rate)⟩
  · refine ⟨fun skipped => absurd skipped notSkipped, fun _ => ⟨scans, byTable, same,
      fun i exchange member => byTable.offset_bounds member⟩, flushed,
      fun outcomes rate told => ?_⟩
    rw [show exchanges = _ from same]
    exact sum_read_of_reports (reports outcomes rate told) byTable.length_eq

end Tune

end BoardIdentity.Dram
