import BoardIdentity.Proofs.Dram.TimingFields

/-!
# Rows read and written by name

A table is read through `Timing.table?` and opened for writing through `Timing.access?`, and each of
the two goes through all names by itself.  They lead to the same table (`access?_eq`), so that a
written row reads back, alone, in the table of its name (`rows_read_back`).

That writes to different tables do not notice each other comes from what a table reads as after
`setTable`, and not from the order of the fields: two timings are equal if they read alike
(`ext_of_tables`).
-/

namespace BoardIdentity.Dram.Timing

variable {timing : Timing} {name other : TableName}

/-! ## The table behind a name -/

/-- Only a set point that the board does not have is without a table. -/
theorem table?_eq_none_iff :
    timing.table? name = none ↔
      ∃ index, name = .setPoint index ∧ timing.setPoints.length ≤ index := by
  cases name with
  | setPoint index => simp [table?]
  | _ => simp [table?]

/-- To set the table of a set point that the board has is to replace that set point. -/
theorem setTable_setPoint {index : Nat} {point : SetPoint}
    (found : timing.setPoints[index]? = some point) (settings : List Setting) :
    timing.setTable (.setPoint index) settings =
      { timing with setPoints := timing.setPoints.set index { point with settings } } := by
  have inside : index < timing.setPoints.length := (List.getElem?_eq_some_iff.mp found).1
  have points : timing.setPoints.modify index ({ · with settings }) =
      timing.setPoints.set index { point with settings } := by
    refine List.ext_getElem? fun position => ?_
    by_cases here : index = position
    · subst here
      rw [List.getElem?_modify_eq, List.getElem?_set_self inside, found]
      rfl
    · rw [List.getElem?_modify_ne _ _ here, List.getElem?_set_ne here]
  rw [setTable, points]

/-- What is opened for writing under a name is the table that is read under it. -/
theorem access?_eq (timing : Timing) (name : TableName) :
    timing.access? name =
      (timing.table? name).map fun settings => { settings, store := timing.setTable name } := by
  cases name with
  | setPoint index =>
    simp only [access?, table?, Option.map_map]
    cases found : timing.setPoints[index]? with
    | none => rfl
    | some point =>
      have same : timing.setTable (.setPoint index) = fun settings =>
          { timing with setPoints := timing.setPoints.set index { point with settings } } :=
        funext (setTable_setPoint found)
      simp only [Option.map_some, Function.comp_apply, same]
  | _ => rfl

/-! ## Tables set one after the other -/

/-- To set a table to what it is changes nothing. -/
theorem setTable_of_table? {settings : List Setting} (found : timing.table? name = some settings) :
    timing.setTable name settings = timing := by
  refine ext_of_tables (fun read => ?_) (besidesTables_setTable timing name settings)
  by_cases same : read = name
  · rw [same, table?_setTable_self, found, Option.map_some]
  · exact table?_setTable_of_ne timing settings same

/-- The latest settings of a table are those that count. -/
theorem setTable_setTable (timing : Timing) (name : TableName) (first second : List Setting) :
    (timing.setTable name first).setTable name second = timing.setTable name second := by
  refine ext_of_tables (fun read => ?_) (by simp only [besidesTables_setTable])
  by_cases same : read = name
  · subst same
    simp only [table?_setTable_self, Option.map_map, Function.comp_def]
  · simp only [table?_setTable_of_ne _ _ same]

/-- Tables of different names may be set in either order. -/
theorem setTable_comm (distinct : other ≠ name) (first second : List Setting) :
    (timing.setTable name first).setTable other second =
      (timing.setTable other second).setTable name first := by
  refine ext_of_tables (fun read => ?_) (by simp only [besidesTables_setTable])
  by_cases atName : read = name
  · subst atName
    rw [table?_setTable_of_ne _ _ distinct.symm, table?_setTable_self, table?_setTable_self,
      table?_setTable_of_ne _ _ distinct.symm]
  · rw [table?_setTable_of_ne _ first atName]
    by_cases atOther : read = other
    · subst atOther
      rw [table?_setTable_self, table?_setTable_self, table?_setTable_of_ne _ _ atName]
    · simp only [table?_setTable_of_ne _ _ atOther, table?_setTable_of_ne _ _ atName]

/-! ## One row -/

/-- One row of one table was written: it reads back, every other row and every other table is as it
was, and so is what is not in a table. -/
structure RowWritten (timing : Timing) (name : TableName) (index : Nat) (row : Setting)
    (after : Timing) : Prop where
  rows : ∃ before now, timing.table? name = some before ∧ after.table? name = some now ∧
    now.length = before.length ∧ now[index]? = some row ∧
    ∀ position ≠ index, now[position]? = before[position]?
  others : ∀ other ≠ name, after.table? other = timing.table? other
  besides : after.besidesTables = timing.besidesTables

section Row

variable {index position : Nat} {row value : Setting} {settings : List Setting} {after : Timing}

theorem setRow_of_no_table (absent : timing.table? name = none) (index : Nat) (row : Setting) :
    timing.setRow name index row = .error .noTable := by
  rw [setRow, access?_eq, absent]
  rfl

theorem setRow_of_table (found : timing.table? name = some settings) (index : Nat) (row : Setting) :
    timing.setRow name index row =
      if index < settings.length then .ok (timing.setTable name (settings.set index row))
      else .error .noRow := by
  rw [setRow, access?_eq, found]
  rfl

theorem setRow_eq_ok_iff :
    timing.setRow name index row = .ok after ↔
      ∃ settings, timing.table? name = some settings ∧ index < settings.length ∧
        timing.setTable name (settings.set index row) = after := by
  cases found : timing.table? name with
  | none => simp [setRow_of_no_table found]
  | some settings =>
    rw [setRow_of_table found]
    by_cases inside : index < settings.length
    · simp [inside]
    · simp [inside]

/-- Writing a row is all that `setRow` does, and it is done wherever there is such a row. -/
theorem setRow_eq_ok_iff_rowWritten :
    timing.setRow name index row = .ok after ↔ timing.RowWritten name index row after := by
  rw [setRow_eq_ok_iff]
  constructor
  · rintro ⟨settings, found, inside, rfl⟩
    refine ⟨⟨settings, settings.set index row, found, ?_, List.length_set, ?_, ?_⟩, ?_, ?_⟩
    · rw [table?_setTable_self, found, Option.map_some]
    · exact List.getElem?_set_self inside
    · exact fun position elsewhere => List.getElem?_set_ne elsewhere.symm
    · exact fun other distinct => table?_setTable_of_ne timing _ distinct
    · exact besidesTables_setTable timing name _
  · rintro ⟨⟨before, now, found, left, length, written, spared⟩, others, besides⟩
    have inside : index < before.length :=
      length ▸ (List.getElem?_eq_some_iff.mp written).1
    have rows : before.set index row = now := by
      refine List.ext_getElem? fun position => ?_
      by_cases here : position = index
      · rw [here, List.getElem?_set_self inside, written]
      · rw [List.getElem?_set_ne (Ne.symm here), spared position here]
    refine ⟨before, found, inside, ext_of_tables (fun read => ?_) ?_⟩
    · by_cases same : read = name
      · rw [same, table?_setTable_self, found, left, Option.map_some, rows]
      · rw [table?_setTable_of_ne timing _ same, others read same]
    · rw [besidesTables_setTable, besides]

theorem exists_setRow_iff (timing : Timing) (name : TableName) (index : Nat) (row : Setting) :
    (∃ after, timing.setRow name index row = .ok after) ↔
      ∃ settings, timing.table? name = some settings ∧ index < settings.length := by
  simp only [setRow_eq_ok_iff]
  constructor
  · rintro ⟨_, settings, found, inside, -⟩
    exact ⟨settings, found, inside⟩
  · rintro ⟨settings, found, inside⟩
    exact ⟨_, settings, found, inside, rfl⟩

/-! ## Two rows -/

/-- The last of two writes to a row wins. -/
theorem setRow_setRow (timing : Timing) (name : TableName) (index : Nat) (row value : Setting) :
    (timing.setRow name index row >>= (·.setRow name index value)) =
      timing.setRow name index value := by
  cases found : timing.table? name with
  | none =>
    rw [setRow_of_no_table found, setRow_of_no_table found]
    rfl
  | some settings =>
    rw [setRow_of_table found, setRow_of_table found]
    by_cases inside : index < settings.length
    · have again : (timing.setTable name (settings.set index row)).table? name =
          some (settings.set index row) := by
        rw [table?_setTable_self, found, Option.map_some]
      rw [if_pos inside, if_pos inside]
      refine (setRow_of_table again index value).trans ?_
      rw [if_pos (by rwa [List.length_set]), List.set_set, setTable_setTable]
    · rw [if_neg inside, if_neg inside]
      rfl

theorem bind_eq_ok_iff {ε α β : Type} {result : Except ε α} {next : α → Except ε β} {last : β} :
    (result >>= next) = .ok last ↔ ∃ middle, result = .ok middle ∧ next middle = .ok last := by
  cases result with
  | error fault => exact ⟨nofun, nofun⟩
  | ok middle =>
    constructor
    · exact fun done => ⟨middle, rfl, done⟩
    · rintro ⟨_, ⟨⟩, done⟩
      exact done

/-- Two writes to different tables are done exactly if there are both rows. -/
theorem setRow_bind_setRow_eq_ok_iff (distinct : other ≠ name) :
    (timing.setRow name index row >>= (·.setRow other position value)) = .ok after ↔
      (∃ settings, timing.table? name = some settings ∧ index < settings.length ∧
        ∃ others, timing.table? other = some others ∧ position < others.length ∧
          (timing.setTable name (settings.set index row)).setTable other
            (others.set position value) = after) := by
  rw [bind_eq_ok_iff]
  constructor
  · rintro ⟨middle, first, second⟩
    obtain ⟨settings, found, inside, rfl⟩ := setRow_eq_ok_iff.mp first
    obtain ⟨others, foundOther, insideOther, rfl⟩ := setRow_eq_ok_iff.mp second
    rw [table?_setTable_of_ne timing _ distinct] at foundOther
    exact ⟨settings, found, inside, others, foundOther, insideOther, rfl⟩
  · rintro ⟨settings, found, inside, others, foundOther, insideOther, rfl⟩
    refine ⟨_, setRow_eq_ok_iff.mpr ⟨settings, found, inside, rfl⟩,
      setRow_eq_ok_iff.mpr ⟨others, ?_, insideOther, rfl⟩⟩
    rw [table?_setTable_of_ne timing _ distinct, foundOther]

/-- Writes to different tables may be done in either order. -/
theorem setRow_comm (distinct : other ≠ name) (index position : Nat) (row value : Setting) :
    (timing.setRow name index row >>= (·.setRow other position value)).toOption =
      (timing.setRow other position value >>= (·.setRow name index row)).toOption := by
  have told {result : Except RowError Timing} {after : Timing} :
      result.toOption = some after ↔ result = .ok after := by
    cases result <;> simp [Except.toOption]
  refine Option.ext fun after => ?_
  rw [told, told, setRow_bind_setRow_eq_ok_iff distinct, setRow_bind_setRow_eq_ok_iff distinct.symm]
  constructor
  · rintro ⟨settings, found, inside, others, foundOther, insideOther, rfl⟩
    exact ⟨others, foundOther, insideOther, settings, found, inside,
      (setTable_comm distinct _ _).symm⟩
  · rintro ⟨others, foundOther, insideOther, settings, found, inside, rfl⟩
    exact ⟨settings, found, inside, others, foundOther, insideOther, setTable_comm distinct _ _⟩

end Row

/-! ## All rows of a table -/

/-- **A row that is written reads back, and nothing else changes.**  A table can be opened for
writing exactly if it can be read, which fails for set points alone that the board does not have,
and it is the same table.  A row can be written exactly if the table has it.  The timing is then the
one that differs in this row and in nothing else: not in another row, not in another table, not in a
rate or in the firmware of a set point.  The last of two writes to a row wins, and writes to
different tables may be done in either order. -/
theorem rows_read_back (timing : Timing) (name : TableName) :
    (((timing.access? name).isSome ↔ (timing.table? name).isSome) ∧
      (timing.table? name = none ↔
        ∃ index, name = .setPoint index ∧ timing.setPoints.length ≤ index) ∧
      ∀ access, timing.access? name = some access → timing.table? name = some access.settings ∧
        ∀ settings, (access.store settings).table? name = some settings) ∧
    ∀ (index : Nat) (row : Setting),
      ((∃ after, timing.setRow name index row = .ok after) ↔
        ∃ settings, timing.table? name = some settings ∧ index < settings.length) ∧
      (∀ after, timing.setRow name index row = .ok after ↔
        timing.RowWritten name index row after) ∧
      (∀ value, (timing.setRow name index row >>= (·.setRow name index value)) =
        timing.setRow name index value) ∧
      ∀ other ≠ name, ∀ (position : Nat) (value : Setting),
        (timing.setRow name index row >>= (·.setRow other position value)).toOption =
          (timing.setRow other position value >>= (·.setRow name index row)).toOption := by
  refine ⟨⟨?_, table?_eq_none_iff, fun access opened => ?_⟩, fun index row =>
    ⟨exists_setRow_iff timing name index row, fun after => setRow_eq_ok_iff_rowWritten,
      setRow_setRow timing name index row,
      fun other distinct position value => setRow_comm distinct index position row value⟩⟩
  · rw [access?_eq, Option.isSome_map]
  · rw [access?_eq] at opened
    obtain ⟨settings, found, rfl⟩ := Option.map_eq_some_iff.mp opened
    refine ⟨found, fun stored => ?_⟩
    rw [table?_setTable_self, found, Option.map_some]

/-- The second row of the second of two set points, whose tables and the controller's hold the same
register. -/
theorem rows_read_back_of_second_point :
    let timing : Timing :=
      { controller := [⟨0x10, 1⟩]
        phy := []
        trainedPhy := []
        phyEngine := []
        setPoints := [⟨3733, .oneDimensional, [⟨0x10, 2⟩]⟩,
          ⟨400, .twoDimensional, [⟨0x10, 3⟩, ⟨0x10, 4⟩]⟩]
        dataRates := #v[3733, 400, 0, 0] }
    let after : Timing :=
      { timing with setPoints := [⟨3733, .oneDimensional, [⟨0x10, 2⟩]⟩,
          ⟨400, .twoDimensional, [⟨0x10, 3⟩, ⟨0x20, 9⟩]⟩] }
    timing.setRow (.setPoint 1) 1 ⟨0x20, 9⟩ = .ok after ∧
      timing.RowWritten (.setPoint 1) 1 ⟨0x20, 9⟩ after ∧
      TableName.controller ≠ .setPoint 1 ∧
      (after.setRow .controller 0 ⟨0x10, 5⟩).toOption =
        (timing.setRow .controller 0 ⟨0x10, 5⟩ >>=
          (·.setRow (.setPoint 1) 1 ⟨0x20, 9⟩)).toOption := by
  intro timing after
  have distinct : TableName.controller ≠ .setPoint 1 := nofun
  have written : timing.setRow (.setPoint 1) 1 ⟨0x20, 9⟩ = .ok after := rfl
  obtain ⟨-, rows⟩ := rows_read_back timing (.setPoint 1)
  obtain ⟨-, only, -, commutes⟩ := rows 1 ⟨0x20, 9⟩
  exact ⟨written, (only after).mp written, distinct, commutes .controller distinct 0 ⟨0x10, 5⟩⟩

end BoardIdentity.Dram.Timing
