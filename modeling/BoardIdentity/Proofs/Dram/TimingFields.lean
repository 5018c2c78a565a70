import BoardIdentity.Dram.Timing

/-!
# What the writers of a timing leave alone

A timing is its tables, read by name, and the fields of `Timing.besidesTables`.  `setTable` leaves
the fields, `setDataRate` leaves the tables, and two timings that agree in both are equal
(`ext_of_tables`).
-/

namespace BoardIdentity.Dram.Timing

/-- What a timing holds besides its tables: rates and firmware of its set points, and the rates. -/
def besidesTables (timing : Timing) : List (UInt32 × Firmware) × Vector UInt32 4 :=
  (timing.setPoints.map fun point => (point.dataRate, point.firmware), timing.dataRates)

@[simp]
theorem besidesTables_setTable (timing : Timing) (name : TableName) (settings : List Setting) :
    (timing.setTable name settings).besidesTables = timing.besidesTables := by
  cases name with
  | setPoint index =>
    refine Prod.ext (List.ext_getElem? fun position => ?_) rfl
    simp only [besidesTables, setTable, List.getElem?_map, List.getElem?_modify]
    split <;> cases timing.setPoints[position]? <;> rfl
  | _ => rfl

theorem getElem?_setPoints_eq {timing other : Timing} {index : Nat}
    (settings : timing.table? (.setPoint index) = other.table? (.setPoint index))
    (besides : timing.besidesTables = other.besidesTables) :
    timing.setPoints[index]? = other.setPoints[index]? := by
  have fields := congrArg (·.1[index]?) besides
  simp only [table?, besidesTables, List.getElem?_map] at settings fields
  generalize timing.setPoints[index]? = mine, other.setPoints[index]? = theirs
    at settings fields ⊢
  rcases mine with _ | ⟨rate, firmware, table⟩ <;>
    rcases theirs with _ | ⟨rate', firmware', table'⟩ <;> simp_all

theorem ext_of_tables {timing other : Timing}
    (tables : ∀ name, timing.table? name = other.table? name)
    (besides : timing.besidesTables = other.besidesTables) : timing = other := by
  have points : timing.setPoints = other.setPoints :=
    List.ext_getElem? fun index => getElem?_setPoints_eq (tables (.setPoint index)) besides
  have controller := Option.some.inj (tables .controller)
  have phy := Option.some.inj (tables .phy)
  have trainedPhy := Option.some.inj (tables .trainedPhy)
  have phyEngine := Option.some.inj (tables .phyEngine)
  have rates := congrArg (·.2) besides
  cases timing
  cases other
  congr

/-- Which tables there are is a matter of how many set points there are. -/
theorem isSome_table?_congr {timing other : Timing}
    (points : other.setPoints.length = timing.setPoints.length) (name : TableName) :
    (other.table? name).isSome = (timing.table? name).isSome := by
  cases name with
  | setPoint index =>
    rw [table?, table?, Option.isSome_map, Option.isSome_map, Bool.eq_iff_iff,
      Option.isSome_iff_ne_none, Option.isSome_iff_ne_none, ne_eq, ne_eq,
      List.getElem?_eq_none_iff, List.getElem?_eq_none_iff, points]
  | _ => rfl

theorem length_setPoints_eq {timing other : Timing}
    (besides : timing.besidesTables = other.besidesTables) :
    timing.setPoints.length = other.setPoints.length := by
  simpa [besidesTables] using congrArg (·.1.length) besides

/-! ## Data rates -/

/-- The first two set points, as far as there are any, have the rate that was set. -/
theorem getElem?_setPoints_setDataRate (timing : Timing) (rate : UInt32) (index : Nat) :
    (timing.setDataRate rate).setPoints[index]? = timing.setPoints[index]?.map fun point =>
      if index < 2 then { point with dataRate := rate } else point := by
  have late : ∀ later, ¬ later + 1 + 1 < 2 := fun later => by omega
  rw [setDataRate]
  rcases timing.setPoints with _ | ⟨first, _ | ⟨second, others⟩⟩ <;>
    rcases index with _ | _ | index <;> simp [late]

@[simp]
theorem table?_setDataRate (timing : Timing) (rate : UInt32) (name : TableName) :
    (timing.setDataRate rate).table? name = timing.table? name := by
  cases name with
  | setPoint index =>
    simp only [table?, getElem?_setPoints_setDataRate, Option.map_map]
    cases timing.setPoints[index]? with
    | none => rfl
    | some point =>
      simp only [Option.map_some, Function.comp_apply]
      split <;> rfl
  | _ => rfl

theorem dataRates_setDataRate (timing : Timing) (rate : UInt32) :
    (timing.setDataRate rate).dataRates = timing.dataRates.setIfInBounds 0 rate :=
  Vector.toList_inj.mp (by rw [setDataRate, Vector.toList_set, Vector.toList_setIfInBounds])

theorem besidesTables_setDataRate (timing : Timing) (rate : UInt32) :
    (timing.setDataRate rate).besidesTables =
      (timing.besidesTables.1.mapIdx fun index (old, firmware) =>
          (if index < 2 then rate else old, firmware),
        timing.dataRates.setIfInBounds 0 rate) := by
  refine Prod.ext (List.ext_getElem? fun index => ?_) (dataRates_setDataRate timing rate)
  simp only [besidesTables, List.getElem?_map, List.getElem?_mapIdx, Option.map_map,
    getElem?_setPoints_setDataRate]
  cases timing.setPoints[index]? with
  | none => rfl
  | some point =>
    simp only [Option.map_some, Function.comp_apply]
    split <;> rfl

@[simp]
theorem length_setPoints_setDataRate (timing : Timing) (rate : UInt32) :
    (timing.setDataRate rate).setPoints.length = timing.setPoints.length := by
  simp only [setDataRate, List.length_append, List.length_map, List.length_take, List.length_drop]
  omega

@[simp]
theorem setDataRate_setDataRate (timing : Timing) (rate : UInt32) :
    (timing.setDataRate rate).setDataRate rate = timing.setDataRate rate := by
  refine ext_of_tables (fun name => table?_setDataRate _ rate name) (Prod.ext ?_ ?_)
  · refine List.ext_getElem? fun index => ?_
    simp only [besidesTables, List.getElem?_map, getElem?_setPoints_setDataRate, Option.map_map]
    cases timing.setPoints[index]? with
    | none => rfl
    | some point =>
      simp only [Option.map_some, Function.comp_apply]
      split <;> rfl
  · exact Vector.toList_inj.mp (by simp [besidesTables, setDataRate, Vector.toList_set])

end BoardIdentity.Dram.Timing
