import BoardIdentity.Toml.Value
import Mathlib.Data.List.Nodup
import Mathlib.Data.Option.Basic

/-!
# Trees without repeated keys

No table of a document has a key twice.  `Value.Distinct` says so of a value and of all that is in
it, and `DistinctEntries` of the entries of one table; what a search for a key finds is then the one
entry of this key, whatever the order of the entries.
-/

namespace BoardIdentity.Toml

/-! ## Searching entries -/

section Search

variable {entries : Entries} {name : String} {value : Value}

theorem lookup_eq_none_iff_notMem :
    entries.lookup name = none ↔ name ∉ entries.map (·.1) := by
  simp only [List.lookup_eq_none_iff, List.mem_map, not_exists, not_and, bne_iff_ne]
  exact forall₂_congr fun entry _ => ne_comm

theorem mem_of_lookup (found : entries.lookup name = some value) : (name, value) ∈ entries := by
  obtain ⟨before, behind, rfl, -⟩ := List.lookup_eq_some_iff.mp found
  exact List.mem_append_right _ List.mem_cons_self

/-- Without a second entry under its key, an entry is what a search for the key finds. -/
theorem lookup_eq_some_iff_mem (nodup : (entries.map (·.1)).Nodup) :
    entries.lookup name = some value ↔ (name, value) ∈ entries := by
  refine ⟨mem_of_lookup, fun member => ?_⟩
  obtain ⟨before, behind, rfl⟩ := List.append_of_mem member
  refine List.lookup_eq_some_iff.mpr ⟨before, behind, rfl, fun entry earlier => ?_⟩
  rw [List.map_append, List.map_cons] at nodup
  have another := (List.nodup_append.mp nodup).2.2 entry.1 (List.mem_map_of_mem earlier) name
    List.mem_cons_self
  exact bne_iff_ne.mpr another.symm

/-- The order of entries does not matter to a search. -/
theorem lookup_perm {others : Entries} (nodup : (entries.map (·.1)).Nodup)
    (perm : entries.Perm others) (name : String) : entries.lookup name = others.lookup name := by
  have othersNodup := (perm.map (·.1)).nodup_iff.mp nodup
  ext value
  rw [lookup_eq_some_iff_mem nodup, lookup_eq_some_iff_mem othersNodup, perm.mem_iff]

end Search

/-! ## Values -/

namespace Value

/-- The keys of a table; other values have none. -/
def keys : Value → List String
  | .table _ entries => entries.map (·.1)
  | _ => []

/-- The values that a value is made of. -/
def parts : Value → List Value
  | .array _ items => items
  | .table _ entries => entries.map (·.2)
  | _ => []

/-- No table in the value has a key twice. -/
inductive Distinct : Value → Prop
  | of {value : Value} (own : value.keys.Nodup) (inside : ∀ part ∈ value.parts, part.Distinct) :
      value.Distinct

theorem Distinct.parts {value : Value} (distinct : value.Distinct) :
    ∀ part ∈ value.parts, part.Distinct := by
  cases distinct with
  | of own inside => exact inside

theorem distinct_of_parts_eq_nil {value : Value} (own : value.keys = []) (none : value.parts = []) :
    value.Distinct :=
  .of (own ▸ List.nodup_nil) (none ▸ nofun)

end Value

/-- No key is there twice, neither in the table of the entries nor in any table of their values. -/
structure DistinctEntries (entries : Entries) : Prop where
  keys : (entries.map (·.1)).Nodup
  values : ∀ entry ∈ entries, entry.2.Distinct

namespace Value

theorem distinct_table_iff {form : TableForm} {entries : Entries} :
    (Value.table form entries).Distinct ↔ DistinctEntries entries := by
  constructor
  · intro distinct
    cases distinct with
    | of own inside => exact ⟨own, fun _ member => inside _ (List.mem_map_of_mem member)⟩
  · intro distinct
    exact .of distinct.keys (List.forall_mem_map.mpr distinct.values)

theorem distinct_array_iff {growing : Bool} {items : List Value} :
    (Value.array growing items).Distinct ↔ ∀ item ∈ items, item.Distinct :=
  ⟨fun distinct => distinct.parts, fun inside => .of List.nodup_nil inside⟩

end Value

namespace DistinctEntries

theorem nil : DistinctEntries [] :=
  ⟨List.nodup_nil, nofun⟩

theorem of_lookup {entries : Entries} {name : String} {value : Value}
    (distinct : DistinctEntries entries) (found : entries.lookup name = some value) :
    value.Distinct :=
  distinct.values _ (mem_of_lookup found)

end DistinctEntries

end BoardIdentity.Toml
