import BoardIdentity.Proofs.Dram.PassSteps
import Mathlib.Data.List.Forall2

/-!
# No choice of entries serves more overrides than a pass

To serve overrides without turning back is to choose an entry for each of the first few of them, in
the order of the table (`Serves`).  A pass chooses greedily: every override gets the first entry
that is left to it, and the first one that gets none ends the service.  No other choice serves more
overrides, and none has an earlier entry for any of them (`Patch.run_serves_most`).

The exchange behind it is one step (`Patch.exists_find?_le`): whatever entry an override could have,
the pass finds one for it that stands no later, and so leaves at least as much of the table.
`Patch.Greedy` carries it over a pass, with one case for each way in which an override can end.
-/

namespace BoardIdentity.Dram

/-- Entries of a table, chosen in its order, that have the registers of the first overrides. -/
structure Serves (table overrides : List Setting) (indices : List Nat) : Prop where
  ascending : indices.Pairwise (· ≤ ·)
  registers : List.Forall₂
    (fun index override => (table[index]?).map (·.register) = some override.register)
    indices (overrides.take indices.length)

namespace Serves

variable {table overrides : List Setting} {override : Setting} {index : Nat} {indices : List Nat}

theorem nil : Serves table overrides [] :=
  ⟨List.Pairwise.nil, List.Forall₂.nil⟩

/-- Without overrides there is nothing to choose entries for. -/
theorem eq_nil (serves : Serves table [] indices) : indices = [] := by
  have paired := serves.registers
  rw [List.take_nil] at paired
  exact List.forall₂_nil_right_iff.mp paired

/-- The first override is served by the first entry, and the others from that entry on. -/
theorem cons_iff : Serves table (override :: overrides) (index :: indices) ↔
    (table[index]?).map (·.register) = some override.register ∧
      (∀ later ∈ indices, index ≤ later) ∧ Serves table overrides indices := by
  constructor
  · rintro ⟨ascending, registers⟩
    obtain ⟨least, ascending⟩ := List.pairwise_cons.mp ascending
    obtain ⟨register, registers⟩ := List.forall₂_cons.mp registers
    exact ⟨register, least, ascending, registers⟩
  · rintro ⟨register, least, ascending, registers⟩
    exact ⟨List.pairwise_cons.mpr ⟨least, ascending⟩, List.forall₂_cons.mpr ⟨register, registers⟩⟩

/-- Whether entries serve overrides does not depend on the values in the table. -/
theorem congr {other : List Setting}
    (registers : other.map (·.register) = table.map (·.register)) :
    Serves other overrides indices ↔ Serves table overrides indices := by
  constructor
  · rintro ⟨ascending, paired⟩
    exact ⟨ascending, paired.imp fun _ _ => (Holds.congr registers).mp⟩
  · rintro ⟨ascending, paired⟩
    exact ⟨ascending, paired.imp fun _ _ => (Holds.congr registers).mpr⟩

end Serves

namespace Patch

/-! ## One override -/

/-- If an entry that the cursor has not passed has an override's register, the override finds one
that stands no later. -/
theorem exists_find?_le {patch : Patch} {register : UInt32} {index : Nat}
    (ahead : patch.cursor ≤ index)
    (same : (patch.table[index]?).map (·.register) = some register) :
    ∃ found, patch.find? register = some found ∧ found ≤ index := by
  cases found : patch.find? register with
  | none => exact absurd same (find?_eq_none_iff.mp found index ahead)
  | some hit =>
    have first := find?_eq_some_iff.mp found
    exact ⟨hit, rfl, Nat.not_lt.mp fun early => first.earlier index ahead early same⟩

/-! ## A run of overrides -/

/-- With the cursor at the end of the table, no override hits an entry. -/
theorem hit_run_of_length_le {patch : Patch} (atEnd : patch.table.length ≤ patch.cursor)
    (overrides : List Setting) :
    (patch.run overrides).1.map (·.hit) = List.replicate overrides.length none := by
  rw [run_of_length_le atEnd, List.map_map]
  exact List.map_const'

/-- A pass that has begun hits certain entries, and among the entries that are left to it no choice
does better. -/
structure Greedy (patch : Patch) (overrides : List Setting) (indices : List Nat) : Prop where
  hits : (patch.run overrides).1.map (·.hit) =
    indices.map some ++ List.replicate (overrides.length - indices.length) none
  serves : Serves patch.table overrides indices
  ahead : ∀ index ∈ indices, patch.cursor ≤ index
  least : ∀ others, Serves patch.table overrides others →
    (∀ other ∈ others, patch.cursor ≤ other) →
      List.Forall₂ (· ≤ ·) (indices.take others.length) others

namespace Greedy

variable {patch : Patch} {override : Setting} {overrides : List Setting} {index : Nat}
  {indices : List Nat}

theorem nil (patch : Patch) : patch.Greedy [] [] where
  hits := rfl
  serves := .nil
  ahead := nofun
  least others serves _ := by
    rw [serves.eq_nil]
    exact .nil

/-- After an override that finds no entry nothing is hit, and no choice could have served it. -/
theorem missed (found : patch.find? override.register = none) (overrides : List Setting) :
    patch.Greedy (override :: overrides) [] where
  hits := by
    let ended : Patch := { patch with cursor := max patch.cursor patch.table.length }
    have later : (ended.run overrides).1.map (·.hit) = List.replicate overrides.length none :=
      hit_run_of_length_le (Nat.le_max_right _ _) overrides
    simp only [run, apply_of_find?_eq_none found, List.map_cons]
    exact congrArg (none :: ·) later
  serves := .nil
  ahead := nofun
  least others serves ahead := by
    cases others with
    | nil => exact .nil
    | cons other others =>
      obtain ⟨register, -, -⟩ := Serves.cons_iff.mp serves
      obtain ⟨index, hit, -⟩ := exists_find?_le (ahead other List.mem_cons_self) register
      rw [found] at hit
      cases hit

/-- The entry that an override finds, and those that the pass hits from there on. -/
theorem hit (found : patch.find? override.register = some index)
    (later : Greedy { table := patch.table.set index override, cursor := index } overrides
      indices) :
    patch.Greedy (override :: overrides) (index :: indices) := by
  obtain ⟨ahead, inside, same⟩ := find?_eq_some found
  have registers := map_register_set inside same
  refine ⟨?_, ?_, ?_, fun others chosen aheadOthers => ?_⟩
  · simp only [run, apply_of_find?_eq_some found, List.map_cons, later.hits,
      List.length_cons, Nat.add_sub_add_right, List.cons_append]
  · refine Serves.cons_iff.mpr ⟨?_, later.ahead, (Serves.congr registers).mp later.serves⟩
    rw [List.getElem?_eq_getElem inside, Option.map_some, same]
  · exact List.forall_mem_cons.mpr
      ⟨ahead, fun next member => Nat.le_trans ahead (later.ahead next member)⟩
  · cases others with
    | nil => exact .nil
    | cons other others =>
      obtain ⟨register, ascending, chosen⟩ := Serves.cons_iff.mp chosen
      obtain ⟨hit, foundHit, early⟩ :=
        exists_find?_le (aheadOthers other List.mem_cons_self) register
      obtain rfl : index = hit := Option.some.inj (found.symm.trans foundHit)
      -- What the other choice has left is left to the pass as well.
      refine List.Forall₂.cons early
        (later.least others ((Serves.congr registers).mpr chosen) fun next member => ?_)
      exact Nat.le_trans early (ascending next member)

end Greedy

/-- Wherever a pass has got to, it does best with what is left to it. -/
theorem exists_greedy (patch : Patch) (overrides : List Setting) :
    ∃ indices, patch.Greedy overrides indices := by
  induction overrides generalizing patch with
  | nil => exact ⟨[], .nil patch⟩
  | cons override overrides ih =>
    cases found : patch.find? override.register with
    | none => exact ⟨[], .missed found overrides⟩
    | some index =>
      obtain ⟨indices, later⟩ := ih { table := patch.table.set index override, cursor := index }
      exact ⟨index :: indices, .hit found later⟩

/-- **No choice of entries serves more overrides than a pass.**  The overrides that hit an entry are
the first few.  The entries that they hit are a choice in the order of the table, every other such
choice serves at most as many overrides, and none of its entries stands before the one that the pass
hits for the same override. -/
theorem run_serves_most (table overrides : List Setting) :
    ∃ indices : List Nat,
      (Patch.run { table } overrides).1.map (·.hit) =
        indices.map some ++ List.replicate (overrides.length - indices.length) none ∧
      Serves table overrides indices ∧
      ∀ others, Serves table overrides others →
        others.length ≤ indices.length ∧
          List.Forall₂ (· ≤ ·) (indices.take others.length) others := by
  obtain ⟨indices, greedy⟩ := exists_greedy { table } overrides
  refine ⟨indices, greedy.hits, greedy.serves, fun others chosen => ?_⟩
  have earlier := greedy.least others chosen fun _ _ => Nat.zero_le _
  have length := earlier.length_eq
  rw [List.length_take] at length
  exact ⟨by omega, earlier⟩

/-- The last override finds no entry behind the one of register 2, though there is one in front. -/
example : (Patch.run { table := [⟨3, 0⟩, ⟨1, 0⟩, ⟨3, 0⟩, ⟨2, 0⟩] }
    [⟨3, 7⟩, ⟨3, 8⟩, ⟨2, 9⟩, ⟨1, 9⟩]).1.map (·.hit) = [some 0, some 0, some 3, none] := by
  decide

end Patch

end BoardIdentity.Dram
