import BoardIdentity.Trace.Ring

/-!
# How recording changes the view

Recording works on slots and positions, reading on the view.  In the view there are no positions: to
open an entry drops the oldest slot and puts the new one at the end (`view_take`), and to count an
event changes the last one (`view_bump`).
-/

namespace BoardIdentity.Trace.Ring

variable {α : Type} {n : Nat}

/-- An event repeats an entry if line and payload are the event's and the count can still grow. -/
theorem repeats_eq_true_iff [BEq α] {entry : Entry α} {line : UInt16} {payload : α} :
    repeats entry line payload = true ↔ entry.line = line ∧ (entry.payload == payload) = true ∧
      entry.count.toNat < UInt32.size - 1 := by
  have bound := entry.count.toNat_lt
  have room : (entry.count != maxCount) = true ↔ entry.count.toNat < UInt32.size - 1 := by
    rw [bne_iff_ne, ne_eq, ← UInt32.toNat_inj]
    simp only [maxCount, UInt32.reduceToNat, UInt32.size]
    omega
  rw [repeats, Bool.and_eq_true, Bool.and_eq_true, beq_iff_eq, room, and_assoc]

/-- The view starts at the position that is taken next. -/
theorem view_eq_next (ring : Ring α n) :
    ring.view = ring.slots.toList.drop ring.next ++ ring.slots.toList.take ring.next := by
  unfold view next
  cases ring.last with
  | none => rfl
  | some index =>
    by_cases within : index + 1 < n
    · simp only [if_pos within]
    · simp only [if_neg within, List.drop_zero, List.take_zero, List.append_nil]
      rw [List.drop_of_length_le (by simp; omega), List.take_of_length_le (by simp; omega)]
      rfl

/-- The latest entry stands last in the view. -/
theorem view_eq_append_latest (ring : Ring α n) {index : Nat} (latest : ring.last = some index)
    (inside : index < n) :
    ring.view = ring.slots.toList.drop (index + 1) ++ ring.slots.toList.take index ++
      [ring.slots[index]] := by
  simp only [view, latest]
  rw [List.take_succ_eq_append_getElem (by simpa using inside), Vector.getElem_toList,
    List.append_assoc]

/-- Writing to the latest position changes the end of the view and nothing else. -/
theorem view_set_latest (slots : Vector (Entry α) n) {index : Nat} (inside : index < n)
    (entry : Entry α) :
    view { last := some index, slots := slots.set index entry } =
      slots.toList.drop (index + 1) ++ slots.toList.take index ++ [entry] := by
  rw [view_eq_append_latest _ rfl inside]
  simp only [Vector.toList_set, Vector.getElem_set_self]
  rw [List.drop_set_of_lt (Nat.lt_succ_self index), List.take_set_of_le (Nat.le_refl index)]

/-- The slot that is taken next stands first in the view. -/
theorem view_eq_next_cons (ring : Ring α n) (inside : ring.next < n) :
    ring.view = ring.slots[ring.next] ::
      (ring.slots.toList.drop (ring.next + 1) ++ ring.slots.toList.take ring.next) := by
  rw [view_eq_next, List.drop_eq_getElem_cons (by simpa using inside), Vector.getElem_toList]
  rfl

/-- To open an entry drops the oldest slot, and the new entry counts one more taking of it. -/
theorem view_take (ring : Ring α n) (inside : ring.next < n) (line : UInt16) (payload : α) :
    (ring.take ⟨ring.next, inside⟩ line payload).view = ring.view.tail ++
      [{ line, generation := ring.slots[ring.next].generation + 1, count := 1, payload }] := by
  rw [view_eq_next_cons ring inside, List.tail_cons]
  exact view_set_latest ring.slots inside _

/-- To count an event changes the count of the latest entry. -/
theorem view_bump {ring : Ring α n} {index : Nat} (latest : ring.last = some index)
    (inside : index < n) :
    (ring.bump ⟨index, inside⟩).view = ring.view.dropLast ++
      [{ ring.slots[index] with count := ring.slots[index].count + 1 }] := by
  obtain ⟨last, slots⟩ := ring
  obtain rfl : last = some index := latest
  have before := view_eq_append_latest ⟨some index, slots⟩ rfl inside
  rw [before, List.dropLast_concat]
  exact view_set_latest slots inside _

end BoardIdentity.Trace.Ring
