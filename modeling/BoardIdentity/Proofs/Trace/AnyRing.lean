import BoardIdentity.Proofs.Trace.RingView

/-!
# Recording in any ring

A ring can be in a state that no trace leads to: a debugger writes its slots, and the position of
its latest entry may be anything.  Recording is still one of two things in the view (`record_view`):
the entry at its end is counted once more, or the one at its start goes and a new one stands at the
end.

The view shows every slot once, whatever the position says (`order`).  Where positions are words,
the next position is found with an addition that wraps around, and the start of the view with one
that saturates and is then clamped; both tell the same place (`next_eq_ofWord`, `view_eq_ofWord`).
-/

namespace BoardIdentity.Trace.Ring

variable {α : Type} {n : Nat}

/-! ## The order of the view -/

/-- The positions of the slots, in the order in which the view shows them. -/
def order (ring : Ring α n) : List (Fin n) :=
  (List.finRange n).drop ring.next ++ (List.finRange n).take ring.next

theorem perm_order (ring : Ring α n) : ring.order.Perm (List.finRange n) := by
  unfold order
  refine List.perm_append_comm.trans ?_
  rw [List.take_append_drop]

/-- No position comes twice in the order of the view. -/
theorem nodup_order (ring : Ring α n) : ring.order.Nodup :=
  ring.perm_order.nodup_iff.mpr (List.nodup_finRange n)

/-- Every position comes in the order of the view. -/
theorem mem_order (ring : Ring α n) (index : Fin n) : index ∈ ring.order :=
  ring.perm_order.mem_iff.mpr (List.mem_finRange index)

theorem view_eq_map_order (ring : Ring α n) : ring.view = ring.order.map ring.slots.get := by
  have all : (List.finRange n).map ring.slots.get = ring.slots.toList := by
    refine List.ext_getElem (by simp) fun index _ _ => ?_
    rw [List.getElem_map, List.getElem_finRange, Vector.getElem_toList]
    rfl
  rw [view_eq_next, order, List.map_append, List.map_drop, List.map_take, all]

/-! ## Positions in words -/

section Words

variable {bits : Nat}

/-- The position after the latest one, in a ring of `n` slots.  Where there is no latest entry, the
greatest word stands for its position, and one more is the first position again. -/
def nextOfWord (n : Nat) (last : Option (BitVec bits)) : Nat :=
  let after := last.getD (BitVec.allOnes bits) + 1
  if n ≤ after.toNat then 0 else after.toNat

/-- One more, but for the greatest word, which stays. -/
def saturatingSucc (word : BitVec bits) : BitVec bits :=
  if word = BitVec.allOnes bits then word else word + 1

/-- Where the view of a ring of `n` slots starts. -/
def startOfWord (n : Nat) (last : Option (BitVec bits)) : Nat :=
  match last with
  | none => 0
  | some word => min (saturatingSucc word).toNat n

theorem allOnes_succ : BitVec.allOnes bits + 1 = 0 := by
  rw [← BitVec.neg_one_eq_allOnes, BitVec.add_comm]
  exact BitVec.add_right_neg 1

theorem toNat_succ_of_ne {word : BitVec bits} (small : word ≠ BitVec.allOnes bits) :
    (word + 1).toNat = word.toNat + 1 := by
  have bound := word.isLt
  have differs : word.toNat ≠ (BitVec.allOnes bits).toNat :=
    fun same => small (BitVec.eq_of_toNat_eq same)
  rw [BitVec.toNat_allOnes] at differs
  have fits : word.toNat + 1 < 2 ^ bits := by omega
  have two : 1 < 2 ^ bits := by omega
  have one : (1 : BitVec bits).toNat = 1 := Nat.mod_eq_of_lt two
  rw [BitVec.toNat_add, one, Nat.mod_eq_of_lt fits]

/-- The addition that wraps around finds the position that is taken next. -/
theorem next_eq_ofWord {last : Option (BitVec bits)} (countable : n ≤ (BitVec.allOnes bits).toNat)
    {ring : Ring α n} (same : ring.last = last.map (·.toNat)) :
    ring.next = nextOfWord n last := by
  unfold next nextOfWord
  cases last with
  | none =>
    rw [same, Option.getD_none, allOnes_succ]
    simp
  | some word =>
    rw [same, Option.getD_some]
    by_cases greatest : word = BitVec.allOnes bits
    · subst greatest
      rw [allOnes_succ]
      simp
      omega
    · simp only [Option.map_some, toNat_succ_of_ne greatest]
      split <;> split <;> omega

/-- The addition that saturates finds the start of the view. -/
theorem view_eq_ofWord {last : Option (BitVec bits)} (countable : n ≤ (BitVec.allOnes bits).toNat)
    {ring : Ring α n} (same : ring.last = last.map (·.toNat)) :
    ring.view = ring.slots.toList.drop (startOfWord n last) ++
      ring.slots.toList.take (startOfWord n last) := by
  cases last with
  | none =>
    unfold view
    rw [same]
    rfl
  | some word =>
    have start : startOfWord n (some word) = min (word.toNat + 1) n := by
      by_cases greatest : word = BitVec.allOnes bits
      · subst greatest
        simp only [startOfWord, saturatingSucc, if_true]
        omega
      · simp only [startOfWord, saturatingSucc, if_neg greatest, toNat_succ_of_ne greatest]
    unfold view
    rw [same, start]
    simp only [Option.map_some]
    rcases Nat.le_total (word.toNat + 1) n with within | beyond
    · rw [Nat.min_eq_left within]
    · rw [Nat.min_eq_right beyond, List.drop_of_length_le (by simpa using beyond),
        List.take_of_length_le (by simpa using beyond), List.drop_of_length_le (by simp),
        List.take_of_length_le (by simp)]

end Words

/-! ## One event -/

/-- An event repeats the latest entry: its position is inside the ring, line and payload are the
event's, and its count can still grow. -/
structure Repeats [BEq α] (ring : Ring α n) (line : UInt16) (payload : α) (latest : Entry α) :
    Prop where
  found : ring.latest? = some latest
  line : latest.line = line
  payload : (latest.payload == payload) = true
  room : latest.count.toNat < UInt32.size - 1

theorem latest?_eq_some_iff {ring : Ring α n} {latest : Entry α} :
    ring.latest? = some latest ↔
      ∃ index, ring.last = some index ∧ ∃ inside : index < n, ring.slots[index] = latest := by
  rw [latest?, Option.bind_eq_some_iff]
  simp only [Vector.getElem?_eq_some_iff]

/-- An event that repeats the latest entry is counted there. -/
theorem repeated?_of_repeats [BEq α] {ring : Ring α n} {line : UInt16} {payload : α}
    {latest : Entry α} (again : ring.Repeats line payload latest) :
    ∃ index, ∃ inside : index < n, ring.last = some index ∧ ring.slots[index] = latest ∧
      ring.repeated? line payload = some ⟨index, inside⟩ := by
  obtain ⟨index, last, inside, rfl⟩ := latest?_eq_some_iff.mp again.found
  have counted := repeats_eq_true_iff.mpr ⟨again.line, again.payload, again.room⟩
  refine ⟨index, inside, last, rfl, ?_⟩
  simp only [repeated?, last, dif_pos inside, if_pos counted]

/-- An event that does not repeat the latest entry is counted nowhere. -/
theorem repeated?_of_not_repeats [BEq α] {ring : Ring α n} {line : UInt16} {payload : α}
    (other : ∀ latest, ¬ ring.Repeats line payload latest) :
    ring.repeated? line payload = none := by
  unfold repeated?
  split
  case h_1 => rfl
  case h_2 index last =>
    by_cases inside : index < n
    · rw [dif_pos inside, if_neg]
      intro counted
      obtain ⟨sameLine, equal, room⟩ := repeats_eq_true_iff.mp counted
      have found := latest?_eq_some_iff.mpr ⟨index, last, inside, rfl⟩
      exact other _ ⟨found, sameLine, equal, room⟩
    · rw [dif_neg inside]

/-- **Recording in any ring counts the latest entry or replaces the oldest.**  Whatever the slots
hold and whatever stands for the latest position, the view shows every slot once, and the entries
are those of its slots that were taken.  An event can always be recorded, and the latest position is
inside the ring then.  If the event repeats the latest entry, this stands last in the view and is
counted once more, and nothing else changes.  Otherwise the view loses its first slot and gets a new
one at its end, taken once more than the one that was lost.  It makes no difference to hold the
positions in words. -/
theorem record_view [BEq α] (slots : 0 < n) (ring : Ring α n) (line : UInt16) (payload : α) :
    (ring.order.Nodup ∧ (∀ index, index ∈ ring.order) ∧
      ring.view = ring.order.map ring.slots.get ∧
      ring.entries = ring.view.filter (0 < ·.count)) ∧
    (∃ after, ring.record line payload = .ok after ∧
      (∃ index < n, after.last = some index) ∧
      (∀ latest, ring.Repeats line payload latest → after.last = ring.last ∧
        ∃ earlier, ring.view = earlier ++ [latest] ∧
          after.view = earlier ++ [{ latest with count := latest.count + 1 }] ∧
          (latest.count + 1).toNat = latest.count.toNat + 1) ∧
      ((∀ latest, ¬ ring.Repeats line payload latest) → after.last = some ring.next ∧
        ∃ oldest later, ring.view = oldest :: later ∧
          after.view =
            later ++ [{ line, generation := oldest.generation + 1, count := 1, payload }])) ∧
    ∀ (bits : Nat) (last : Option (BitVec bits)), n ≤ (BitVec.allOnes bits).toNat →
      ring.last = last.map (·.toNat) →
        ring.next = nextOfWord n last ∧
        ring.view = ring.slots.toList.drop (startOfWord n last) ++
          ring.slots.toList.take (startOfWord n last) := by
  refine ⟨⟨ring.nodup_order, ring.mem_order, ring.view_eq_map_order, rfl⟩, ?_,
    fun bits last countable same => ⟨next_eq_ofWord countable same, view_eq_ofWord countable same⟩⟩
  by_cases again : ∃ latest, ring.Repeats line payload latest
  · obtain ⟨latest, repeated⟩ := again
    obtain ⟨index, inside, last, slot, found⟩ := repeated?_of_repeats repeated
    refine ⟨ring.bump ⟨index, inside⟩, by rw [record, found], ⟨index, inside, last⟩, ?_,
      fun none => absurd repeated (none latest)⟩
    intro other alike
    obtain rfl : latest = other := Option.some.inj (repeated.found.symm.trans alike.found)
    have room := repeated.room
    refine ⟨rfl, ring.view.dropLast, ?_, ?_, ?_⟩
    · rw [view_eq_append_latest ring last inside, List.dropLast_concat, slot]
    · rw [view_bump last inside, slot]
    · simp only [UInt32.size] at room
      simp only [UInt32.toNat_add, UInt32.reduceToNat]
      omega
  · have other : ∀ latest, ¬ ring.Repeats line payload latest :=
      fun latest repeated => again ⟨latest, repeated⟩
    have inside := ring.next_lt slots
    refine ⟨ring.take ⟨ring.next, inside⟩ line payload, ?_, ⟨ring.next, inside, rfl⟩,
      fun latest repeated => absurd repeated (other latest), fun _ => ⟨rfl, ?_⟩⟩
    · rw [record, repeated?_of_not_repeats other]
      exact dif_pos inside
    · refine ⟨_, _, ring.view_eq_next_cons inside, ?_⟩
      rw [ring.view_take inside, ring.view_eq_next_cons inside, List.tail_cons]

/-- Where the greatest 64-bit word stands for the latest position, the first slot is the oldest, and
an event that looks like both slots takes it.  Its generation starts again from zero. -/
theorem record_view_of_greatest_word :
    let ring : Ring Nat 2 :=
      { last := some 0xffffffffffffffff, slots := #v[⟨7, 0xffff, 3, 5⟩, ⟨7, 1, 0, 5⟩] }
    0 < 2 ∧ ∃ after, ring.record 7 5 = .ok after ∧ after.last = some 0 ∧
      after.view = [⟨7, 1, 0, 5⟩, ⟨7, 0, 1, 5⟩] := by
  intro ring
  have slots : 0 < 2 := by decide
  obtain ⟨-, ⟨after, recorded, -, -, opened⟩, -⟩ := record_view slots ring 7 5
  have other : ∀ latest, ¬ ring.Repeats 7 5 latest := fun latest repeated =>
    nomatch repeated.found
  obtain ⟨last, oldest, later, before, view⟩ := opened other
  have shown : ring.view = [⟨7, 0xffff, 3, 5⟩, ⟨7, 1, 0, 5⟩] := by decide
  obtain ⟨rfl, rfl⟩ := List.cons.inj (before.symm.trans shown)
  exact ⟨slots, after, recorded, last, view⟩

end BoardIdentity.Trace.Ring
