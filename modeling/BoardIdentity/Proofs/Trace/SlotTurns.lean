import BoardIdentity.Proofs.Trace.AnyRing
import BoardIdentity.Proofs.Trace.Grouping
import Mathlib.Data.Finset.Max

/-!
# What the slots of a ring hold

A debugger reads slots, not entries: it finds them in the order of memory, with the position of the
latest.  Groups of calls take the slots in turn, so that group `g` of a trace falls to slot `g % n`,
and a slot holds the latest of the groups that fell to it (`slots_recordAll`).

The invariant is `Ring.Laid`.  `Laid.opened` and `Laid.joined` keep it over one call, and from
`Laid.record` it holds after any number of them (`exists_laid`).  The position that is taken next is
found by a comparison; that it is a remainder is said once, in `Laid.next_eq`.
-/

namespace BoardIdentity.Trace

variable {α : Type} {n : Nat}

/-! ## Turns -/

/-- The numbers of those of `count` groups that fall to a slot of a ring with `n` slots. -/
def turns (n count slot : Nat) : Finset Nat :=
  (Finset.range count).filter (· % n = slot)

theorem mem_turns {count slot number : Nat} :
    number ∈ turns n count slot ↔ number < count ∧ number % n = slot := by
  rw [turns, Finset.mem_filter, Finset.mem_range]

section Turn

variable {count slot : Nat}

/-- The next group falls to the slot whose turn it is, behind all groups before it. -/
theorem turns_succ_of_turn (turn : slot = count % n) :
    turns n (count + 1) slot = insert count (turns n count slot) := by
  rw [turns, Finset.range_add_one, Finset.filter_insert, if_pos turn.symm]
  rfl

/-- All other slots are passed over. -/
theorem turns_succ_of_ne (other : slot ≠ count % n) :
    turns n (count + 1) slot = turns n count slot := by
  rw [turns, Finset.range_add_one, Finset.filter_insert, if_neg other.symm]
  rfl

theorem card_turns_succ_of_turn (turn : slot = count % n) :
    (turns n (count + 1) slot).card = (turns n count slot).card + 1 := by
  rw [turns_succ_of_turn turn, Finset.card_insert_of_notMem]
  exact fun member => absurd (mem_turns.mp member).1 (Nat.lt_irrefl count)

/-- The next group is the latest in its slot. -/
theorem isGreatest_turns_succ (turn : slot = count % n) :
    IsGreatest (turns n (count + 1) slot : Set Nat) count := by
  refine ⟨mem_turns.mpr ⟨Nat.lt_succ_self count, turn.symm⟩, fun number member => ?_⟩
  exact Nat.le_of_lt_succ (mem_turns.mp member).1

/-- A slot without a group is not the one whose turn it was. -/
theorem ne_of_turns_succ_eq_empty {slot taken : Fin n} (turn : taken.val = count % n)
    (none : turns n (count + 1) slot = ∅) : slot ≠ taken := by
  rintro rfl
  exact absurd (none ▸ (isGreatest_turns_succ turn).1) (Finset.notMem_empty count)

end Turn

/-- The slot that the last of some groups fell to; none, if there are no groups. -/
def lastTurn (n : Nat) : (count : Nat) → Option Nat
  | 0 => none
  | count + 1 => some (count % n)

/-! ## Groups, one call at a time -/

/-- The groups after one more call: it joins the last group, or opens a group of its own. -/
def regroup [BEq α] (groups : List (Group α)) (call : Call α) : List (Group α) :=
  match groups.getLast? with
  | none => [{ first := call }]
  | some current =>
    if current.accepts call then groups.dropLast ++ [current.join call]
    else groups ++ [{ first := call }]

theorem regroup_concat [BEq α] (closed : List (Group α)) (current : Group α) (call : Call α) :
    regroup (closed ++ [current]) call =
      if current.accepts call then closed ++ [current.join call]
      else closed ++ [current] ++ [{ first := call }] := by
  rw [regroup, List.getLast?_concat, List.dropLast_concat]

theorem groupsFrom_ne_nil [BEq α] (current : Group α) (calls : List (Call α)) :
    groupsFrom current calls ≠ [] := by
  induction calls generalizing current with
  | nil => exact List.cons_ne_nil _ _
  | cons call calls ih =>
    rw [groupsFrom]
    split
    · exact ih _
    · exact List.cons_ne_nil _ _

theorem regroup_cons [BEq α] (first : Group α) {groups : List (Group α)} (others : groups ≠ [])
    (call : Call α) : regroup (first :: groups) call = first :: regroup groups call := by
  obtain rfl | ⟨closed, current, rfl⟩ := List.eq_nil_or_concat' groups
  · exact absurd rfl others
  · rw [← List.cons_append, regroup_concat, regroup_concat]
    split <;> rfl

theorem groupsFrom_concat [BEq α] (current : Group α) (calls : List (Call α)) (call : Call α) :
    groupsFrom current (calls ++ [call]) = regroup (groupsFrom current calls) call := by
  induction calls generalizing current with
  | nil =>
    rw [List.nil_append, groupsFrom, groupsFrom, groupsFrom, groupsFrom]
    exact (regroup_concat [] current call).symm
  | cons earlier calls ih =>
    rw [List.cons_append, groupsFrom, groupsFrom]
    split
    · exact ih _
    · rw [ih, regroup_cons current (groupsFrom_ne_nil _ calls)]

/-- Grouping goes call by call. -/
theorem groups_concat [BEq α] (calls : List (Call α)) (call : Call α) :
    groups (calls ++ [call]) = regroup (groups calls) call := by
  cases calls with
  | nil => rfl
  | cons first calls => exact groupsFrom_concat { first } calls call

/-! ## The slots -/

/-- A slot of a fresh ring. -/
def Entry.untouched (initial : α) : Entry α where
  line := 0
  generation := 0
  count := 0
  payload := initial

namespace Ring

theorem recordAll_concat [BEq α] (ring : Ring α n) (calls : List (Call α)) (call : Call α) :
    ring.recordAll (calls ++ [call]) =
      ring.recordAll calls >>= (·.record call.line call.payload) := by
  induction calls generalizing ring with
  | nil =>
    change ring.record call.line call.payload >>= (.ok ·) = ring.record call.line call.payload
    cases ring.record call.line call.payload <;> rfl
  | cons first calls ih =>
    rw [List.cons_append, recordAll, recordAll]
    cases ring.record first.line first.payload with
    | error refused => rfl
    | ok next => exact ih next

section Slots

variable (ring : Ring α n) {index slot : Fin n} {line : UInt16} {payload : α}

theorem slots_take_self :
    (ring.take index line payload).slots.get index =
      { line, generation := (ring.slots.get index).generation + 1, count := 1, payload } :=
  Vector.getElem_set_self index.isLt

theorem slots_take_of_ne (other : slot ≠ index) :
    (ring.take index line payload).slots.get slot = ring.slots.get slot :=
  Vector.getElem_set_ne index.isLt slot.isLt fun same => other (Fin.ext same.symm)

theorem slots_bump_self :
    (ring.bump index).slots.get index =
      { ring.slots.get index with count := (ring.slots.get index).count + 1 } :=
  Vector.getElem_set_self index.isLt

theorem slots_bump_of_ne (other : slot ≠ index) :
    (ring.bump index).slots.get slot = ring.slots.get slot :=
  Vector.getElem_set_ne index.isLt slot.isLt fun same => other (Fin.ext same.symm)

/-- To count an event is not to take a slot. -/
theorem generation_bump (index slot : Fin n) :
    ((ring.bump index).slots.get slot).generation = (ring.slots.get slot).generation := by
  by_cases here : slot = index
  · rw [here, slots_bump_self]
  · rw [slots_bump_of_ne ring here]

end Slots

/-- Groups lie in the slots of a ring: each slot counts its turns and holds the latest of them, or
is untouched, and the ring knows the slot of the last group. -/
structure Laid (initial : α) (ring : Ring α n) (groups : List (Group α)) : Prop where
  last : ring.last = lastTurn n groups.length
  generation : ∀ slot : Fin n, (ring.slots.get slot).generation.toNat =
    (turns n groups.length slot).card % UInt16.size
  untouched : ∀ slot : Fin n, turns n groups.length slot = ∅ →
    ring.slots.get slot = Entry.untouched initial
  latest : ∀ (slot : Fin n) (number : Nat),
    IsGreatest (turns n groups.length slot : Set Nat) number →
      ∃ group, groups[number]? = some group ∧ (ring.slots.get slot).shown = group.shown

theorem laid_empty (n : Nat) (initial : α) : (empty n initial).Laid initial [] := by
  have fresh (slot : Fin n) : (empty n initial).slots.get slot = Entry.untouched initial :=
    Vector.getElem_replicate _
  refine ⟨rfl, fun slot => ?_, fun slot _ => fresh slot, fun slot number greatest => ?_⟩
  · rw [fresh]
    rfl
  · exact absurd (mem_turns.mp greatest.1).1 (Nat.not_lt_zero number)

namespace Laid

variable {initial : α} {ring : Ring α n} {groups closed : List (Group α)} {current : Group α}

/-- The position that the comparison finds is the remainder of the number of groups. -/
theorem next_eq (laid : ring.Laid initial groups) (slots : 0 < n) :
    ring.next = groups.length % n := by
  have last := laid.last
  cases count : groups.length with
  | zero =>
    rw [count, lastTurn] at last
    rw [next, last, Nat.zero_mod]
  | succ earlier =>
    rw [count, lastTurn] at last
    have within := Nat.mod_lt earlier slots
    rw [next, last, ← Nat.mod_add_mod]
    by_cases inside : earlier % n + 1 < n
    · rw [Nat.mod_eq_of_lt inside]
      exact if_pos inside
    · have whole : earlier % n + 1 = n := by omega
      rw [whole, Nat.mod_self]
      exact if_neg inside

/-- A call that opens a group takes the slot whose turn it is. -/
theorem opened (laid : ring.Laid initial groups) {index : Fin n}
    (turn : index.val = groups.length % n) (call : Call α) :
    (ring.take index call.line call.payload).Laid initial (groups ++ [{ first := call }]) := by
  have other {slot : Fin n} (elsewhere : slot ≠ index) :
      turns n (groups.length + 1) slot = turns n groups.length slot :=
    turns_succ_of_ne fun same => elsewhere (Fin.ext (same.trans turn.symm))
  have fallen := isGreatest_turns_succ turn
  constructor <;> rw [List.length_append, List.length_singleton]
  case last =>
    rw [lastTurn, ← turn]
    rfl
  case generation =>
    intro slot
    by_cases here : slot = index
    · rw [here, slots_take_self, card_turns_succ_of_turn turn]
      refine (UInt16.toNat_add _ _).trans ?_
      rw [laid.generation index]
      exact Nat.mod_add_mod ..
    · rw [slots_take_of_ne ring here, laid.generation slot, other here]
  case untouched =>
    intro slot none
    have elsewhere := ne_of_turns_succ_eq_empty turn none
    rw [slots_take_of_ne ring elsewhere]
    exact laid.untouched slot (other elsewhere ▸ none)
  case latest =>
    intro slot number greatest
    by_cases here : slot = index
    · rw [here] at greatest
      rw [here, slots_take_self, greatest.unique fallen]
      exact ⟨{ first := call }, List.getElem?_concat_length, rfl⟩
    · rw [other here] at greatest
      obtain ⟨group, found, shown⟩ := laid.latest slot number greatest
      refine ⟨group, ?_, by rw [slots_take_of_ne ring here, shown]⟩
      rw [List.getElem?_append_left (List.getElem?_eq_some_iff.mp found).1, found]

/-- The latest position holds the last group. -/
theorem latest_eq (laid : ring.Laid initial (closed ++ [current])) (slots : 0 < n) :
    ∃ index : Fin n, index.val = closed.length % n ∧ ring.last = some index.val ∧
      (ring.slots.get index).shown = current.shown := by
  have length : (closed ++ [current]).length = closed.length + 1 := List.length_append
  obtain ⟨group, found, shown⟩ := laid.latest ⟨closed.length % n, Nat.mod_lt _ slots⟩
    closed.length (length ▸ isGreatest_turns_succ rfl)
  rw [List.getElem?_concat_length] at found
  obtain rfl := Option.some.inj found
  exact ⟨_, rfl, laid.last.trans (by rw [length, lastTurn]), shown⟩

/-- A call that joins the last group is counted in its slot. -/
theorem joined [BEq α] (laid : ring.Laid initial (closed ++ [current])) {index : Fin n}
    (turn : index.val = closed.length % n) (same : (ring.slots.get index).shown = current.shown)
    {call : Call α} (accepted : current.accepts call = true) :
    (ring.bump index).Laid initial (closed ++ [current.join call]) := by
  have length (group : Group α) : (closed ++ [group]).length = closed.length + 1 :=
    List.length_append
  have fallen := isGreatest_turns_succ turn
  obtain ⟨last, generation, untouched, latest⟩ := laid
  rw [length] at last generation untouched latest
  constructor <;> rw [length]
  case last => exact last
  case generation =>
    intro slot
    rw [generation_bump]
    exact generation slot
  case untouched =>
    intro slot none
    rw [slots_bump_of_ne ring (ne_of_turns_succ_eq_empty turn none)]
    exact untouched slot none
  case latest =>
    intro slot number greatest
    by_cases here : slot = index
    · rw [here] at greatest
      rw [here, slots_bump_self, greatest.unique fallen]
      exact ⟨current.join call, List.getElem?_concat_length, shown_eq_join_shown same accepted⟩
    · obtain ⟨group, found, shown⟩ := latest slot number greatest
      obtain ⟨early, falls⟩ := mem_turns.mp greatest.1
      have before : number < closed.length := by
        refine Nat.lt_of_le_of_ne (Nat.le_of_lt_succ early) ?_
        rintro rfl
        exact here (Fin.ext (falls.symm.trans turn.symm))
      rw [List.getElem?_append_left before] at found
      refine ⟨group, ?_, by rw [slots_bump_of_ne ring here, shown]⟩
      rw [List.getElem?_append_left before, found]

/-- An event repeats the latest entry exactly if its call joins the last group. -/
theorem exists_repeats_iff [BEq α] (laid : ring.Laid initial (closed ++ [current]))
    (slots : 0 < n) (call : Call α) :
    (∃ latest, ring.Repeats call.line call.payload latest) ↔ current.accepts call = true := by
  obtain ⟨index, -, last, same⟩ := laid.latest_eq slots
  have found : ring.latest? = some (ring.slots.get index) :=
    latest?_eq_some_iff.mpr ⟨index, last, index.isLt, rfl⟩
  rw [← repeats_eq_accepts same, repeats_eq_true_iff]
  constructor
  · rintro ⟨latest, repeated⟩
    obtain rfl := Option.some.inj (found.symm.trans repeated.found)
    exact ⟨repeated.line, repeated.payload, repeated.room⟩
  · rintro ⟨line, payload, room⟩
    exact ⟨_, found, line, payload, room⟩

/-- One call either is counted in the slot of the last group or takes the next slot. -/
theorem record_cases [BEq α] (laid : ring.Laid initial groups) (slots : 0 < n) (call : Call α) :
    (∃ index, (∃ latest, ring.Repeats call.line call.payload latest) ∧
      ring.record call.line call.payload = .ok (ring.bump index) ∧
      (ring.bump index).Laid initial (regroup groups call) ∧
      (regroup groups call).length = groups.length) ∨
    ∃ index, (∀ latest, ¬ ring.Repeats call.line call.payload latest) ∧
      ring.record call.line call.payload = .ok (ring.take index call.line call.payload) ∧
      (ring.take index call.line call.payload).Laid initial (regroup groups call) ∧
      regroup groups call = groups ++ [{ first := call }] := by
  let index : Fin n := ⟨ring.next, ring.next_lt slots⟩
  have turn : index.val = groups.length % n := laid.next_eq slots
  have opens := laid.opened turn call
  obtain rfl | ⟨closed, current, rfl⟩ := List.eq_nil_or_concat' groups
  · have none : ring.last = none := laid.last
    have other : ∀ latest, ¬ ring.Repeats call.line call.payload latest := by
      intro latest repeated
      have found := repeated.found
      rw [latest?, none] at found
      cases found
    refine Or.inr ⟨index, other, ?_, opens, rfl⟩
    rw [Ring.record, repeated?_of_not_repeats other]
    exact dif_pos (ring.next_lt slots)
  · obtain ⟨latest, falls, last, same⟩ := laid.latest_eq slots
    have recorded := record_of_latest slots last latest.isLt same call
    have joins := laid.exists_repeats_iff slots call
    rw [regroup_concat]
    cases accepted : current.accepts call with
    | true =>
      rw [accepted] at recorded joins
      exact Or.inl ⟨latest, joins.mpr rfl, recorded, laid.joined falls same accepted, by simp⟩
    | false =>
      rw [accepted] at recorded joins
      have other : ∀ latest, ¬ ring.Repeats call.line call.payload latest :=
        fun latest repeated => absurd (joins.mp ⟨latest, repeated⟩) Bool.false_ne_true
      exact Or.inr ⟨index, other, recorded, opens, rfl⟩

end Laid

/-- Any number of calls leave their groups in the slots. -/
theorem exists_laid [BEq α] (slots : 0 < n) (initial : α) (calls : List (Call α)) :
    ∃ ring, (empty n initial).recordAll calls = .ok ring ∧ ring.Laid initial (groups calls) := by
  induction calls using List.reverseRecOn with
  | nil => exact ⟨_, rfl, laid_empty n initial⟩
  | append_singleton calls call ih =>
    obtain ⟨ring, recorded, laid⟩ := ih
    rw [recordAll_concat, recorded, groups_concat]
    rcases laid.record_cases slots call with
      ⟨index, -, next, after, -⟩ | ⟨index, -, next, after, -⟩
    · exact ⟨_, next, after⟩
    · exact ⟨_, next, after⟩

/-- A slot is as in a fresh ring exactly if no group fell to it. -/
theorem Laid.untouched_iff {initial : α} {ring : Ring α n} {groups : List (Group α)}
    (laid : ring.Laid initial groups) (slot : Fin n) :
    ring.slots.get slot = Entry.untouched initial ↔ turns n groups.length slot = ∅ := by
  refine ⟨fun fresh => ?_, laid.untouched slot⟩
  rw [← Finset.not_nonempty_iff_eq_empty]
  intro fell
  obtain ⟨group, -, shown⟩ := laid.latest slot _ (Finset.isGreatest_max' _ fell)
  -- The generation may have come round to zero, but a group has at least its first call.
  have count : (0 : UInt32).toNat = group.size :=
    congrArg Shown.count ((congrArg Entry.shown fresh).symm.trans shown)
  exact absurd count (Nat.succ_ne_zero group.later.length).symm

/-- **Groups take the slots of a ring in turn.**  After any calls on a fresh ring that has slots,
the ring knows the slot of the last group, which is the remainder of its number, and no slot if
there are no groups.  Each slot counts the groups that fell to it, modulo the width of its count,
and shows the latest of them; without one it is as it was.  A call that repeats the latest entry
opens no group and leaves the position and all these counts alone; any other call opens one. -/
theorem slots_recordAll [BEq α] (slots : 0 < n) (initial : α) (calls : List (Call α)) :
    let count := (groups calls).length
    ∃ ring, (empty n initial).recordAll calls = .ok ring ∧
      (ring.last = none ↔ count = 0) ∧
      (0 < count → ring.last = some ((count - 1) % n)) ∧
      (∀ slot : Fin n,
        (ring.slots.get slot).generation.toNat = (turns n count slot).card % UInt16.size ∧
        (ring.slots.get slot = Entry.untouched initial ↔ turns n count slot = ∅) ∧
        ∀ fell : (turns n count slot).Nonempty, ∃ group,
          (groups calls)[(turns n count slot).max' fell]? = some group ∧
            (ring.slots.get slot).shown = group.shown) ∧
      ∀ call, ∃ after, ring.record call.line call.payload = .ok after ∧
        ((∃ latest, ring.Repeats call.line call.payload latest) →
          (groups (calls ++ [call])).length = count ∧ after.last = ring.last ∧
          ∀ slot : Fin n, (after.slots.get slot).generation = (ring.slots.get slot).generation) ∧
        ((∀ latest, ¬ ring.Repeats call.line call.payload latest) →
          groups (calls ++ [call]) = groups calls ++ [{ first := call }]) := by
  intro count
  obtain ⟨ring, recorded, laid⟩ := exists_laid slots initial calls
  have last : ring.last = lastTurn n count := laid.last
  refine ⟨ring, recorded, ?_, fun some => ?_, fun slot => ⟨laid.generation slot,
    laid.untouched_iff slot, fun fell => laid.latest slot _ (Finset.isGreatest_max' _ fell)⟩,
    fun call => ?_⟩
  · rw [last]
    cases count with
    | zero => exact ⟨fun _ => rfl, fun _ => rfl⟩
    | succ earlier => exact ⟨nofun, nofun⟩
  · rw [last]
    obtain ⟨earlier, same⟩ := Nat.exists_eq_succ_of_ne_zero (Nat.ne_of_gt some)
    rw [same]
    rfl
  · rw [groups_concat]
    rcases laid.record_cases slots call with
      ⟨index, repeated, next, -, length⟩ | ⟨index, other, next, -, opened⟩
    · exact ⟨_, next, fun _ => ⟨length, rfl, ring.generation_bump index⟩,
        fun none => absurd repeated (not_exists.mpr none)⟩
    · exact ⟨_, next, fun again => absurd again (not_exists.mpr other), fun _ => opened⟩

/-- Two slots for three groups: the first slot was taken twice, and shows the last of them.  A call
that repeats it opens no fourth. -/
theorem slots_recordAll_of_three_groups :
    let calls : List (Call Nat) := [⟨10, 5⟩, ⟨20, 5⟩, ⟨20, 5⟩, ⟨10, 5⟩]
    0 < 2 ∧ ∃ ring, (empty 2 7).recordAll calls = .ok ring ∧
      0 < (groups calls).length ∧ ring.last = some 0 ∧
      (turns 2 (groups calls).length 0).Nonempty ∧ (ring.slots.get 0).shown = ⟨10, 5, 1⟩ ∧
      (ring.slots.get 0).generation.toNat = 2 ∧
      ring.Repeats 10 5 (ring.slots.get 0) ∧ (groups (calls ++ [⟨10, 5⟩])).length = 3 := by
  intro calls
  have slots : 0 < 2 := by decide
  have grouped : 0 < (groups calls).length := by decide
  have fell : (turns 2 (groups calls).length 0).Nonempty := ⟨0, by decide⟩
  obtain ⟨ring, recorded, -, position, held, next⟩ := slots_recordAll slots 7 calls
  have three : (groups calls).length = 3 := by decide
  have last : ring.last = some 0 := (position grouped).trans (by rw [three])
  obtain ⟨generation, -, latest⟩ := held 0
  obtain ⟨group, found, shown⟩ := latest fell
  have number : (turns 2 (groups calls).length (0 : Fin 2)).max' fell = 2 :=
    (Finset.isGreatest_max' _ fell).unique (isGreatest_turns_succ rfl)
  rw [number] at found
  obtain rfl : { first := ⟨10, 5⟩ } = group := Option.some.inj found
  have repeated : ring.Repeats 10 5 (ring.slots.get 0) := by
    obtain ⟨line, payload, count⟩ := Shown.mk.inj shown
    exact ⟨latest?_eq_some_iff.mpr ⟨0, last, slots, rfl⟩, line, beq_iff_eq.mpr payload,
      count.trans_lt (by decide)⟩
  obtain ⟨after, -, coalesced, -⟩ := next ⟨10, 5⟩
  exact ⟨slots, ring, recorded, grouped, last, fell, shown, generation, repeated,
    (coalesced ⟨_, repeated⟩).1⟩

end Ring

end BoardIdentity.Trace
