import BoardIdentity.Proofs.Trace.RingView

/-!
# What a ring shows of a trace

Calls in a row are grouped greedily: a call joins the current group if it repeats the group's first
call and the group has room, and else opens the next one (`groups`).  A ring shows the latest
groups, as many as it has slots (`entries_recordAll`).

The invariant is `Ring.Shows`: the view holds the groups so far, oldest first, behind one blank for
each slot, and only the last `n` of all these.  `Shows.joined` and `Shows.opened` keep it over one
call, `Shows.recordAll` over any number of them.
-/

namespace BoardIdentity.Trace

variable {α : Type} {n : Nat}

/-! ## Groups of calls -/

/-- A call that records an event. -/
structure Call (α : Type) where
  line : UInt16
  payload : α

/-- Calls in a row that are counted together: the first of them and those that repeat it. -/
structure Group (α : Type) where
  first : Call α
  later : List (Call α) := []

/-- What is shown of an entry, or of a group. -/
structure Shown (α : Type) where
  line : UInt16
  payload : α
  count : Nat
  deriving DecidableEq, Repr

/-- What is shown of a slot that was never taken. -/
def Shown.blank (initial : α) : Shown α where
  line := 0
  payload := initial
  count := 0

namespace Group

def calls (group : Group α) : List (Call α) :=
  group.first :: group.later

def size (group : Group α) : Nat :=
  group.calls.length

/-- Whether a call repeats the group's first call, in a group that is not full. -/
def accepts [BEq α] (group : Group α) (call : Call α) : Bool :=
  group.first.line == call.line && group.first.payload == call.payload &&
    decide (group.size < UInt32.size - 1)

def join (group : Group α) (call : Call α) : Group α :=
  { group with later := group.later ++ [call] }

def shown (group : Group α) : Shown α where
  line := group.first.line
  payload := group.first.payload
  count := group.size

end Group

/-- The current group, continued by calls, and the groups after it. -/
def groupsFrom [BEq α] (current : Group α) : List (Call α) → List (Group α)
  | [] => [current]
  | call :: calls =>
    if current.accepts call then groupsFrom (current.join call) calls
    else current :: groupsFrom { first := call } calls

/-- The groups of calls, oldest first. -/
def groups [BEq α] : List (Call α) → List (Group α)
  | [] => []
  | call :: calls => groupsFrom { first := call } calls

theorem flatMap_calls_groupsFrom [BEq α] (current : Group α) (calls : List (Call α)) :
    (groupsFrom current calls).flatMap Group.calls = current.calls ++ calls := by
  induction calls generalizing current with
  | nil => simp [groupsFrom]
  | cons call calls ih =>
    rw [groupsFrom]
    split
    · rw [ih]
      simp [Group.join, Group.calls]
    · rw [List.flatMap_cons, ih]
      simp [Group.calls]

/-- Grouping loses, repeats and reorders no call. -/
theorem flatMap_calls_groups [BEq α] (calls : List (Call α)) :
    (groups calls).flatMap Group.calls = calls := by
  cases calls with
  | nil => rfl
  | cons call calls => exact flatMap_calls_groupsFrom { first := call } calls

/-! ## The window on the latest groups -/

/-- The last `n` of what there is to show: one blank for each slot, then the groups. -/
def window (n : Nat) (initial : α) (groups : List (Group α)) : List (Shown α) :=
  (List.replicate n (Shown.blank initial) ++ groups.map Group.shown).drop groups.length

variable {initial : α}

theorem window_concat (slots : 0 < n) (groups : List (Group α)) (group : Group α) :
    window n initial (groups ++ [group]) = (window n initial groups).tail ++ [group.shown] := by
  rw [window, window, List.tail_drop, List.map_append, List.length_append, ← List.append_assoc,
    List.drop_append_of_le_length (by simp; omega)]
  rfl

theorem window_concat_eq_dropLast (slots : 0 < n) (groups : List (Group α))
    (group other : Group α) :
    window n initial (groups ++ [other]) =
      (window n initial (groups ++ [group])).dropLast ++ [other.shown] := by
  rw [window_concat slots, window_concat slots, List.dropLast_concat]

/-- Without the blanks, the window holds the last `n` groups. -/
theorem filter_window (groups : List (Group α)) :
    (window n initial groups).filter (decide <| 0 < ·.count) =
      (groups.drop (groups.length - n)).map Group.shown := by
  have counted : ∀ shown ∈ (groups.drop (groups.length - n)).map Group.shown,
      decide (0 < shown.count) = true := by
    intro shown member
    obtain ⟨group, -, rfl⟩ := List.mem_map.mp member
    exact decide_eq_true (Nat.zero_lt_succ group.later.length)
  rw [window, List.drop_append, List.filter_append, List.length_replicate, ← List.map_drop,
    List.filter_eq_self.mpr counted]
  simp [Shown.blank]

/-! ## The ring -/

def Entry.shown (entry : Entry α) : Shown α where
  line := entry.line
  payload := entry.payload
  count := entry.count.toNat

/-- An event repeats an entry exactly if the group that the entry shows accepts it. -/
theorem repeats_eq_accepts [BEq α] {entry : Entry α} {group : Group α}
    (same : entry.shown = group.shown) (call : Call α) :
    Ring.repeats entry call.line call.payload = group.accepts call := by
  obtain ⟨line, payload, count⟩ := Shown.mk.inj same
  rw [Bool.eq_iff_iff, Ring.repeats_eq_true_iff, line, payload, count, Group.accepts,
    Bool.and_eq_true, Bool.and_eq_true, beq_iff_eq (a := group.first.line), decide_eq_true_iff,
    and_assoc]

/-- A group that accepts a call has room for it, so the entry's count does not overflow. -/
theorem shown_eq_join_shown [BEq α] {entry : Entry α} {group : Group α} {call : Call α}
    (same : entry.shown = group.shown) (accepted : group.accepts call = true) :
    Entry.shown { entry with count := entry.count + 1 } = (group.join call).shown := by
  obtain ⟨line, payload, count⟩ := Shown.mk.inj same
  have room : group.size < UInt32.size - 1 := of_decide_eq_true (Bool.and_eq_true_iff.mp accepted).2
  have size : (group.join call).size = group.size + 1 := by
    simp [Group.join, Group.size, Group.calls]
  have counted : (entry.count + 1).toNat = group.size + 1 := by
    simp only [UInt32.size] at room
    simp only [UInt32.toNat_add, count, UInt32.reduceToNat]
    omega
  rw [Entry.shown, Group.shown, line, payload, counted, size]
  rfl

namespace Ring

/-- Records the events of calls, one after the other. -/
def recordAll [BEq α] (ring : Ring α n) : List (Call α) → Except RingError (Ring α n)
  | [] => .ok ring
  | call :: calls => do (← ring.record call.line call.payload).recordAll calls

/-- The ring shows the latest of some groups, and knows where the last of them is. -/
structure Shows (initial : α) (ring : Ring α n) (groups : List (Group α)) : Prop where
  view : ring.view.map Entry.shown = window n initial groups
  latest : groups = [] ∧ ring.last = none ∨ ∃ index < n, ring.last = some index

theorem shows_empty (n : Nat) (initial : α) : (empty n initial).Shows initial [] := by
  refine ⟨?_, Or.inl ⟨rfl, rfl⟩⟩
  simp [empty, Ring.view, window, Entry.shown, Shown.blank]

/-- The latest entry shows the latest group. -/
theorem Shows.latest_eq {ring : Ring α n} {closed : List (Group α)} {current : Group α}
    (shows : ring.Shows initial (closed ++ [current])) (slots : 0 < n) :
    ∃ (index : Nat) (inside : index < n), ring.last = some index ∧
      ring.slots[index].shown = current.shown := by
  rcases shows.latest with ⟨none, -⟩ | ⟨index, inside, latest⟩
  · simp at none
  · refine ⟨index, inside, latest, ?_⟩
    have view := shows.view
    rw [view_eq_append_latest ring latest inside, window_concat slots, List.map_append] at view
    simpa using congrArg List.getLast? view

theorem Shows.opened {ring : Ring α n} {groups : List (Group α)}
    (shows : ring.Shows initial groups) (slots : 0 < n) (call : Call α) :
    (ring.take ⟨ring.next, ring.next_lt slots⟩ call.line call.payload).Shows initial
      (groups ++ [{ first := call }]) := by
  refine ⟨?_, Or.inr ⟨ring.next, ring.next_lt slots, rfl⟩⟩
  rw [view_take, window_concat slots, List.map_append, List.map_tail, shows.view]
  rfl

theorem Shows.joined [BEq α] {ring : Ring α n} {closed : List (Group α)} {current : Group α}
    {index : Nat} (shows : ring.Shows initial (closed ++ [current])) (slots : 0 < n)
    (latest : ring.last = some index) (inside : index < n)
    (same : ring.slots[index].shown = current.shown) {call : Call α}
    (accepted : current.accepts call = true) :
    (ring.bump ⟨index, inside⟩).Shows initial (closed ++ [current.join call]) := by
  refine ⟨?_, Or.inr ⟨index, inside, latest⟩⟩
  rw [view_bump latest inside, List.map_append, List.map_dropLast, shows.view,
    window_concat_eq_dropLast slots closed current (current.join call),
    ← shown_eq_join_shown same accepted]
  rfl

/-- If the latest entry shows a group, a call is counted there exactly if the group accepts it. -/
theorem record_of_latest [BEq α] {ring : Ring α n} {index : Nat} (slots : 0 < n)
    (latest : ring.last = some index) (inside : index < n) {current : Group α}
    (same : ring.slots[index].shown = current.shown) (call : Call α) :
    ring.record call.line call.payload =
      .ok (if current.accepts call then ring.bump ⟨index, inside⟩
        else ring.take ⟨ring.next, ring.next_lt slots⟩ call.line call.payload) := by
  have searched : ring.repeated? call.line call.payload =
      if current.accepts call then some ⟨index, inside⟩ else none := by
    simp only [repeated?, latest, dif_pos inside, repeats_eq_accepts same call]
  rw [Ring.record, searched]
  cases current.accepts call with
  | true => rfl
  | false => exact dif_pos (ring.next_lt slots)

/-- A call joins the current group or opens the next one, and the ring shows it. -/
theorem Shows.record [BEq α] {ring : Ring α n} {closed : List (Group α)} {current : Group α}
    (shows : ring.Shows initial (closed ++ [current])) (slots : 0 < n) (call : Call α) :
    ∃ after, ring.record call.line call.payload = .ok after ∧
      after.Shows initial (if current.accepts call then closed ++ [current.join call]
        else closed ++ [current] ++ [{ first := call }]) := by
  obtain ⟨index, inside, latest, same⟩ := shows.latest_eq slots
  refine ⟨_, record_of_latest slots latest inside same call, ?_⟩
  cases accepted : current.accepts call with
  | true => exact shows.joined slots latest inside same accepted
  | false => exact shows.opened slots call

/-- Any number of calls are shown as the greedy grouping has them. -/
theorem Shows.recordAll [BEq α] {ring : Ring α n} {closed : List (Group α)} {current : Group α}
    (shows : ring.Shows initial (closed ++ [current])) (slots : 0 < n) (calls : List (Call α)) :
    ∃ after, ring.recordAll calls = .ok after ∧
      after.Shows initial (closed ++ groupsFrom current calls) := by
  -- The induction follows `groupsFrom`: a call moves the current group on or closes it.
  induction calls generalizing ring closed current with
  | nil => exact ⟨ring, rfl, shows⟩
  | cons call calls ih =>
    obtain ⟨next, recorded, showsNext⟩ := shows.record slots call
    have continued : ring.recordAll (call :: calls) = next.recordAll calls := by
      rw [Ring.recordAll, recorded]
      rfl
    rw [continued, groupsFrom]
    split at showsNext
    case isTrue accepted =>
      rw [if_pos accepted]
      exact ih showsNext
    case isFalse refused =>
      obtain ⟨after, done, showsAfter⟩ := ih showsNext
      rw [if_neg refused]
      exact ⟨after, done, by rwa [List.append_assoc] at showsAfter⟩

/-- What is shown of the entries are the latest groups. -/
theorem Shows.entries {ring : Ring α n} {groups : List (Group α)}
    (shows : ring.Shows initial groups) :
    ring.entries.map Entry.shown = (groups.drop (groups.length - n)).map Group.shown := by
  have taken : (fun entry : Entry α => decide (entry.count > 0)) =
      (fun shown : Shown α => decide (0 < shown.count)) ∘ Entry.shown := by
    funext entry
    exact decide_eq_decide.mpr UInt32.lt_iff_toNat_lt
  rw [← filter_window, ← shows.view, List.filter_map, ← taken]
  rfl

/-- **A ring shows the latest groups of a trace.**  Whatever equality payloads are compared by,
every sequence of calls can be recorded in a ring that has slots, and the entries are then the last
groups of the calls, oldest first and as many as there are slots, each with the line and the payload
of its first call and with its exact size.  The groups together are the calls. -/
theorem entries_recordAll [BEq α] (slots : 0 < n) (initial : α) (calls : List (Call α)) :
    (∃ ring, (empty n initial).recordAll calls = .ok ring ∧
      ring.entries.map Entry.shown =
        ((groups calls).drop ((groups calls).length - n)).map Group.shown) ∧
      (groups calls).flatMap Group.calls = calls := by
  refine ⟨?_, flatMap_calls_groups calls⟩
  cases calls with
  | nil => exact ⟨_, rfl, (shows_empty n initial).entries⟩
  | cons call calls =>
    have started := (shows_empty n initial).opened slots call
    -- The first call has no latest entry to repeat, even if the initial slots look like it.
    have first : (empty n initial).record call.line call.payload = .ok _ :=
      dif_pos ((empty n initial).next_lt slots)
    rw [← List.nil_append [_]] at started
    obtain ⟨ring, recorded, shows⟩ := started.recordAll slots calls
    refine ⟨ring, ?_, shows.entries⟩
    rw [Ring.recordAll, first]
    exact recorded

/-- Three slots for four groups, of which the oldest is gone.  The payload zero is not equal to
itself, so that each of its calls is a group of its own. -/
theorem entries_recordAll_zero :
    let _ : BEq Nat := ⟨fun payload other => decide (payload = other ∧ payload ≠ 0)⟩
    let calls : List (Call Nat) := [⟨10, 5⟩, ⟨10, 5⟩, ⟨20, 5⟩, ⟨20, 5⟩, ⟨20, 5⟩, ⟨30, 0⟩, ⟨30, 0⟩]
    0 < 3 ∧ ∃ ring, (empty 3 7).recordAll calls = .ok ring ∧
      ring.entries.map Entry.shown = [⟨20, 5, 3⟩, ⟨30, 0, 1⟩, ⟨30, 0, 1⟩] := by
  intro _ calls
  have slots : 0 < 3 := by decide
  obtain ⟨⟨ring, recorded, shown⟩, -⟩ := entries_recordAll slots 7 calls
  exact ⟨slots, ring, recorded, shown⟩

end Ring

end BoardIdentity.Trace
