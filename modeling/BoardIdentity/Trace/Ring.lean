/-!
# Trace rings

A ring keeps the latest entries of a trace in a fixed number of slots.  An event that repeats the
latest entry, from the same line and with an equal payload, is counted there; any other event takes
the slot after the latest, whose former entry is lost.  Every slot counts how often it was taken.

A ring is read in two ways: `Ring.slots` is what memory holds, and `Ring.entries` lists what was
recorded, oldest first.  The order in which `entries` walks the slots is `Ring.view`.
-/

namespace BoardIdentity.Trace

/-! ## State -/

/-- One slot of a ring: the line that recorded the event, how often the slot was taken, modulo the
width of that number, and how often the event happened in a row, zero for a slot never taken. -/
structure Entry (α : Type) where
  line : UInt16
  generation : UInt16
  count : UInt32
  payload : α
  deriving DecidableEq, Repr

/-- A ring of `n` slots, with the position of the latest entry. -/
structure Ring (α : Type) (n : Nat) where
  last : Option Nat
  slots : Vector (Entry α) n
  deriving DecidableEq, Repr

/-- Why an event cannot be recorded: there is no slot for it. -/
inductive RingError where
  | noSlots
  deriving DecidableEq, Repr

/-- What a stopped program reports of it. -/
def RingError.message : RingError → String
  | noSlots => "index out of bounds: the len is 0 but the index is 0"

namespace Ring

variable {α : Type} {n : Nat}

/-- A ring in which nothing was recorded yet; every slot holds the initial payload. -/
def empty (n : Nat) (initial : α) : Ring α n where
  last := none
  slots := Vector.replicate n { line := 0, generation := 0, count := 0, payload := initial }

/-- The slot of the latest entry, if its position is inside the ring. -/
def latest? (ring : Ring α n) : Option (Entry α) :=
  ring.last.bind (ring.slots[·]?)

/-! ## Recording -/

/-- The greatest count that an entry can reach. -/
def maxCount : UInt32 := 0xffffffff

/-- Whether the event repeats an entry whose count can still grow. -/
def repeats [BEq α] (entry : Entry α) (line : UInt16) (payload : α) : Bool :=
  entry.line == line && entry.payload == payload && entry.count != maxCount

/-- The position after the latest one; the first, if there is none or it is the end. -/
def next (ring : Ring α n) : Nat :=
  match ring.last with
  | none => 0
  | some index => if index + 1 < n then index + 1 else 0

/-- The position of the latest entry, if the event repeats it. -/
def repeated? [BEq α] (ring : Ring α n) (line : UInt16) (payload : α) : Option (Fin n) :=
  match ring.last with
  | none => none
  | some index =>
    if inside : index < n then
      if repeats ring.slots[index] line payload then some ⟨index, inside⟩ else none
    else
      none

/-- Counts the event in the slot at a position. -/
def bump (ring : Ring α n) (index : Fin n) : Ring α n :=
  let entry := ring.slots[index]
  { ring with slots := ring.slots.set index { entry with count := entry.count + 1 } }

/-- Opens a new entry in the slot at a position. -/
def take (ring : Ring α n) (index : Fin n) (line : UInt16) (payload : α) : Ring α n :=
  let generation := ring.slots[index].generation + 1
  { last := some index
    slots := ring.slots.set index { line, generation, count := 1, payload } }

/-- Records an event.  A ring without slots cannot. -/
def record [BEq α] (ring : Ring α n) (line : UInt16) (payload : α) :
    Except RingError (Ring α n) :=
  match ring.repeated? line payload with
  | some index => .ok (ring.bump index)
  | none =>
    if inside : ring.next < n then .ok (ring.take ⟨ring.next, inside⟩ line payload)
    else .error .noSlots

def recordTimes [BEq α] (ring : Ring α n) (line : UInt16) (payload : α) :
    (times : Nat) → Except RingError (Ring α n)
  | 0 => .ok ring
  | times + 1 => do (← ring.record line payload).recordTimes line payload times

/-! ## Reading -/

/-- The slots from the one after the latest on, around the ring to the latest. -/
def view (ring : Ring α n) : List (Entry α) :=
  let start := match ring.last with
    | none => 0
    | some index => index + 1
  ring.slots.toList.drop start ++ ring.slots.toList.take start

/-- The recorded entries, oldest first. -/
def entries (ring : Ring α n) : List (Entry α) :=
  ring.view.filter (·.count > 0)

/-! ## Basic facts -/

/-- The view holds as many entries as the ring has slots. -/
@[simp]
theorem length_view (ring : Ring α n) : ring.view.length = n := by
  simp only [view, List.length_append, List.length_drop, List.length_take, Vector.length_toList]
  omega

/-- In a ring that has slots, the position after the latest is inside the ring. -/
theorem next_lt (ring : Ring α n) (slots : 0 < n) : ring.next < n := by
  unfold next
  split
  · exact slots
  · split <;> omega

/-! ## Direct access -/

/-- Overwrites the slot at a position; outside the ring nothing changes. -/
def poke (ring : Ring α n) (index : Nat) (entry : Entry α) : Ring α n :=
  { ring with slots := ring.slots.setIfInBounds index entry }

end Ring

end BoardIdentity.Trace
