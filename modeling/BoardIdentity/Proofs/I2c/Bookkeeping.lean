import BoardIdentity.Proofs.I2c.BrokenBytes
import BoardIdentity.Proofs.I2c.BusHistories
import Mathlib.Data.List.DropRight

/-!
# What a bus keeps of its history

The counters, the log and the broken byte of a bus in memory are read off from the operations alone:
the reads since the log was last emptied, of which the log has the first 64 (`attempts`), all
probes, and the last byte that was broken.  `Keeps` says so of one bus and its history,
`Keeps.operate` is one more operation, and `after_new` is any history of a new bus.  No answer
depends on the bookkeeping.
-/

namespace BoardIdentity.I2c.ImageBus

namespace Operation

/-- The read that the operation asks for. -/
def request? : Operation → Option ReadRequest
  | .read device offset length => some { device, offset, length }
  | _ => none

/-- The byte that the operation breaks. -/
def broken? : Operation → Option BrokenByte
  | .breakByte offset fault => some { offset, fault }
  | _ => none

def isProbe : Operation → Bool
  | .probe _ _ => true
  | _ => false

def emptiesLog : Operation → Bool
  | .emptyLog => true
  | _ => false

/-- An operation that asks for no more bytes than 32 bits can count. -/
def IsShort (operation : Operation) : Prop :=
  ∀ request ∈ operation.request?, request.length < UInt32.size

instance (operation : Operation) : Decidable operation.IsShort :=
  inferInstanceAs (Decidable (∀ request ∈ operation.request?, request.length < UInt32.size))

end Operation

/-- The reads asked for since the log was last emptied, whether or not they succeeded. -/
def attempts (history : List Operation) : List ReadRequest :=
  (history.rtakeWhile (!·.emptiesLog)).filterMap (·.request?)

/-- What the bus counts, logs and breaks is what its history says. -/
structure Keeps (bus : ImageBus) (history : List Operation) : Prop where
  reads : bus.reads = (attempts history).length
  log : bus.log = (attempts history).take logCapacity
  probes : bus.probes = history.countP (·.isProbe)
  broken : bus.broken = (history.filterMap (·.broken?)).getLast?

/-! ## One more operation -/

variable {bus other : ImageBus} {history : List Operation}

theorem attempts_concat (history : List Operation) (operation : Operation) :
    attempts (history ++ [operation]) =
      if operation.emptiesLog then [] else attempts history ++ operation.request?.toList := by
  unfold attempts
  rw [List.rtakeWhile_concat]
  cases operation <;> simp [Operation.emptiesLog, Operation.request?]

theorem countP_isProbe_concat (history : List Operation) (operation : Operation) :
    (history ++ [operation]).countP (·.isProbe) =
      history.countP (·.isProbe) + if operation.isProbe then 1 else 0 := by
  rw [List.countP_append, List.countP_singleton]

theorem getLast?_broken?_concat (history : List Operation) (operation : Operation) :
    ((history ++ [operation]).filterMap (·.broken?)).getLast? =
      operation.broken?.or (history.filterMap (·.broken?)).getLast? := by
  rw [List.filterMap_append, List.getLast?_append]
  cases operation <;> rfl

/-- A log with room takes one more read, and a full one stays as it is. -/
theorem logged_eq_take {requests : List ReadRequest} (kept : bus.log = requests.take logCapacity)
    (request : ReadRequest) : bus.logged request = (requests ++ [request]).take logCapacity := by
  unfold logged
  rw [kept, List.length_take]
  by_cases room : requests.length < logCapacity
  · have fits : (requests ++ [request]).length ≤ logCapacity := by
      rw [List.length_append, List.length_singleton]
      exact room
    rw [if_pos (by omega), List.take_of_length_le (Nat.le_of_lt room),
      List.take_of_length_le fits]
  · rw [if_neg (by omega), List.take_append_of_le_length (by omega)]

/-- One operation more is kept like those before it. -/
theorem Keeps.operate (keeps : bus.Keeps history) {operation : Operation}
    (short : operation.IsShort) :
    (bus.operate operation).Keeps (history ++ [operation]) := by
  obtain ⟨reads, log, probes, broken⟩ := keeps
  have attempted := attempts_concat history operation
  have probed := countP_isProbe_concat history operation
  have breaks := getLast?_broken?_concat history operation
  cases operation with
  | probe name address =>
    have same : attempts (history ++ [.probe name address]) = attempts history :=
      attempted.trans (List.append_nil _)
    exact ⟨same ▸ reads, same ▸ log, probed ▸ congrArg (· + 1) probes, breaks ▸ broken⟩
  | read device offset length =>
    let request : ReadRequest := { device, offset, length }
    have fits : length < UInt32.size := short request rfl
    have more : attempts (history ++ [.read device offset length]) =
        attempts history ++ [request] := attempted
    have after : bus.operate (.read device offset length) =
        { bus with reads := bus.reads + 1, log := bus.logged request } := by
      simp only [ImageBus.operate, read, if_pos fits, request]
    rw [after]
    refine ⟨?_, more ▸ logged_eq_take log request, probed ▸ probes, breaks ▸ broken⟩
    rw [more, List.length_append, List.length_singleton, reads]
  | emptyLog =>
    have none : attempts (history ++ [.emptyLog]) = [] := attempted
    exact ⟨none ▸ rfl, none ▸ rfl, probed ▸ probes, breaks ▸ broken⟩
  | breakByte offset fault =>
    have same : attempts (history ++ [.breakByte offset fault]) = attempts history :=
      attempted.trans (List.append_nil _)
    exact ⟨same ▸ reads, same ▸ log, probed ▸ probes, breaks ▸ rfl⟩

/-! ## Any history -/

/-- What a bus keeps of its history it keeps over any operations. -/
theorem Keeps.after (keeps : bus.Keeps history) {operations : List Operation}
    (short : ∀ operation ∈ operations, operation.IsShort) :
    (bus.after operations).Keeps (history ++ operations) := by
  induction operations generalizing bus history with
  | nil =>
    rw [List.append_nil]
    exact keeps
  | cons operation operations ih =>
    obtain ⟨here, later⟩ := List.forall_mem_cons.mp short
    rw [List.append_cons]
    exact ih (keeps.operate here) later

/-- A new bus has no history. -/
theorem keeps_new (names : List String) (devices : List ImageDevice) :
    Keeps { names, devices } [] :=
  ⟨rfl, rfl, rfl, rfl⟩

/-- Answers depend on the names, the devices and the broken byte, and on nothing else of a bus. -/
theorem fetch_congr (names : other.names = bus.names) (devices : other.devices = bus.devices)
    (broken : other.broken = bus.broken) : other.fetch = bus.fetch := by
  cases bus
  cases other
  cases names
  cases devices
  cases broken
  rfl

/-- **A bus keeps book of all that is done with it.**  After any operations on a new bus, in any
order, it has counted the reads asked for since the log was last emptied, whether or not they
succeeded, and logged the first 64 of them as they were asked for; it has counted all probes; and
the byte that is broken is the last one that was broken, also if the log was emptied since.  None of
this but the broken byte shows in an answer: a read has the result and leaves the buffer that it has
on any bus of the same names, devices and broken byte. -/
theorem after_new (names : List String) (devices : List ImageDevice)
    {operations : List Operation} (short : ∀ operation ∈ operations, operation.IsShort) :
    let bus := ImageBus.after { names, devices } operations
    bus.reads = (attempts operations).length ∧
      bus.log = (attempts operations).take (min 64 bus.reads) ∧
      bus.probes = operations.countP (·.isProbe) ∧
      bus.broken = (operations.filterMap (·.broken?)).getLast? ∧
      ∀ (other : ImageBus) (device : Device) (offset : UInt32) (length : Nat)
        (buffer : Vector UInt8 length),
        other.names = names → other.devices = devices → other.broken = bus.broken →
        length < UInt32.size →
        (readOver bus device offset buffer).1 = (readOver other device offset buffer).1 ∧
          (readOver bus device offset buffer).2.1 = (readOver other device offset buffer).2.1 := by
  intro bus
  obtain ⟨reads, log, probes, broken⟩ := (keeps_new names devices).after short
  refine ⟨reads, ?_, probes, broken, ?_⟩
  · rw [show bus.reads = _ from reads]
    exact log.trans List.take_eq_take_min
  · intro other device offset length buffer sameNames sameDevices sameBroken fits
    obtain ⟨keptNames, keptDevices⟩ := after_keeps { names, devices } operations
    have answers : bus.fetch = other.fetch :=
      fetch_congr (keptNames.trans sameNames.symm) (keptDevices.trans sameDevices.symm)
        sameBroken.symm
    exact readOver_congr (congrFun (congrFun (congrFun answers device) offset) length) fits buffer

/-- One read before the log is emptied and seventy behind it, of which the first fails.  The log is
full, and the byte that was broken before is still broken. -/
theorem after_new_of_full_log :
    let devices : List ImageDevice := [{ bus := "i2c0", address := 0x52, image := [1, 2, 3] }]
    let device : Device := { controller := 0, address := 0x52 }
    let operations : List Operation :=
      [.probe "i2c0" 0x52, .breakByte 2 .busError, .read device 0 1, .emptyLog, .probe "i2c9" 0x52,
        .read device 1 2] ++ List.replicate 69 (.read device 0 2)
    let bus := ImageBus.after { names := ["i2c0"], devices } operations
    (∀ operation ∈ operations, operation.IsShort) ∧
      bus.reads = 70 ∧ bus.log = ⟨device, 1, 2⟩ :: List.replicate 63 ⟨device, 0, 2⟩ ∧
      bus.probes = 2 ∧ bus.broken = some ⟨2, .busError⟩ ∧
      (readOver bus device 1 #v[0xa5, 0xa5]).1 = .error .busError := by
  intro devices device operations bus
  have short : ∀ operation ∈ operations, operation.IsShort := by decide
  obtain ⟨reads, log, probes, broken, answers⟩ := after_new ["i2c0"] devices short
  have breaks : bus.broken = some ⟨2, .busError⟩ := broken.trans rfl
  let fresh : ImageBus := { names := ["i2c0"], devices, broken := some ⟨2, .busError⟩ }
  have answer := (answers fresh device 1 2 #v[0xa5, 0xa5] rfl rfl breaks.symm (by decide)).1
  exact ⟨short, reads.trans rfl, log.trans (by rw [reads]; rfl), probes.trans rfl, breaks,
    answer.trans rfl⟩

end BoardIdentity.I2c.ImageBus
