import BoardIdentity.Dram.OverrideRow
import BoardIdentity.Proofs.Eeprom.Exchanges
import BoardIdentity.Som.Record
import Mathlib.Data.List.Forall2

/-!
# Sequences of calls

`Eeprom.perform` is one call of a handle and `Eeprom.performAll` any sequence of them.  What the
calls ask of the bus is fixed by the calls alone (`Call.request`), so the transactions of a sequence
are the conversation that holds exactly these requests, each of them once.  `Answers` says what a
call makes of its one transaction; `exchanged_perform` is one call, and `exchanged_performAll` the
whole sequence.
-/

namespace BoardIdentity

namespace I2c.Bus

variable {β : Type} [Bus β]

theorem length_converse (bus : β) (requests : List ReadRequest) :
    (converse bus requests).1.length = requests.length := by
  induction requests generalizing bus with
  | nil => rfl
  | cons request requests ih => exact congrArg (· + 1) (ih (ask bus request).2)

theorem request_converse (bus : β) (requests : List ReadRequest) :
    (converse bus requests).1.map (·.request) = requests := by
  induction requests generalizing bus with
  | nil => rfl
  | cons request requests ih => exact congrArg (request :: ·) (ih (ask bus request).2)

/-- A conversation begins like the whole one, if it begins with the same requests. -/
theorem converse_take (bus : β) (requests : List ReadRequest) (count : Nat) :
    (converse bus (requests.take count)).1 = (converse bus requests).1.take count := by
  have parts := converse_append bus (requests.take count) (requests.drop count)
  rw [List.take_append_drop] at parts
  rcases Nat.le_total count requests.length with within | beyond
  · have length : (converse bus (requests.take count)).1.length = count := by
      rw [length_converse, List.length_take_of_le within]
    rw [parts, List.take_left' length]
  · have length : (converse bus requests).1.length ≤ count := by
      rw [length_converse]
      exact beyond
    rw [List.take_of_length_le beyond, List.take_of_length_le length]

end I2c.Bus

namespace Eeprom

variable {β κ : Type} [I2c.Bus β] [Cache κ]

/-! ## Calls -/

/-- One call of a handle. -/
inductive Call : Type 1 where
  | bytes (offset : UInt32) (length : Nat)
  | record (α : Type) [Layout α] (offset : UInt32)
  | module

namespace Call

/-- What a call delivers if it succeeds. -/
def Value : Call → Type
  | bytes _ length => Vector UInt8 length
  | @record α _ _ => α
  | module => Som.Record

/-- The read that a call asks of the bus. -/
def request (device : I2c.Device) : Call → I2c.ReadRequest
  | bytes offset length => { device, offset, length }
  | @record α _ offset => { device, offset, length := Layout.size α }
  | module => { device, offset := 0, length := 47 }

/-- The value that a call delivers is what the bytes stand for. -/
def Decodes : (call : Call) → (bytes : List UInt8) → call.Value → Prop
  | bytes _ _, delivered, buffer => buffer.toList = delivered
  | @record α _ _, delivered, value => Layout.ofList? α delivered = some value
  | module, delivered, value => Layout.ofList? Som.Record delivered = some value

end Call

/-- A call with what it answered. -/
structure Outcome where
  call : Call
  answer : Except EepromFault call.Value

/-- Whether the call delivered its value. -/
def Outcome.succeeded (outcome : Outcome) : Bool :=
  outcome.answer.isOk

/-- Performs one call. -/
def perform (eeprom : Eeprom β κ) :
    (call : Call) → Except EepromFault call.Value × Eeprom β κ
  | .bytes offset length => eeprom.readBytes offset length
  | @Call.record α _ offset => eeprom.read α offset
  | .module => eeprom.readModule

/-- Performs calls in order, whatever each of them answers. -/
def performAll (eeprom : Eeprom β κ) : List Call → List Outcome × Eeprom β κ
  | [] => ([], eeprom)
  | call :: calls =>
    let (answer, eeprom) := eeprom.perform call
    let (outcomes, eeprom) := eeprom.performAll calls
    ({ call, answer } :: outcomes, eeprom)

/-- What a call makes of its transaction: the value of the bytes that the bus delivered, or the
fault that the bus reported. -/
inductive Answers (device : I2c.Device) : Outcome → I2c.Exchange → Prop
  | delivered {call : Call} {bytes : List UInt8} {value : call.Value}
      (decodes : call.Decodes bytes value) :
      Answers device ⟨call, .ok value⟩ ⟨call.request device, .ok bytes⟩
  | failed (call : Call) (fault : I2c.Fault) :
      Answers device ⟨call, .error (.readFailed fault)⟩ ⟨call.request device, .error fault⟩

namespace Answers

variable {device : I2c.Device} {outcome : Outcome} {exchange : I2c.Exchange}

theorem request_eq (answers : Answers device outcome exchange) :
    exchange.request = outcome.call.request device := by
  cases answers <;> rfl

/-- A call succeeds exactly if its transaction does. -/
theorem succeeded_eq (answers : Answers device outcome exchange) :
    exchange.succeeded = outcome.succeeded := by
  cases answers <;> rfl

end Answers

/-! ## One call -/

/-- A read of bytes is one exchange, and answers with what the bus answered. -/
theorem exchanged_readBytes (eeprom : Eeprom (I2c.Recorded β) κ) (offset : UInt32)
    (length : Nat) :
    (∃ bytes, (eeprom.readBytes offset length).1 = .ok bytes ∧
      eeprom.Exchanged [{ request := { device := eeprom.device, offset, length }
                          answer := .ok bytes.toList }] (eeprom.readBytes offset length).2) ∨
    ∃ fault, (eeprom.readBytes offset length).1 = .error (.readFailed fault) ∧
      eeprom.Exchanged [{ request := { device := eeprom.device, offset, length }
                          answer := .error fault }] (eeprom.readBytes offset length).2 := by
  have asked (answer : Except I2c.Fault (Vector UInt8 length)) (bus : β)
      (read : I2c.Bus.read eeprom.bus.bus eeprom.device offset length = (answer, bus)) :
      I2c.Bus.converse eeprom.bus.bus [{ device := eeprom.device, offset, length }] =
        ([{ request := { device := eeprom.device, offset, length }
            answer := answer.map Vector.toList }], bus) := by
    simp only [I2c.Bus.converse, I2c.Bus.ask, read]
  unfold readBytes
  simp only [I2c.Bus.read, I2c.Recorded.read]
  rcases read : I2c.Bus.read eeprom.bus.bus eeprom.device offset length with ⟨fault | bytes, bus⟩
  · exact .inr ⟨fault, rfl, rfl, asked _ bus read, rfl, rfl⟩
  · exact .inl ⟨bytes, rfl, rfl, asked _ bus read, rfl, rfl⟩

/-- A read of a record is one exchange, and answers with the record that the bytes hold. -/
theorem exchanged_read_cases (eeprom : Eeprom (I2c.Recorded β) κ) (α : Type) [Layout α]
    (offset : UInt32) :
    (∃ bytes value, (eeprom.read α offset).1 = .ok value ∧ Layout.ofList? α bytes = some value ∧
      eeprom.Exchanged [{ request := { device := eeprom.device, offset, length := Layout.size α }
                          answer := .ok bytes }] (eeprom.read α offset).2) ∨
    ∃ fault, (eeprom.read α offset).1 = .error (.readFailed fault) ∧
      eeprom.Exchanged [{ request := { device := eeprom.device, offset, length := Layout.size α }
                          answer := .error fault }] (eeprom.read α offset).2 := by
  rcases answer : (eeprom.read α offset).1 with failure | value
  · obtain ⟨fault, rfl, exchanged⟩ := exchanged_read_of_error answer
    exact .inr ⟨fault, rfl, exchanged⟩
  · obtain ⟨bytes, decodes, exchanged⟩ := exchanged_read_of_ok answer
    exact .inl ⟨bytes, value, rfl, decodes, exchanged⟩

/-- A call is one exchange, and answers with what the bus answered. -/
theorem exchanged_perform (eeprom : Eeprom (I2c.Recorded β) κ) (call : Call) :
    ∃ exchange, Answers eeprom.device ⟨call, (eeprom.perform call).1⟩ exchange ∧
      eeprom.Exchanged [exchange] (eeprom.perform call).2 := by
  have either : (∃ bytes value, (eeprom.perform call).1 = .ok value ∧ call.Decodes bytes value ∧
        eeprom.Exchanged [⟨call.request eeprom.device, .ok bytes⟩] (eeprom.perform call).2) ∨
      ∃ fault, (eeprom.perform call).1 = .error (.readFailed fault) ∧
        eeprom.Exchanged [⟨call.request eeprom.device, .error fault⟩]
          (eeprom.perform call).2 := by
    cases call with
    | bytes offset length =>
      refine (eeprom.exchanged_readBytes offset length).imp_left ?_
      rintro ⟨bytes, answer, exchanged⟩
      exact ⟨bytes.toList, bytes, answer, rfl, exchanged⟩
    | record α offset => exact eeprom.exchanged_read_cases α offset
    | module => exact eeprom.exchanged_read_cases Som.Record 0
  rcases either with ⟨bytes, value, answer, decodes, exchanged⟩ | ⟨fault, answer, exchanged⟩
  · exact ⟨_, answer ▸ .delivered decodes, exchanged⟩
  · exact ⟨_, answer ▸ .failed call fault, exchanged⟩

/-- A call does without the record of its bus what it does with it. -/
theorem perform_forget (eeprom : Eeprom (I2c.Recorded β) κ) (call : Call) :
    eeprom.forget.perform call = ((eeprom.perform call).1, (eeprom.perform call).2.forget) := by
  cases call with
  | bytes offset length => exact eeprom.readBytes_forget offset length
  | record α offset => exact eeprom.read_forget α offset
  | module => exact eeprom.read_forget Som.Record 0

/-! ## Any number of calls -/

/-- The exchanges of a sequence of calls answer the calls one by one. -/
theorem exchanged_performAll (eeprom : Eeprom (I2c.Recorded β) κ) (calls : List Call) :
    ∃ exchanges, List.Forall₂ (Answers eeprom.device) (eeprom.performAll calls).1 exchanges ∧
      eeprom.Exchanged exchanges (eeprom.performAll calls).2 := by
  induction calls generalizing eeprom with
  | nil => exact ⟨[], .nil, .refl eeprom⟩
  | cons call calls ih =>
    obtain ⟨exchange, answers, first⟩ := eeprom.exchanged_perform call
    obtain ⟨exchanges, others, rest⟩ := ih (eeprom.perform call).2
    rw [first.device] at others
    exact ⟨exchange :: exchanges, .cons answers others, first.trans rest⟩

theorem performAll_forget (eeprom : Eeprom (I2c.Recorded β) κ) (calls : List Call) :
    eeprom.forget.performAll calls =
      ((eeprom.performAll calls).1, (eeprom.performAll calls).2.forget) := by
  induction calls generalizing eeprom with
  | nil => rfl
  | cons call calls ih =>
    simp only [performAll, perform_forget]
    rw [ih]

theorem call_performAll (eeprom : Eeprom β κ) (calls : List Call) :
    (eeprom.performAll calls).1.map (·.call) = calls := by
  induction calls generalizing eeprom with
  | nil => rfl
  | cons call calls ih => exact congrArg (call :: ·) (ih (eeprom.perform call).2)

/-- Calls succeed as often as their transactions do. -/
theorem countP_succeeded_of_answers {device : I2c.Device} {outcomes : List Outcome}
    {exchanges : List I2c.Exchange} (answers : List.Forall₂ (Answers device) outcomes exchanges) :
    exchanges.countP (·.succeeded) = outcomes.countP (·.succeeded) := by
  induction answers with
  | nil => rfl
  | cons first _ ih => rw [List.countP_cons, List.countP_cons, first.succeeded_eq, ih]

/-- Each transaction is the one that its call asks for. -/
theorem map_request_of_answers {device : I2c.Device} {outcomes : List Outcome}
    {exchanges : List I2c.Exchange} (answers : List.Forall₂ (Answers device) outcomes exchanges) :
    exchanges.map (·.request) = (outcomes.map (·.call)).map (·.request device) := by
  induction answers with
  | nil => rfl
  | cons first _ ih => exact congr (congrArg List.cons first.request_eq) ih

/-- The requests of a sequence are those of its calls, and the exchanges what the bus answers to
them. -/
theorem performAll_run (eeprom : Eeprom β κ) (calls : List Call) :
    let requests := calls.map (·.request eeprom.device)
    let outcomes := (eeprom.performAll calls).1
    let after := (eeprom.performAll calls).2
    (eeprom.recorded.performAll calls).2.bus.requests = requests ∧
      List.Forall₂ (Answers eeprom.device) outcomes (I2c.Bus.converse eeprom.bus requests).1 ∧
      after.bus = (I2c.Bus.converse eeprom.bus requests).2 ∧ after.device = eeprom.device ∧
      after.cache = Cache.flush^[outcomes.countP (·.succeeded)] eeprom.cache := by
  intro requests outcomes after
  have whole := eeprom.recorded.performAll_forget calls
  rw [forget_recorded] at whole
  have answered : outcomes = (eeprom.recorded.performAll calls).1 := congrArg (·.1) whole
  have left : after = (eeprom.recorded.performAll calls).2.forget := congrArg (·.2) whole
  obtain ⟨exchanges, answers, exchanged⟩ := eeprom.recorded.exchanged_performAll calls
  rw [← answered] at answers
  have asked : exchanges.map (·.request) = requests := by
    rw [map_request_of_answers answers, eeprom.call_performAll calls]
    rfl
  have conversed : I2c.Bus.converse eeprom.bus requests = (exchanges, after.bus) := by
    rw [← asked, left]
    exact exchanged.answered
  rw [conversed]
  refine ⟨?_, answers, rfl, ?_, ?_⟩
  · rw [exchanged.requests, asked]
    rfl
  · rw [left]
    exact exchanged.device
  · rw [left, ← countP_succeeded_of_answers answers]
    exact exchanged.flushed

theorem iterate_flush (count : Nat) (cache : FlushCount) :
    Cache.flush^[count] cache = { flushes := cache.flushes + count } := by
  induction count generalizing cache with
  | zero => rfl
  | succ count ih =>
    rw [Function.iterate_succ_apply, ih, Nat.add_comm count 1, ← Nat.add_assoc]
    rfl

/-- **A call is one transaction.**  Over any sequence of calls on a handle, whatever its bus
answers, the transactions are the requests of the calls, each of them once and in order: of the
device that the probe came to, at the offset and of the length that is asked for, which for the
module record are 0 and 47 and for a row of overrides a length of 8.  A call answers with the value
of exactly the bytes that the bus delivered, or with the fault that the bus reported and no value.
At any point of the sequence the bus is left as these transactions leave it, and the cache has been
flushed once for each call that succeeded, and not for the others. -/
theorem performAll_exchanges (eeprom : Eeprom β κ) (calls : List Call) :
    let device := eeprom.device
    let requests := calls.map (·.request device)
    let exchanges := (I2c.Bus.converse eeprom.bus requests).1
    let outcomes := (eeprom.performAll calls).1
    (∀ bus name address cache, (find bus name address cache).1 = .ok eeprom →
        (I2c.Bus.probe bus name address).1 = .ok device) ∧
      Call.request device .module = { device, offset := 0, length := 47 } ∧
      (∀ offset,
        Call.request device (.record Dram.OverrideRow offset) = { device, offset, length := 8 }) ∧
      outcomes.map (·.call) = calls ∧
      exchanges.map (·.request) = requests ∧
      List.Forall₂ (Answers device) outcomes exchanges ∧
      (∀ count,
        let after := (eeprom.performAll (calls.take count)).2
        let recorded := (eeprom.recorded.performAll (calls.take count)).2
        recorded.bus.requests = requests.take count ∧
          after.bus = (I2c.Bus.converse eeprom.bus (requests.take count)).2 ∧
          after.device = device ∧
          after.cache = Cache.flush^[(exchanges.take count).countP (·.succeeded)] eeprom.cache) ∧
      let counting : Eeprom β FlushCount := { eeprom with cache := {} }
      (counting.performAll calls).2.cache.flushes = exchanges.countP (·.succeeded) ∧
        exchanges.length = calls.length := by
  intro device requests exchanges outcomes
  have answers := (eeprom.performAll_run calls).2.1
  refine ⟨fun bus name address cache => probe_of_find, rfl, fun offset => rfl,
    eeprom.call_performAll calls, I2c.Bus.request_converse eeprom.bus requests, answers, ?_, ?_⟩
  · intro count after recorded
    obtain ⟨asked, answers, bus, device, cache⟩ := eeprom.performAll_run (calls.take count)
    rw [List.map_take] at asked bus answers
    rw [← countP_succeeded_of_answers answers, I2c.Bus.converse_take] at cache
    exact ⟨asked, bus, device, cache⟩
  · intro counting
    obtain ⟨-, answersCounted, -, -, cache⟩ := counting.performAll_run calls
    rw [← countP_succeeded_of_answers answersCounted, iterate_flush] at cache
    refine ⟨(congrArg (·.flushes) cache).trans (Nat.zero_add _), ?_⟩
    rw [I2c.Bus.length_converse, List.length_map]

/-- A row, bytes that end with a broken one, the same bytes without it, and a module record that
leaves the image: four transactions, and a flush for the first and the third. -/
theorem performAll_exchanges_of_broken_byte :
    let bus : I2c.ImageBus :=
      { names := ["i2c0"]
        devices := [{ bus := "i2c0", address := 0x52, image := [1, 0, 0, 0, 2, 0, 0, 0, 3] }]
        broken := some ⟨8, .busLocked⟩ }
    let device : I2c.Device := { controller := 0, address := 0x52 }
    let eeprom : Eeprom I2c.ImageBus FlushCount :=
      { bus := { bus with probes := 1 }, device, cache := {} }
    let calls : List Call := [.record Dram.OverrideRow 0, .bytes 4 5, .bytes 4 4, .module]
    let after := (eeprom.performAll calls).2
    (find bus "i2c0" 0x52 ({} : FlushCount)).1 = .ok eeprom ∧
      (I2c.Bus.probe bus "i2c0" 0x52).1 = .ok device ∧
      (eeprom.recorded.performAll calls).2.bus.requests =
        [⟨device, 0, 8⟩, ⟨device, 4, 5⟩, ⟨device, 4, 4⟩, ⟨device, 0, 47⟩] ∧
      after.bus.log = [⟨device, 0, 8⟩, ⟨device, 4, 5⟩, ⟨device, 4, 4⟩, ⟨device, 0, 47⟩] ∧
      after.cache = { flushes := 2 } := by
  intro bus device eeprom calls after
  have found : (find bus "i2c0" 0x52 ({} : FlushCount)).1 = .ok eeprom := rfl
  obtain ⟨probed, -, -, -, -, -, run, -⟩ := performAll_exchanges eeprom calls
  obtain ⟨asked, left, -, flushed⟩ := run calls.length
  exact ⟨found, probed bus "i2c0" 0x52 {} found, asked,
    (congrArg (·.log) left).trans (by decide), flushed.trans (by decide)⟩

end Eeprom

end BoardIdentity
