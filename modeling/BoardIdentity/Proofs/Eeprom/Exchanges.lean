import BoardIdentity.Proofs.Eeprom.Reads
import BoardIdentity.Proofs.I2c.Conversation
import Mathlib.Logic.Function.Iterate

/-!
# What passes between a handle and its bus

`Eeprom.Exchanged` says of two states of a recorded handle which exchanges led from one to the
other: the record has grown by their requests, the bus gave their answers and is left as it is after
them, and the cache was flushed once for each success.  One read is one exchange
(`exchanged_read_of_ok`, `exchanged_read_of_error`), and what is done in two parts adds up
(`Exchanged.trans`).
-/

namespace BoardIdentity.Eeprom

variable {β κ : Type} [I2c.Bus β] [Cache κ]

/-- The exchanges that lead from one state of a handle to another. -/
structure Exchanged (eeprom : Eeprom (I2c.Recorded β) κ) (exchanges : List I2c.Exchange)
    (after : Eeprom (I2c.Recorded β) κ) : Prop where
  requests : after.bus.requests = eeprom.bus.requests ++ exchanges.map (·.request)
  answered : I2c.Bus.converse eeprom.bus.bus (exchanges.map (·.request)) =
    (exchanges, after.bus.bus)
  device : after.device = eeprom.device
  flushed : after.cache = Cache.flush^[exchanges.countP (·.succeeded)] eeprom.cache

namespace Exchanged

variable {eeprom middle after : Eeprom (I2c.Recorded β) κ}

theorem refl (eeprom : Eeprom (I2c.Recorded β) κ) : eeprom.Exchanged [] eeprom :=
  ⟨(List.append_nil _).symm, rfl, rfl, rfl⟩

theorem trans {first second : List I2c.Exchange} (begun : eeprom.Exchanged first middle)
    (ended : middle.Exchanged second after) : eeprom.Exchanged (first ++ second) after where
  requests := by
    rw [ended.requests, begun.requests, List.map_append, List.append_assoc]
  answered := by
    rw [List.map_append, I2c.Bus.converse_append, begun.answered, ended.answered]
  device := ended.device.trans begun.device
  flushed := by
    rw [ended.flushed, begun.flushed, List.countP_append, Nat.add_comm, Function.iterate_add_apply]

end Exchanged

/-! ## One read -/

section OneRead

variable {α : Type} [Layout α] {offset : UInt32} {eeprom : Eeprom (I2c.Recorded β) κ}

/-- The exchange of a read of one record. -/
def exchange (eeprom : Eeprom (I2c.Recorded β) κ) (α : Type) [Layout α] (offset : UInt32) :
    I2c.Exchange :=
  (I2c.Bus.ask eeprom.bus.bus { device := eeprom.device, offset, length := Layout.size α }).1

theorem exchanged_read (eeprom : Eeprom (I2c.Recorded β) κ) (α : Type) [Layout α]
    (offset : UInt32) :
    eeprom.Exchanged [eeprom.exchange α offset] (eeprom.read α offset).2 where
  requests := eeprom.requests_read α offset
  answered := by
    rw [bus_read]
    rfl
  device := device_read eeprom α offset
  flushed := by
    unfold exchange read readBytes I2c.Bus.ask
    simp only [I2c.Bus.read, I2c.Recorded.read]
    rcases I2c.Bus.read eeprom.bus.bus eeprom.device offset (Layout.size α) with
      ⟨fault | bytes, bus⟩ <;> rfl

/-- A read that fails is an exchange with the bus's fault. -/
theorem exchanged_read_of_error {failure : EepromFault}
    (read : (eeprom.read α offset).1 = .error failure) :
    ∃ fault, failure = .readFailed fault ∧
      eeprom.Exchanged [{ request := { device := eeprom.device, offset, length := Layout.size α }
                          answer := .error fault }] (eeprom.read α offset).2 := by
  have exchanged := eeprom.exchanged_read α offset
  rw [read_fst] at read
  unfold exchange I2c.Bus.ask at exchanged
  simp only [I2c.Bus.read, I2c.Recorded.read] at read exchanged
  generalize (I2c.Bus.read eeprom.bus.bus eeprom.device offset (Layout.size α)).1 = answer
    at read exchanged
  rcases answer with fault | bytes
  · exact ⟨fault, (Except.error.inj read).symm, exchanged⟩
  · cases read

/-- A read that delivers a value is an exchange whose bytes hold it. -/
theorem exchanged_read_of_ok {value : α} (read : (eeprom.read α offset).1 = .ok value) :
    ∃ bytes, Layout.ofList? α bytes = some value ∧
      eeprom.Exchanged [{ request := { device := eeprom.device, offset, length := Layout.size α }
                          answer := .ok bytes }] (eeprom.read α offset).2 := by
  have exchanged := eeprom.exchanged_read α offset
  rw [read_fst] at read
  unfold exchange I2c.Bus.ask at exchanged
  simp only [I2c.Bus.read, I2c.Recorded.read] at read exchanged
  generalize (I2c.Bus.read eeprom.bus.bus eeprom.device offset (Layout.size α)).1 = answer
    at read exchanged
  rcases answer with fault | bytes
  · cases read
  · refine ⟨bytes.toList, ?_, exchanged⟩
    rw [Layout.ofList?, dif_pos Vector.length_toList, ← Except.ok.inj read]
    rfl

end OneRead

end BoardIdentity.Eeprom
