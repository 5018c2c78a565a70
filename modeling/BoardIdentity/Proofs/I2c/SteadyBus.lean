import BoardIdentity.I2c.ImageBus

/-!
# Buses that answer by offset alone

A bus may answer a read by anything it has seen before.  `AnswersBy` says that for reads of one
length from one device it does not: the answer is a function of the offset, whatever was read in
between.  The bus in memory is such a bus (`ImageBus.answersBy_fetch`), since its log and its
counters play no part in an answer.
-/

namespace BoardIdentity.I2c

variable {β : Type} [Bus β] {length : Nat}

/-- The bus after reads of one length from a device, one at each of the offsets. -/
def Bus.afterReads (bus : β) (device : Device) (length : Nat) : List UInt32 → β
  | [] => bus
  | offset :: offsets => afterReads (Bus.read bus device offset length).2 device length offsets

/-- Whatever was read of the device before, a read at an offset is answered by `answer`. -/
def AnswersBy (bus : β) (device : Device)
    (answer : UInt32 → Except Fault (Vector UInt8 length)) : Prop :=
  ∀ earlier offset,
    (Bus.read (Bus.afterReads bus device length earlier) device offset length).1 = answer offset

namespace AnswersBy

variable {bus : β} {device : Device} {answer : UInt32 → Except Fault (Vector UInt8 length)}

/-- The next read is answered by its offset. -/
theorem read_fst (steady : AnswersBy bus device answer) (offset : UInt32) :
    (Bus.read bus device offset length).1 = answer offset :=
  steady [] offset

/-- A read leaves a bus that answers by the same function. -/
theorem read_snd (steady : AnswersBy bus device answer) (offset : UInt32) :
    AnswersBy (Bus.read bus device offset length).2 device answer :=
  fun earlier => steady (offset :: earlier)

end AnswersBy

/-! ## The bus in memory -/

namespace ImageBus

/-- Reads leave what the bus answers as it is. -/
@[simp]
theorem fetch_afterReads (bus : ImageBus) (device : Device) (length : Nat)
    (offsets : List UInt32) : (Bus.afterReads bus device length offsets).fetch = bus.fetch := by
  induction offsets generalizing bus with
  | nil => rfl
  | cons offset offsets ih => exact (ih _).trans (bus.fetch_read device offset length)

/-- A length that fits 32 bits is answered from the image. -/
theorem read_fst_eq_fetch (bus : ImageBus) (device : Device) (offset : UInt32)
    (fits : length < UInt32.size) : (bus.read device offset length).1 =
      bus.fetch device offset length := by
  unfold read
  rw [if_pos fits]

/-- The bus in memory answers by offset alone. -/
theorem answersBy_fetch (bus : ImageBus) (device : Device) (fits : length < UInt32.size) :
    AnswersBy bus device (bus.fetch device · length) := by
  intro earlier offset
  exact (read_fst_eq_fetch _ device offset fits).trans (by rw [fetch_afterReads])

end ImageBus

end BoardIdentity.I2c
