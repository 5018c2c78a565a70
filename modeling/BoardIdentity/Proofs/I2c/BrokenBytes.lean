import BoardIdentity.Proofs.I2c.ImageLookup

/-!
# What a broken byte does to reads

`Covers` says in natural numbers which bytes a read asks for.  A read of a bus in memory fails with
the fault of the broken byte exactly if it covers that byte and the byte is not the one at the last
32-bit offset; every other read ends as if no byte were broken (`readOver_breakByte`).  At the last
offset a broken byte is never reported (`readOver_breakByte_lastOffset`).
-/

namespace BoardIdentity.I2c

/-- A read of `length` bytes from `offset` on asks for the byte at offset `byte`. -/
def Covers (offset : UInt32) (length : Nat) (byte : UInt32) : Prop :=
  offset.toNat ≤ byte.toNat ∧ byte.toNat < offset.toNat + length

instance (offset : UInt32) (length : Nat) (byte : UInt32) : Decidable (Covers offset length byte) :=
  inferInstanceAs (Decidable (_ ∧ _))

/-- The largest offset that fits 32 bits. -/
def lastOffset : UInt32 := 0xffffffff

/-- The check for a broken byte overlooks nothing but the last offset. -/
theorem BrokenByte.isTouched_iff_covers (broken : BrokenByte) (offset : UInt32) (length : Nat) :
    broken.isTouched offset length = true ↔
      Covers offset length broken.offset ∧ broken.offset ≠ lastOffset := by
  have below : broken.offset.toNat < UInt32.size := broken.offset.toNat_lt
  have last : broken.offset = lastOffset ↔ broken.offset.toNat = UInt32.size - 1 :=
    UInt32.toNat_inj.symm
  rw [isTouched_iff, Covers, Ne, last]
  omega

theorem BrokenByte.isTouched_eq_false_iff (broken : BrokenByte) (offset : UInt32) (length : Nat) :
    broken.isTouched offset length = false ↔
      ¬ Covers offset length broken.offset ∨ broken.offset = lastOffset := by
  rw [← Bool.not_eq_true, isTouched_iff_covers, Decidable.not_and_iff_not_or_not, Decidable.not_not]

namespace ImageBus

variable {device : Device} {offset : UInt32} {length : Nat}

/-- A read into a buffer says what `fetch` says, and replaces the buffer by what it delivers. -/
theorem readOver_eq (bus : ImageBus) (device : Device) (offset : UInt32)
    (fits : length < UInt32.size) (buffer : Vector UInt8 length) :
    readOver bus device offset buffer =
      ((bus.fetch device offset length).map fun _ => (),
        (bus.fetch device offset length).toOption.getD buffer,
        (bus.read device offset length).2) := by
  have answered := read_fst_eq_fetch bus device offset fits
  change (Bus.read bus device offset length).1 = _ at answered
  unfold readOver
  change _ = (_, _, (Bus.read bus device offset length).2)
  generalize Bus.read bus device offset length = reading at answered ⊢
  obtain ⟨answer, after⟩ := reading
  rw [← answered]
  cases answer <;> rfl

/-- A read's result and the buffer it leaves depend on what `fetch` says, and on nothing else. -/
theorem readOver_congr {bus other : ImageBus}
    (same : bus.fetch device offset length = other.fetch device offset length)
    (fits : length < UInt32.size) (buffer : Vector UInt8 length) :
    (readOver bus device offset buffer).1 = (readOver other device offset buffer).1 ∧
      (readOver bus device offset buffer).2.1 = (readOver other device offset buffer).2.1 := by
  rw [readOver_eq bus device offset fits, readOver_eq other device offset fits, same]
  exact ⟨rfl, rfl⟩

theorem fetch_breakByte_of_reported {bad : UInt32} (covered : Covers offset length bad)
    (early : bad ≠ lastOffset) (bus : ImageBus) (fault : Fault) (device : Device) :
    (bus.breakByte bad fault).fetch device offset length = .error fault := by
  have breaks : (bus.breakByte bad fault).broken = some ⟨bad, fault⟩ := rfl
  exact fetch_of_touched breaks ((BrokenByte.isTouched_iff_covers _ _ _).mpr ⟨covered, early⟩)

/-- A broken byte that is not reported plays no part in the answer. -/
theorem fetch_breakByte_of_overlooked {bad : UInt32}
    (overlooked : ¬ Covers offset length bad ∨ bad = lastOffset) (bus : ImageBus) (fault : Fault)
    (device : Device) :
    (bus.breakByte bad fault).fetch device offset length =
      { bus with broken := none }.fetch device offset length := by
  have untouched : BrokenByte.isTouched ⟨bad, fault⟩ offset length = false :=
    (BrokenByte.isTouched_eq_false_iff ⟨bad, fault⟩ offset length).mpr overlooked
  have unseen : (bus.breakByte bad fault).broken.filter (·.isTouched offset length) = none := by
    rw [breakByte, Option.filter_some, untouched, if_neg Bool.false_ne_true]
  rw [fetch, unseen]
  rfl

/-- **A broken byte fails the reads that cover it, and no others.**  With a byte broken, every read
that covers it fails with its fault and leaves the buffer as it was, unless the byte is the one at
the last 32-bit offset; every other read, also one of no bytes, one of a device that is not there
and one that leaves the image, has the result and the buffer that it has with no byte broken. -/
theorem readOver_breakByte (bus : ImageBus) (bad : UInt32) (fault : Fault) (device : Device)
    (offset : UInt32) (fits : length < UInt32.size) (buffer : Vector UInt8 length) :
    let reading := readOver (bus.breakByte bad fault) device offset buffer
    let unbroken := readOver { bus with broken := none } device offset buffer
    (Covers offset length bad → bad ≠ lastOffset →
        reading.1 = .error fault ∧ reading.2.1 = buffer) ∧
      (¬ Covers offset length bad ∨ bad = lastOffset →
        reading.1 = unbroken.1 ∧ reading.2.1 = unbroken.2.1) := by
  intro reading unbroken
  constructor
  · intro covered early
    have read := readOver_eq (bus.breakByte bad fault) device offset fits buffer
    rw [fetch_breakByte_of_reported covered early] at read
    exact ⟨congrArg (·.1) read, congrArg (·.2.1) read⟩
  · intro overlooked
    exact readOver_congr (fetch_breakByte_of_overlooked overlooked bus fault device) fits buffer

/-- Byte 5 of eight is broken: a read that ends with it fails and leaves the buffer alone, the next
two bytes can be read. -/
theorem readOver_breakByte_of_five :
    let bus : ImageBus :=
      { names := ["i2c1"]
        devices := [{ bus := "i2c1", address := 0x52, image := [0, 1, 2, 3, 4, 5, 6, 7] }] }
    let device : Device := { controller := 0, address := 0x52 }
    let buffer : Vector UInt8 2 := #v[0xa5, 0xa5]
    let before := readOver (bus.breakByte 5 .busError) device 4 buffer
    let behind := readOver (bus.breakByte 5 .busError) device 6 buffer
    2 < UInt32.size ∧ Covers 4 2 5 ∧ ¬ Covers 6 2 5 ∧
      before.1 = .error .busError ∧ before.2.1 = buffer ∧
      behind.1 = .ok () ∧ behind.2.1 = #v[6, 7] := by
  intro bus device buffer before behind
  have fits : 2 < UInt32.size := by decide
  have covered : Covers 4 2 5 := by decide
  have uncovered : ¬ Covers 6 2 5 := by decide
  obtain ⟨fault, untouched⟩ :=
    (readOver_breakByte bus 5 .busError device 4 fits buffer).1 covered (by decide)
  obtain ⟨result, delivered⟩ :=
    (readOver_breakByte bus 5 .busError device 6 fits buffer).2 (.inl uncovered)
  exact ⟨fits, covered, uncovered, fault, untouched, result.trans rfl, delivered.trans rfl⟩

/-- The byte at the last offset is broken, and a read that covers it is told that it leaves the
image, as if no byte were broken. -/
theorem readOver_breakByte_lastOffset :
    let bus : ImageBus :=
      { names := ["i2c0"], devices := [{ bus := "i2c0", address := 0x52, image := [0] }] }
    let device : Device := { controller := 0, address := 0x52 }
    Covers lastOffset 1 lastOffset ∧
      (readOver (bus.breakByte lastOffset .busError) device lastOffset #v[0xa5]).1 =
        .error .badArgument := by
  intro bus device
  exact ⟨by decide, rfl⟩

end ImageBus

end BoardIdentity.I2c
