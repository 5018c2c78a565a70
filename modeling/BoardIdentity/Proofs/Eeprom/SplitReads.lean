import BoardIdentity.Proofs.Eeprom.Reads
import BoardIdentity.Proofs.I2c.ImageLookup

/-!
# Reads in two parts

A read of a bus in memory succeeds exactly if it can be cut in two at any place and both parts
succeed, and then it delivers what they deliver, one behind the other (`readBytes_add`).  Three
things have to agree on the seam: the window of the broken byte, whose end is cut off at the last
32-bit offset (`isTouched_add`), the end of the image, and the bytes.
-/

namespace BoardIdentity

namespace I2c

variable {offset : UInt32} {front back : Nat}

theorem toNat_add_ofNat (inRange : offset.toNat + front < UInt32.size) :
    (offset + UInt32.ofNat front).toNat = offset.toNat + front := by
  have small : front < UInt32.size := Nat.lt_of_le_of_lt (Nat.le_add_left _ _) inRange
  rw [UInt32.toNat_add, UInt32.toNat_ofNat_of_lt' small]
  exact Nat.mod_eq_of_lt inRange

/-- A read leaves the broken byte alone exactly if both of its parts do.  The first part ends where
the second starts, so that only the end of the second can be cut off. -/
theorem BrokenByte.isTouched_add (broken : BrokenByte)
    (inRange : offset.toNat + front < UInt32.size) :
    broken.isTouched offset (front + back) = false ↔
      broken.isTouched offset front = false ∧
        broken.isTouched (offset + UInt32.ofNat front) back = false := by
  simp only [← Bool.not_eq_true, isTouched_iff, toNat_add_ofNat inRange]
  omega

namespace ImageBus

variable {bus : ImageBus} {device : Device} {bytes : List UInt8}

/-- A read delivers bytes exactly if it leaves the broken byte alone, its device is there, and it
stays within the image, whose bytes they are. -/
theorem toList_fetch_eq_ok_iff {length : Nat} :
    (bus.fetch device offset length).map Vector.toList = .ok bytes ↔
      (∀ broken, bus.broken = some broken → broken.isTouched offset length = false) ∧
        ∃ found, bus.device? device = some found ∧
          offset.toNat + length ≤ found.image.length ∧
          bytes = (found.image.drop offset.toNat).take length := by
  cases seen : bus.device? device with
  | none =>
    have fails : (bus.fetch device offset length).map Vector.toList ≠ .ok bytes := by
      unfold fetch
      rw [seen]
      split <;> exact nofun
    exact iff_of_false fails fun ⟨_, _, found, _⟩ => nomatch found
  | some found =>
    constructor
    · intro delivered
      cases fetched : bus.fetch device offset length with
      | error fault => rw [fetched] at delivered; cases delivered
      | ok content =>
        obtain ⟨untouched, inside, own⟩ := (fetch_eq_ok_iff seen).mp fetched
        rw [fetched] at delivered
        cases delivered
        exact ⟨untouched, found, rfl, inside, own⟩
    · rintro ⟨untouched, same, found, inside, own⟩
      cases found
      obtain ⟨content, fetched, same⟩ := (fetch_of_not_touched seen untouched).1 inside
      rw [fetched, own]
      exact congrArg Except.ok same

/-- A read succeeds exactly if both of its parts do, and delivers what they deliver. -/
theorem fetch_add (inRange : offset.toNat + front < UInt32.size) :
    (bus.fetch device offset (front + back)).map Vector.toList = .ok bytes ↔
      (bus.fetch device offset front).map Vector.toList = .ok (bytes.take front) ∧
        (bus.fetch device (offset + UInt32.ofNat front) back).map Vector.toList =
          .ok (bytes.drop front) := by
  simp only [toList_fetch_eq_ok_iff, BrokenByte.isTouched_add _ inRange, toNat_add_ofNat inRange]
  constructor
  · rintro ⟨untouched, found, seen, inside, rfl⟩
    refine ⟨⟨fun broken breaks => (untouched broken breaks).1, found, seen, by omega, ?_⟩,
      ⟨fun broken breaks => (untouched broken breaks).2, found, seen, by omega, ?_⟩⟩
    · rw [List.take_take, Nat.min_eq_left (Nat.le_add_right front back)]
    · rw [List.drop_take, List.drop_drop, Nat.add_sub_cancel_left]
  · rintro ⟨⟨untouched, found, seen, -, first⟩, ⟨untouchedBehind, same, seenToo, inside, second⟩⟩
    obtain rfl := Option.some.inj (seen.symm.trans seenToo)
    refine ⟨fun broken breaks => ⟨untouched broken breaks, untouchedBehind broken breaks⟩, found,
      seen, by omega, ?_⟩
    rw [List.take_add, List.drop_drop, ← first, ← second, List.take_append_drop]

end ImageBus

end I2c

namespace Eeprom

variable {κ : Type} [Cache κ]

/-- What a read of a bus in memory answers is what the bus fetches. -/
theorem readBytes_fst (eeprom : Eeprom I2c.ImageBus κ) (offset : UInt32) {length : Nat}
    (fits : length < UInt32.size) :
    (eeprom.readBytes offset length).1 =
      (eeprom.bus.fetch eeprom.device offset length).mapError .readFailed := by
  have answered := I2c.ImageBus.read_fst_eq_fetch eeprom.bus eeprom.device offset fits
  change (I2c.Bus.read eeprom.bus eeprom.device offset length).1 = _ at answered
  unfold readBytes
  generalize I2c.Bus.read eeprom.bus eeprom.device offset length = reading at answered ⊢
  obtain ⟨answer, after⟩ := reading
  rw [← answered]
  cases answer <;> rfl

theorem toList_readBytes_eq_ok_iff {eeprom : Eeprom I2c.ImageBus κ} {offset : UInt32}
    {length : Nat} {bytes : List UInt8} (fits : length < UInt32.size) :
    (eeprom.readBytes offset length).1.map Vector.toList = .ok bytes ↔
      (eeprom.bus.fetch eeprom.device offset length).map Vector.toList = .ok bytes := by
  rw [readBytes_fst eeprom offset fits]
  cases eeprom.bus.fetch eeprom.device offset length with
  | error fault => exact iff_of_false nofun nofun
  | ok content =>
    exact ⟨fun same => congrArg Except.ok (Except.ok.inj same),
      fun same => congrArg Except.ok (Except.ok.inj same)⟩

/-- A read does not change what its bus fetches. -/
theorem fetch_readBytes (eeprom : Eeprom I2c.ImageBus κ) (offset : UInt32) (length : Nat) :
    (eeprom.readBytes offset length).2.bus.fetch = eeprom.bus.fetch := by
  have left := eeprom.bus.fetch_read eeprom.device offset length
  change (I2c.Bus.read eeprom.bus eeprom.device offset length).2.fetch = _ at left
  unfold readBytes
  generalize I2c.Bus.read eeprom.bus eeprom.device offset length = reading at left ⊢
  obtain ⟨answer, after⟩ := reading
  cases answer <;> exact left

/-- **A read is the sum of its parts.**  Whatever the state of the bus, whichever byte is broken and
wherever the read is cut, it delivers some bytes exactly if its front delivers the first of them and
its back the others.  A part may be empty, the parts may end where the image ends, and the back may
end beyond the last 32-bit offset.  The back answers what it answers without the front before it. -/
theorem readBytes_add (eeprom : Eeprom I2c.ImageBus κ) (offset : UInt32) {front back : Nat}
    (fits : front + back < UInt32.size) (inRange : offset.toNat + front < UInt32.size)
    (bytes : List UInt8) :
    let whole := eeprom.readBytes offset (front + back)
    let first := eeprom.readBytes offset front
    let second := first.2.readBytes (offset + UInt32.ofNat front) back
    (whole.1.map Vector.toList = .ok bytes ↔
      first.1.map Vector.toList = .ok (bytes.take front) ∧
        second.1.map Vector.toList = .ok (bytes.drop front)) ∧
      second.1 = (eeprom.readBytes (offset + UInt32.ofNat front) back).1 := by
  intro whole first second
  have frontFits : front < UInt32.size := Nat.lt_of_le_of_lt (Nat.le_add_right _ _) fits
  have backFits : back < UInt32.size := Nat.lt_of_le_of_lt (Nat.le_add_left _ _) fits
  have alone : second.1 = (eeprom.readBytes (offset + UInt32.ofNat front) back).1 := by
    rw [readBytes_fst _ _ backFits, readBytes_fst _ _ backFits, fetch_readBytes, device_readBytes]
  rw [alone, toList_readBytes_eq_ok_iff fits, toList_readBytes_eq_ok_iff frontFits,
    toList_readBytes_eq_ok_iff backFits]
  exact ⟨I2c.ImageBus.fetch_add inRange, rfl⟩

/-- The last two of six bytes and none behind them, while the byte at the last 32-bit offset is
broken; and a back that begins with a broken byte, so that no read can be cut in front of it. -/
theorem readBytes_add_at_image_end :
    let bus : I2c.ImageBus :=
      { names := ["i2c0"]
        devices := [{ bus := "i2c0", address := 0x52, image := [1, 2, 3, 4, 5, 6] }]
        broken := some ⟨0xffffffff, .busError⟩ }
    let device : I2c.Device := { controller := 0, address := 0x52 }
    let eeprom : Eeprom I2c.ImageBus (Option FlushCount) := { bus, device, cache := none }
    let torn := { eeprom with bus := bus.breakByte 4 .busReset }
    2 + 0 < UInt32.size ∧ 2 + 1 < UInt32.size ∧ (4 : UInt32).toNat + 2 < UInt32.size ∧
      (eeprom.readBytes 4 (2 + 0)).1.map Vector.toList = .ok [5, 6] ∧
      ((eeprom.readBytes 4 2).2.readBytes (4 + UInt32.ofNat 2) 0).1.map Vector.toList = .ok [] ∧
      (torn.readBytes 2 2).1.map Vector.toList = .ok [3, 4] ∧
      ((torn.readBytes 2 2).2.readBytes (2 + UInt32.ofNat 2) 1).1.map Vector.toList ≠
        .ok [5] := by
  intro bus device eeprom torn
  have fits : 2 + 0 < UInt32.size := by decide
  have fitsTorn : 2 + 1 < UInt32.size := by decide
  have inRange : (4 : UInt32).toNat + 2 < UInt32.size := by decide
  have whole : (eeprom.readBytes 4 (2 + 0)).1.map Vector.toList = .ok [5, 6] := rfl
  have front : (torn.readBytes 2 2).1.map Vector.toList = .ok [3, 4] := rfl
  have fails : (torn.readBytes 2 (2 + 1)).1.map Vector.toList ≠ .ok [3, 4, 5] := nofun
  have parts := (readBytes_add eeprom 4 fits inRange [5, 6]).1.mp whole
  refine ⟨fits, fitsTorn, inRange, whole, parts.2, front, fun back => fails ?_⟩
  exact (readBytes_add torn 2 fitsTorn (by decide) [3, 4, 5]).1.mpr ⟨front, back⟩

end Eeprom

end BoardIdentity
