import BoardIdentity.Checksum.Crc32

/-!
# Bursts and the checksum

Two messages that differ only in one burst of at most four bytes have different checksums
(`AgreeOutside.eq_of_checksum_eq`).  The reason lies in a single step of the register: the bit that
leaves it comes back as the highest bit, so two registers that agree there after the step agreed in
the lowest bit before it.  `DifferWithin` carries this backwards: where registers may still differ
moves up by one bit with each step (`DifferWithin.of_shift`), and by eight with each byte.
-/

namespace BoardIdentity.Crc32

/-! ## Bits of a register -/

/-- Bit `i` of a register, counted from the lowest one. -/
def bit (register : UInt32) (i : Nat) : Bool :=
  register.toBitVec.getLsbD i

variable {one other : UInt32}

theorem eq_of_forall_bit (same : ∀ i, bit one i = bit other i) : one = other :=
  UInt32.toBitVec_inj.mp (BitVec.eq_of_getLsbD_eq fun i _ => same i)

theorem bit_eq_false_of_le (register : UInt32) {i : Nat} (beyond : 32 ≤ i) :
    bit register i = false :=
  BitVec.getLsbD_of_ge register.toBitVec i beyond

theorem bit_xor (i : Nat) : bit (one ^^^ other) i = (bit one i ^^ bit other i) := by
  simp [bit]

theorem bit_polynomial_top : bit polynomial 31 = true := by decide

/-- A byte fills the lowest eight bits. -/
theorem bit_byte (byte : UInt8) (i : Nat) : bit byte.toUInt32 i = byte.toBitVec.getLsbD i := by
  rw [bit, UInt8.toBitVec_toUInt32, BitVec.getLsbD_setWidth, Bool.and_eq_right_iff_imp]
  intro set
  have := BitVec.lt_of_getLsbD set
  exact decide_eq_true (by omega)

theorem bit_byte_eq_false_of_le (byte : UInt8) {i : Nat} (beyond : 8 ≤ i) :
    bit byte.toUInt32 i = false :=
  (bit_byte byte i).trans (BitVec.getLsbD_of_ge byte.toBitVec i beyond)

theorem and_one_eq_one_iff (register : UInt32) :
    register &&& 1 = 1 ↔ bit register 0 = true := by
  rw [← UInt32.toBitVec_inj, UInt32.toBitVec_and]
  show register.toBitVec &&& 1#32 = 1#32 ↔ _
  rw [BitVec.and_one_eq_setWidth_ofBool_getLsbD]
  show (BitVec.ofBool (bit register 0)).setWidth 32 = 1#32 ↔ _
  cases bit register 0 <;> decide

/-- A step moves every bit down by one and adds the polynomial if the lowest bit was set. -/
theorem bit_shift (register : UInt32) (i : Nat) :
    bit (shift register) i = (bit register (i + 1) ^^ (bit register 0 && bit polynomial i)) := by
  have moved : bit (register >>> 1) i = bit register (i + 1) := by
    simp [bit, Nat.add_comm]
  unfold shift
  cases low : bit register 0 with
  | true => rw [if_pos ((and_one_eq_one_iff register).mpr low), bit_xor, moved, Bool.true_and]
  | false =>
    rw [if_neg (by simp [and_one_eq_one_iff, low]), moved, Bool.false_and, Bool.xor_false]

/-- The bit that leaves the register comes back as its highest bit. -/
theorem bit_shift_top (register : UInt32) : bit (shift register) 31 = bit register 0 := by
  rw [bit_shift, bit_eq_false_of_le register (Nat.le_refl 32), bit_polynomial_top, Bool.and_true,
    Bool.false_xor]

/-! ## Where two registers may differ -/

/-- Two registers agree in all bits but those from `low` up to, and without, `high`. -/
def DifferWithin (low high : Nat) (one other : UInt32) : Prop :=
  ∀ i, i < low ∨ high ≤ i → bit one i = bit other i

namespace DifferWithin

variable {low high : Nat}

theorem of_eq (same : one = other) : DifferWithin 0 0 one other :=
  fun _ _ => same ▸ rfl

theorem eq (within : DifferWithin low low one other) : one = other :=
  eq_of_forall_bit fun i => within i (Nat.lt_or_ge i low)

theorem of_shift (within : DifferWithin low high (shift one) (shift other)) (inside : high < 32) :
    DifferWithin (low + 1) (high + 1) one other := by
  have lowest : bit one 0 = bit other 0 := by
    rw [← bit_shift_top, ← bit_shift_top]
    exact within 31 (Or.inr (Nat.le_of_lt_succ inside))
  intro i outside
  cases i with
  | zero => exact lowest
  | succ i =>
    have moved := within i (by omega)
    rw [bit_shift, bit_shift, lowest] at moved
    exact Bool.xor_left_inj.mp moved

theorem of_shifts (steps : Nat)
    (within : DifferWithin low high (shifts steps one) (shifts steps other))
    (inside : high + steps ≤ 32) : DifferWithin (low + steps) (high + steps) one other := by
  induction steps generalizing one other with
  | zero => exact within
  | succ steps ih => exact (ih within (by omega)).of_shift (by omega)

theorem of_feed {byte byte' : UInt8} (within : DifferWithin 0 high (feed one byte)
    (feed other byte')) (inside : high + 8 ≤ 32) :
    DifferWithin 8 (high + 8) (one ^^^ byte.toUInt32) (other ^^^ byte'.toUInt32) := by
  have before := of_shifts 8 within inside
  rwa [Nat.zero_add] at before

/-- What the last bytes, at most four of them, have made equal differed only in their place. -/
theorem of_run {bytes bytes' : List UInt8} (length : bytes.length = bytes'.length)
    (short : bytes.length ≤ 4) (same : run one bytes = run other bytes') :
    DifferWithin 0 (8 * bytes.length) one other := by
  induction bytes generalizing one other bytes' with
  | nil =>
    obtain rfl := List.eq_nil_of_length_eq_zero length.symm
    exact of_eq same
  | cons byte bytes ih =>
    obtain ⟨byte', bytes', rfl⟩ := List.exists_cons_of_length_eq_add_one length.symm
    rw [List.length_cons] at short
    have later := ih (Nat.succ.inj length) (by omega) same
    have before := of_feed later (by omega)
    rw [List.length_cons, Nat.mul_succ]
    intro i outside
    have above : 8 ≤ i := by omega
    simpa [bit_xor, bit_byte_eq_false_of_le _ above] using before i (Or.inr (by omega))

end DifferWithin

/-! ## Runs from one register -/

/-- Feeding one byte to different registers leaves different registers. -/
theorem eq_of_feed_eq {byte : UInt8} (same : feed one byte = feed other byte) : one = other :=
  (UInt32.xor_left_inj byte.toUInt32).mp
    (DifferWithin.of_feed (DifferWithin.of_eq same) (by decide)).eq

theorem eq_of_run_eq {bytes : List UInt8} (same : run one bytes = run other bytes) :
    one = other := by
  induction bytes generalizing one other with
  | nil => exact same
  | cons byte bytes ih => exact eq_of_feed_eq (ih same)

/-- At most four bytes are told by what they make of a register. -/
theorem burst_eq_of_run_eq {register : UInt32} {burst burst' : List UInt8}
    (length : burst.length = burst'.length) (short : burst.length ≤ 4)
    (same : run register burst = run register burst') : burst = burst' := by
  induction burst generalizing register burst' with
  | nil => exact (List.eq_nil_of_length_eq_zero length.symm).symm
  | cons byte burst ih =>
    obtain ⟨byte', burst', rfl⟩ := List.exists_cons_of_length_eq_add_one length.symm
    rw [List.length_cons] at short
    have later := Nat.succ.inj length
    -- After this byte the registers agree where it went in, so the byte is the same.
    have within := (DifferWithin.of_run later (by omega) same).of_feed (by omega)
    have first : byte = byte' := by
      refine UInt8.toBitVec_inj.mp (BitVec.eq_of_getLsbD_eq fun i inside => ?_)
      have agree := within i (Or.inl inside)
      rw [bit_xor, bit_xor, bit_byte, bit_byte] at agree
      exact Bool.xor_right_inj.mp agree
    subst first
    rw [ih later (by omega) same]

/-! ## Messages -/

/-- Two messages agree in all bytes but `count` of them from `start` on. -/
def AgreeOutside (start count : Nat) (one other : List UInt8) : Prop :=
  ∀ i, i < start ∨ start + count ≤ i → one[i]? = other[i]?

namespace AgreeOutside

variable {start count : Nat} {one other : List UInt8}

theorem take (agree : AgreeOutside start count one other) (length : Nat) :
    AgreeOutside start count (one.take length) (other.take length) := by
  intro i outside
  rw [List.getElem?_take, List.getElem?_take, agree i outside]

theorem front_eq (agree : AgreeOutside start count one other) :
    one.take start = other.take start := by
  refine List.ext_getElem? fun i => ?_
  rw [List.getElem?_take, List.getElem?_take]
  split
  case isTrue before => exact agree i (Or.inl before)
  case isFalse => rfl

theorem back_eq (agree : AgreeOutside start count one other) :
    one.drop (start + count) = other.drop (start + count) := by
  refine List.ext_getElem? fun i => ?_
  rw [List.getElem?_drop, List.getElem?_drop]
  exact agree _ (Or.inr (Nat.le_add_right _ i))

theorem of_eq (front : one.take start = other.take start)
    (back : one.drop (start + count) = other.drop (start + count)) :
    AgreeOutside start count one other := by
  intro i outside
  rcases outside with before | behind
  · rw [← List.getElem?_take_of_lt before, front, List.getElem?_take_of_lt before]
  · have place : start + count + (i - (start + count)) = i := by omega
    rw [← place, ← List.getElem?_drop, back, List.getElem?_drop]

instance (start count : Nat) (one other : List UInt8) :
    Decidable (AgreeOutside start count one other) :=
  decidable_of_iff (one.take start = other.take start ∧
      one.drop (start + count) = other.drop (start + count))
    ⟨fun same => of_eq same.1 same.2, fun agree => ⟨agree.front_eq, agree.back_eq⟩⟩

theorem split (message : List UInt8) (start count : Nat) :
    message =
      message.take start ++ (message.drop start).take count ++ message.drop (start + count) := by
  rw [List.append_assoc, ← List.drop_drop, List.take_append_drop, List.take_append_drop]

/-- Messages with one checksum that differ at most in a burst of four bytes are the same. -/
theorem eq_of_checksum_eq (agree : AgreeOutside start count one other)
    (length : one.length = other.length) (short : count ≤ 4)
    (same : checksum one = checksum other) : one = other := by
  have runs := (UInt32.xor_left_inj _).mp same
  rw [split one start count, split other start count, agree.front_eq, agree.back_eq] at runs ⊢
  simp only [run_append] at runs
  have burst := burst_eq_of_run_eq (by simp [length])
    (Nat.le_trans (List.length_take_le _ _) short) (eq_of_run_eq runs)
  rw [burst]

end AgreeOutside

end BoardIdentity.Crc32
