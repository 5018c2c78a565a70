/-!
# Numbers in bytes

Multi-byte numbers are read and written through one view: the value of a list of base-256 digits,
lowest first.  Big-endian fields are the same digits in reverse.  The main facts are that digits and
value determine each other (`littleEndian_digits`, `digits_littleEndian`), so every fixed-width
reader below is undone by its writer and the other way round.
-/

namespace BoardIdentity.Endian

/-! ## Digits and value -/

/-- The number whose base-256 digits, lowest first, are `bytes`. -/
def littleEndian : List UInt8 → Nat
  | [] => 0
  | digit :: rest => digit.toNat + 256 * littleEndian rest

/-- The lowest `count` base-256 digits of `n`, lowest first. -/
def digits : (count n : Nat) → List UInt8
  | 0, _ => []
  | count + 1, n => UInt8.ofNat n :: digits count (n / 256)

/-- How many numbers there are of `count` base-256 digits. -/
def capacity : (count : Nat) → Nat
  | 0 => 1
  | count + 1 => 256 * capacity count

@[simp]
theorem length_digits (count n : Nat) : (digits count n).length = count := by
  induction count generalizing n with
  | zero => rfl
  | succ count ih => simp [digits, ih]

/-- A list of digits denotes one of the numbers that have so many digits. -/
theorem littleEndian_lt (bytes : List UInt8) : littleEndian bytes < capacity bytes.length := by
  induction bytes with
  | nil => exact Nat.zero_lt_one
  | cons digit rest ih =>
    have := digit.toNat_lt
    simp only [littleEndian, List.length_cons, capacity]
    omega

/-- Writing the digits of a number that they denote gives them back. -/
theorem digits_littleEndian (bytes : List UInt8) :
    digits bytes.length (littleEndian bytes) = bytes := by
  induction bytes with
  | nil => rfl
  | cons digit rest ih =>
    have := digit.toNat_lt
    have low : UInt8.ofNat (digit.toNat + 256 * littleEndian rest) = digit := by
      apply UInt8.toNat_inj.mp
      simp only [UInt8.toNat_ofNat']
      omega
    have high : (digit.toNat + 256 * littleEndian rest) / 256 = littleEndian rest := by omega
    simp [digits, littleEndian, low, high, ih]

/-- The lowest digits of a number denote its remainder by the capacity of their count. -/
theorem littleEndian_digits (count n : Nat) :
    littleEndian (digits count n) = n % capacity count := by
  induction count generalizing n with
  | zero => exact (Nat.mod_one n).symm
  | succ count ih =>
    rw [digits, littleEndian, ih, capacity, Nat.mod_mul, UInt8.toNat_ofNat']

/-! ## Sixteen and thirty-two bits -/

/-- A 16-bit number stored lowest byte first. -/
def little16 (bytes : Vector UInt8 2) : UInt16 :=
  UInt16.ofNat (littleEndian bytes.toList)

def little16Bytes (n : UInt16) : Vector UInt8 2 :=
  ⟨(digits 2 n.toNat).toArray, by simp⟩

/-- A 32-bit number stored lowest byte first. -/
def little32 (bytes : Vector UInt8 4) : UInt32 :=
  UInt32.ofNat (littleEndian bytes.toList)

def little32Bytes (n : UInt32) : Vector UInt8 4 :=
  ⟨(digits 4 n.toNat).toArray, by simp⟩

/-- A 16-bit number stored highest byte first. -/
def big16 (bytes : Vector UInt8 2) : UInt16 :=
  little16 bytes.reverse

def big16Bytes (n : UInt16) : Vector UInt8 2 :=
  (little16Bytes n).reverse

/-- A 32-bit number stored highest byte first. -/
def big32 (bytes : Vector UInt8 4) : UInt32 :=
  little32 bytes.reverse

def big32Bytes (n : UInt32) : Vector UInt8 4 :=
  (little32Bytes n).reverse

@[simp]
theorem little16_little16Bytes (n : UInt16) : little16 (little16Bytes n) = n := by
  have := n.toNat_lt
  apply UInt16.toNat_inj.mp
  simp [little16, little16Bytes, littleEndian_digits, capacity]

@[simp]
theorem little16Bytes_little16 (bytes : Vector UInt8 2) :
    little16Bytes (little16 bytes) = bytes := by
  have bound := littleEndian_lt bytes.toList
  simp only [Vector.length_toList, capacity] at bound
  have back := digits_littleEndian bytes.toList
  rw [Vector.length_toList] at back
  apply Vector.toList_inj.mp
  show digits 2 (UInt16.ofNat (littleEndian bytes.toList)).toNat = bytes.toList
  rw [UInt16.toNat_ofNat', Nat.mod_eq_of_lt (by omega), back]

@[simp]
theorem little32_little32Bytes (n : UInt32) : little32 (little32Bytes n) = n := by
  have := n.toNat_lt
  apply UInt32.toNat_inj.mp
  simp [little32, little32Bytes, littleEndian_digits, capacity]

@[simp]
theorem little32Bytes_little32 (bytes : Vector UInt8 4) :
    little32Bytes (little32 bytes) = bytes := by
  have bound := littleEndian_lt bytes.toList
  simp only [Vector.length_toList, capacity] at bound
  have back := digits_littleEndian bytes.toList
  rw [Vector.length_toList] at back
  apply Vector.toList_inj.mp
  show digits 4 (UInt32.ofNat (littleEndian bytes.toList)).toNat = bytes.toList
  rw [UInt32.toNat_ofNat', Nat.mod_eq_of_lt (by omega), back]

@[simp]
theorem big16_big16Bytes (n : UInt16) : big16 (big16Bytes n) = n := by
  simp [big16, big16Bytes]

@[simp]
theorem big16Bytes_big16 (bytes : Vector UInt8 2) : big16Bytes (big16 bytes) = bytes := by
  simp [big16, big16Bytes]

@[simp]
theorem big32_big32Bytes (n : UInt32) : big32 (big32Bytes n) = n := by
  simp [big32, big32Bytes]

@[simp]
theorem big32Bytes_big32 (bytes : Vector UInt8 4) : big32Bytes (big32 bytes) = bytes := by
  simp [big32, big32Bytes]

end BoardIdentity.Endian
