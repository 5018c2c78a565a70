/-!
# CRC-32

The cyclic redundancy check with the reflected polynomial `0xedb88320`, whose register starts with
all bits set and is inverted at the end.  A byte enters the register by exclusive or into its low
bits, followed by eight single-bit steps.
-/

namespace BoardIdentity.Crc32

/-- The polynomial, lowest power in the highest bit. -/
def polynomial : UInt32 := 0xedb88320

/-- One step of the register: the bit that leaves it decides whether the polynomial is added. -/
def shift (register : UInt32) : UInt32 :=
  if register &&& 1 = 1 then (register >>> 1) ^^^ polynomial else register >>> 1

/-- The register after a number of steps. -/
def shifts : (steps : Nat) → (register : UInt32) → UInt32
  | 0, register => register
  | steps + 1, register => shifts steps (shift register)

def feed (register : UInt32) (byte : UInt8) : UInt32 :=
  shifts 8 (register ^^^ byte.toUInt32)

/-- The register after the bytes of a message, from a given register on. -/
def run (register : UInt32) (bytes : List UInt8) : UInt32 :=
  bytes.foldl feed register

def checksum (bytes : List UInt8) : UInt32 :=
  run 0xffffffff bytes ^^^ 0xffffffff

@[simp]
theorem run_append (register : UInt32) (front back : List UInt8) :
    run register (front ++ back) = run (run register front) back :=
  List.foldl_append

/-- The check value of the digits one to nine. -/
example : checksum [0x31, 0x32, 0x33, 0x34, 0x35, 0x36, 0x37, 0x38, 0x39] = 0xcbf43926 := by
  decide +kernel

end BoardIdentity.Crc32
