import BoardIdentity.Text.Escaped

/-!
# Text fields

A text field of a record has a fixed width and ends early at its first zero byte.
-/

namespace BoardIdentity.TextField

/-- The bytes in front of the first zero byte, or all of them if there is none. -/
def trim (bytes : List UInt8) : List UInt8 :=
  bytes.takeWhile (· != 0)

def text (bytes : List UInt8) : String :=
  String.ofList (Escaped.encode (trim bytes))

/-- A trimmed field holds no zero byte. -/
theorem ne_zero_of_mem_trim {bytes : List UInt8} {byte : UInt8} (member : byte ∈ trim bytes) :
    byte ≠ 0 := by
  have := List.all_takeWhile (p := fun b : UInt8 => b != 0) (l := bytes)
  simpa using List.all_eq_true.mp this byte member

end BoardIdentity.TextField
