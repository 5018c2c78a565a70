/-!
# Fixed-size records

A record stored in an EEPROM occupies a fixed number of bytes, and its fields sit at fixed offsets.
`slice` is the view of one field, and `Layout` says how a whole record is read from and written to
its bytes.  `Layout.ofList?` is the only way in from a byte string of unknown length: any other
length than the record's own is refused.
-/

namespace BoardIdentity

/-! ## Fields -/

/-- The `count` bytes that start at offset `start`. -/
def slice {n : Nat} (bytes : Vector UInt8 n) (start count : Nat)
    (inside : start + count ≤ n := by decide) : Vector UInt8 count :=
  (bytes.extract start (start + count)).cast (by omega)

/-- The field's bytes are the record's, `start` of them left out and the next `count` kept. -/
@[simp]
theorem toList_slice {n : Nat} (bytes : Vector UInt8 n) (start count : Nat)
    (inside : start + count ≤ n) :
    (slice bytes start count inside).toList = (bytes.toList.drop start).take count := by
  simp only [slice, ← Vector.toList_toArray, Vector.toArray_cast, Vector.toArray_extract,
    Array.toList_extract, List.extract_eq_take_drop]
  simp

/-- Byte `index` of a field is that many bytes behind the field's start. -/
theorem getElem_slice {n : Nat} (bytes : Vector UInt8 n) (start count : Nat)
    (inside : start + count ≤ n) (index : Nat) (within : index < count) :
    (slice bytes start count inside)[index] = bytes[start + index] := by
  simp [slice]

/-! ## Records -/

/-- How a value is stored in a fixed number of bytes, the same for every value. -/
class Layout (α : Type) where
  size : Nat
  ofBytes : Vector UInt8 size → α
  toBytes : α → Vector UInt8 size

/-- The value held by a byte string, which has to be exactly as long as the record. -/
def Layout.ofList? (α : Type) [Layout α] (bytes : List UInt8) : Option α :=
  if sized : bytes.length = Layout.size α then
    some (Layout.ofBytes ⟨bytes.toArray, by simpa using sized⟩)
  else
    none

/-- A byte string is accepted exactly when it has the record's length. -/
theorem Layout.isSome_ofList? {α : Type} [Layout α] (bytes : List UInt8) :
    (Layout.ofList? α bytes).isSome ↔ bytes.length = Layout.size α := by
  unfold Layout.ofList?
  split <;> simp_all

end BoardIdentity
