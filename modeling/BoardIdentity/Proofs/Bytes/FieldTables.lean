import BoardIdentity.Proofs.Bytes.RecordLayouts

/-!
# Tables of fields

A layout is documented by a table: where each field starts, how wide it is, and how its bytes stand
for its value.  `Layout.Describes` says that a table is right about the decoder of a record.  If it
is, and if encoded records are decoded to themselves, then the fields alone fix the bytes, and a
field has no say about the bytes of another (`Describes.faithful`).
-/

namespace BoardIdentity

/-! ## Numbers -/

namespace Endian

theorem littleEndian_injective {bytes other : List UInt8} (length : bytes.length = other.length)
    (same : littleEndian bytes = littleEndian other) : bytes = other := by
  rw [← digits_littleEndian bytes, ← digits_littleEndian other, length, same]

theorem bigEndian_injective {bytes other : List UInt8} (length : bytes.length = other.length)
    (same : bigEndian bytes = bigEndian other) : bytes = other := by
  rw [← littleEndian_reverse, ← littleEndian_reverse] at same
  exact List.reverse_inj.mp (littleEndian_injective (by simpa using length) same)

end Endian

namespace Layout

/-! ## Fields -/

/-- A field of a record as its documentation has it.  `Holds` says which bytes stand for a value; of
the field's width there is only one such byte string. -/
structure Field (α : Type) where
  start : Nat
  width : Nat
  Value : Type
  get : α → Value
  Holds : List UInt8 → Value → Prop
  exact : ∀ {value bytes other}, bytes.length = width → other.length = width →
    Holds bytes value → Holds other value → bytes = other

namespace Field

variable {α : Type}

/-- The bytes of the field. -/
def part (field : Field α) (bytes : List UInt8) : List UInt8 :=
  (bytes.drop field.start).take field.width

/-- The offset belongs to the field. -/
def Covers (field : Field α) (index : Nat) : Prop :=
  field.start ≤ index ∧ index < field.start + field.width

/-- Bytes that stand for themselves. -/
def array (start : Nat) {width : Nat} (get : α → Vector UInt8 width) : Field α where
  start
  width
  Value := Vector UInt8 width
  get
  Holds bytes value := bytes = value.toList
  exact _ _ one two := one.trans two.symm

/-- A single byte. -/
def byte (start : Nat) (get : α → UInt8) : Field α where
  start
  width := 1
  Value := UInt8
  get
  Holds bytes value := bytes = [value]
  exact _ _ one two := one.trans two.symm

/-- A number, lowest byte first. -/
def little (start width : Nat) (get : α → Nat) : Field α where
  start
  width
  Value := Nat
  get
  Holds bytes value := Endian.littleEndian bytes = value
  exact length other one two :=
    Endian.littleEndian_injective (length.trans other.symm) (one.trans two.symm)

/-- A number, highest byte first. -/
def big (start width : Nat) (get : α → Nat) : Field α where
  start
  width
  Value := Nat
  get
  Holds bytes value := Endian.bigEndian bytes = value
  exact length other one two :=
    Endian.bigEndian_injective (length.trans other.symm) (one.trans two.symm)

end Field

/-! ## Tables -/

variable {α : Type}

/-- The fields lie one behind the other, from one offset to another. -/
def Tiles (start : Nat) : List (Field α) → Nat → Prop
  | [], stop => start = stop
  | field :: fields, stop => field.start = start ∧ Tiles (start + field.width) fields stop

theorem Tiles.le {start stop : Nat} {fields : List (Field α)} (tiled : Tiles start fields stop) :
    start ≤ stop := by
  induction fields generalizing start with
  | nil => exact Nat.le_of_eq tiled
  | cons field fields ih => exact Nat.le_trans (Nat.le_add_right _ _) (ih tiled.2)

/-- No field leaves the record. -/
theorem Tiles.field_end_le {start stop : Nat} {fields : List (Field α)}
    (tiled : Tiles start fields stop) {field : Field α} (member : field ∈ fields) :
    field.start + field.width ≤ stop := by
  induction fields generalizing start with
  | nil => cases member
  | cons first fields ih =>
    obtain ⟨here, behind⟩ := tiled
    rcases List.mem_cons.mp member with rfl | member
    · rw [here]
      exact behind.le
    · exact ih behind member

/-- Every byte of the record belongs to a field. -/
theorem Tiles.exists_covers {start stop : Nat} {fields : List (Field α)}
    (tiled : Tiles start fields stop) {index : Nat} (above : start ≤ index) (below : index < stop) :
    ∃ i : Fin fields.length, (fields.get i).Covers index := by
  induction fields generalizing start with
  | nil => exact absurd below (Nat.not_lt.mpr (tiled ▸ above))
  | cons field fields ih =>
    obtain ⟨here, behind⟩ := tiled
    rcases Nat.lt_or_ge index (start + field.width) with inside | beyond
    · exact ⟨⟨0, Nat.succ_pos _⟩, here ▸ above, here ▸ inside⟩
    · obtain ⟨i, covers⟩ := ih behind beyond
      exact ⟨i.succ, covers⟩

variable [Layout α]

/-! ## What a decoder reads -/

section Reads

variable {bytes : Vector UInt8 (size α)} {start : Nat}

theorem holds_array {width : Nat} {get : α → Vector UInt8 width} (inside : start + width ≤ size α)
    (same : get (ofBytes bytes) = slice bytes start width inside) :
    (Field.array start get).Holds ((Field.array start get).part bytes.toList)
      (get (ofBytes bytes)) := by
  rw [same]
  exact (toList_slice bytes start width inside).symm

theorem holds_byte {get : α → UInt8} (inside : start < size α)
    (same : get (ofBytes bytes) = bytes[start]) :
    (Field.byte start get).Holds ((Field.byte start get).part bytes.toList)
      (get (ofBytes bytes)) := by
  rw [same]
  show (bytes.toList.drop start).take 1 = [bytes[start]]
  rw [List.drop_eq_getElem_cons (by simpa using inside), List.take_succ_cons, List.take_zero,
    Vector.getElem_toList]

variable {get : α → Nat}

theorem holds_little16 (inside : start + 2 ≤ size α)
    (same : get (ofBytes bytes) = (Endian.little16 (slice bytes start 2 inside)).toNat) :
    (Field.little start 2 get).Holds ((Field.little start 2 get).part bytes.toList)
      (get (ofBytes bytes)) := by
  rw [same, Endian.toNat_little16, toList_slice]
  rfl

theorem holds_little32 (inside : start + 4 ≤ size α)
    (same : get (ofBytes bytes) = (Endian.little32 (slice bytes start 4 inside)).toNat) :
    (Field.little start 4 get).Holds ((Field.little start 4 get).part bytes.toList)
      (get (ofBytes bytes)) := by
  rw [same, Endian.toNat_little32, toList_slice]
  rfl

theorem holds_big16 (inside : start + 2 ≤ size α)
    (same : get (ofBytes bytes) = (Endian.big16 (slice bytes start 2 inside)).toNat) :
    (Field.big start 2 get).Holds ((Field.big start 2 get).part bytes.toList)
      (get (ofBytes bytes)) := by
  rw [same, Endian.toNat_big16, toList_slice]
  rfl

theorem holds_big32 (inside : start + 4 ≤ size α)
    (same : get (ofBytes bytes) = (Endian.big32 (slice bytes start 4 inside)).toNat) :
    (Field.big start 4 get).Holds ((Field.big start 4 get).part bytes.toList)
      (get (ofBytes bytes)) := by
  rw [same, Endian.toNat_big32, toList_slice]
  rfl

end Reads

/-! ## Described layouts -/

/-- A record has no bytes beyond its size. -/
theorem getElem?_toList_of_size_le (bytes : Vector UInt8 (size α)) {index : Nat}
    (beyond : size α ≤ index) : bytes.toList[index]? = none :=
  List.getElem?_eq_none (Nat.le_trans (Nat.le_of_eq Vector.length_toList) beyond)

/-- The table is right about the decoder, and encoding loses nothing. -/
structure Describes (fields : List (Field α)) : Prop where
  tiled : Tiles 0 fields (size α)
  holds : ∀ field ∈ fields, ∀ bytes : Vector UInt8 (size α),
    field.Holds (field.part bytes.toList) (field.get (ofBytes bytes))
  ofBytes_toBytes : ∀ value : α, ofBytes (toBytes value) = value

/-- The layout of a record is the one that a table documents. -/
structure Faithful (α : Type) [Layout α] (fields : List (Field α)) : Prop where
  /-- The fields follow one another from the first byte to the last. -/
  tiled : Tiles 0 fields (size α)
  /-- Each field is decoded from its own bytes. -/
  decoded : ∀ field ∈ fields, ∀ bytes : Vector UInt8 (size α),
    field.Holds (field.part bytes.toList) (field.get (ofBytes bytes))
  /-- Each field is encoded in its own bytes. -/
  encoded : ∀ field ∈ fields, ∀ value : α,
    field.Holds (field.part (toBytes value).toList) (field.get value)
  decode_encode : ∀ value : α, ofBytes (toBytes value) = value
  encode_decode : ∀ bytes : Vector UInt8 (size α), toBytes (ofBytes bytes : α) = bytes
  /-- A byte string is a record exactly if it is that record's encoding. -/
  ofList?_eq_some_iff : ∀ (bytes : List UInt8) (value : α),
    ofList? α bytes = some value ↔ bytes = (toBytes value).toList
  /-- Byte strings of any other length are refused. -/
  isSome_ofList?_iff : ∀ bytes : List UInt8, (ofList? α bytes).isSome ↔ bytes.length = size α
  /-- Records with equal fields have equal bytes. -/
  eq_of_fields_eq : ∀ bytes other : Vector UInt8 (size α),
    (∀ field ∈ fields, field.get (ofBytes bytes) = field.get (ofBytes other)) → bytes = other
  /-- Records that differ in one field differ in that field's bytes only. -/
  agree_outside : ∀ (i : Fin fields.length) (value other : α),
    (∀ j, j ≠ i → (fields.get j).get value = (fields.get j).get other) →
    ∀ index, ¬ (fields.get i).Covers index →
      (toBytes value).toList[index]? = (toBytes other).toList[index]?

namespace Describes

variable {fields : List (Field α)}

/-- Records of which a field is equal have equal bytes in that field. -/
theorem getElem?_eq_of_get_eq (describes : Describes fields) {field : Field α}
    (member : field ∈ fields) {bytes other : Vector UInt8 (size α)}
    (same : field.get (ofBytes bytes) = field.get (ofBytes other)) {index : Nat}
    (covers : field.Covers index) : bytes.toList[index]? = other.toList[index]? := by
  have inside := describes.tiled.field_end_le member
  have wide (bytes : Vector UInt8 (size α)) : (field.part bytes.toList).length = field.width := by
    rw [Field.part, List.length_take_of_le]
    rw [List.length_drop, Vector.length_toList]
    omega
  have parts : field.part bytes.toList = field.part other.toList :=
    field.exact (wide bytes) (wide other) (describes.holds field member bytes)
      (same ▸ describes.holds field member other)
  have found := congrArg (·[index - field.start]?) parts
  obtain ⟨above, below⟩ := covers
  simpa only [Field.part, List.getElem?_take, List.getElem?_drop,
    if_pos (Nat.sub_lt_left_of_lt_add above below), Nat.add_sub_of_le above] using found

theorem eq_of_fields_eq (describes : Describes fields) {bytes other : Vector UInt8 (size α)}
    (same : ∀ field ∈ fields, field.get (ofBytes bytes) = field.get (ofBytes other)) :
    bytes = other := by
  refine Vector.toList_inj.mp (List.ext_getElem? fun index => ?_)
  rcases Nat.lt_or_ge index (size α) with within | beyond
  · obtain ⟨i, covers⟩ := describes.tiled.exists_covers (Nat.zero_le index) within
    have member := List.get_mem fields i
    exact describes.getElem?_eq_of_get_eq member (same _ member) covers
  · rw [getElem?_toList_of_size_le _ beyond, getElem?_toList_of_size_le _ beyond]

theorem toBytes_ofBytes (describes : Describes fields) (bytes : Vector UInt8 (size α)) :
    toBytes (ofBytes bytes : α) = bytes :=
  describes.eq_of_fields_eq fun field _ =>
    congrArg field.get (describes.ofBytes_toBytes (ofBytes bytes))

theorem ofList?_eq_some_iff (describes : Describes fields) (bytes : List UInt8) (value : α) :
    ofList? α bytes = some value ↔ bytes = (toBytes value).toList := by
  unfold ofList?
  split
  case isTrue sized =>
    rw [Option.some.injEq]
    constructor
    · rintro rfl
      rw [describes.toBytes_ofBytes]
      rfl
    · rintro rfl
      exact describes.ofBytes_toBytes value
  case isFalse unsized =>
    refine iff_of_false nofun ?_
    rintro rfl
    exact unsized Vector.length_toList

/-- Records that are equal in all fields but one have equal bytes outside that field. -/
theorem getElem?_toBytes_eq (describes : Describes fields) {i : Fin fields.length}
    {value other : α} (same : ∀ j, j ≠ i → (fields.get j).get value = (fields.get j).get other)
    {index : Nat} (outside : ¬ (fields.get i).Covers index) :
    (toBytes value).toList[index]? = (toBytes other).toList[index]? := by
  rcases Nat.lt_or_ge index (size α) with within | beyond
  · obtain ⟨j, covers⟩ := describes.tiled.exists_covers (Nat.zero_le index) within
    have another : j ≠ i := fun equal => outside (equal ▸ covers)
    refine describes.getElem?_eq_of_get_eq (List.get_mem fields j) ?_ covers
    rw [describes.ofBytes_toBytes, describes.ofBytes_toBytes, same j another]
  · rw [getElem?_toList_of_size_le _ beyond, getElem?_toList_of_size_le _ beyond]

/-- A described layout is the one that the table documents. -/
theorem faithful (describes : Describes fields) : Faithful α fields where
  tiled := describes.tiled
  decoded := describes.holds
  encoded field member value := by
    have holds := describes.holds field member (toBytes value)
    rwa [describes.ofBytes_toBytes] at holds
  decode_encode := describes.ofBytes_toBytes
  encode_decode := describes.toBytes_ofBytes
  ofList?_eq_some_iff := describes.ofList?_eq_some_iff
  isSome_ofList?_iff := isSome_ofList?
  eq_of_fields_eq _ _ := describes.eq_of_fields_eq
  agree_outside _ _ _ same _ outside := describes.getElem?_toBytes_eq same outside

end Describes

end Layout

end BoardIdentity
