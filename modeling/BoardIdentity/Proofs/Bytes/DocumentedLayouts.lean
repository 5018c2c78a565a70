import BoardIdentity.Proofs.Bytes.FieldTables

/-!
# The documented layouts

The tables of the three records that are stored in EEPROMs, each field at its documented offset and
in its documented byte order, and the proof that the records are decoded and encoded by them
(`layouts_faithful`).
-/

namespace BoardIdentity

open Layout

/-! ## The module record -/

/-- The fields of a module record. -/
def Som.Record.fields : List (Layout.Field Som.Record) :=
  [.little 0 2 (·.magic.toNat), .array 2 (·.partNumber), .array 5 (·.assembly), .array 15 (·.date),
    .array 24 (·.mac), .byte 30 (·.revision), .byte 31 (·.version), .byte 32 (·.features),
    .byte 33 (·.memoryUnits), .array 34 (·.tableOffsets), .array 40 (·.partNumberTail),
    .little 45 2 (·.dataRate.toNat)]

theorem Som.Record.describes : Describes Som.Record.fields where
  tiled := by
    simp only [fields, Tiles]
    decide
  holds := by
    simp only [fields, List.forall_mem_cons]
    exact ⟨fun _ => holds_little16 (by decide) rfl,
      fun _ => holds_array (by decide) rfl,
      fun _ => holds_array (by decide) rfl,
      fun _ => holds_array (by decide) rfl,
      fun _ => holds_array (by decide) rfl,
      fun _ => holds_byte (by decide) rfl,
      fun _ => holds_byte (by decide) rfl,
      fun _ => holds_byte (by decide) rfl,
      fun _ => holds_byte (by decide) rfl,
      fun _ => holds_array (by decide) rfl,
      fun _ => holds_array (by decide) rfl,
      fun _ => holds_little16 (by decide) rfl,
      nofun⟩
  ofBytes_toBytes := ofBytes_toBytes

/-! ## The carrier record -/

/-- The fields of a carrier record. -/
def Carrier.Record.fields : List (Layout.Field Carrier.Record) :=
  [.big 0 2 (·.magic.toNat), .byte 2 (·.version), .array 3 (·.revision), .big 19 4 (·.crc.toNat)]

theorem Carrier.Record.describes : Describes Carrier.Record.fields where
  tiled := by
    simp only [fields, Tiles]
    decide
  holds := by
    simp only [fields, List.forall_mem_cons]
    exact ⟨fun _ => holds_big16 (by decide) rfl,
      fun _ => holds_byte (by decide) rfl,
      fun _ => holds_array (by decide) rfl,
      fun _ => holds_big32 (by decide) rfl,
      nofun⟩
  ofBytes_toBytes := ofBytes_toBytes

/-! ## Rows of overrides -/

/-- The fields of a row of overrides. -/
def Dram.OverrideRow.fields : List (Layout.Field Dram.OverrideRow) :=
  [.little 0 4 (·.setting.register.toNat), .little 4 4 (·.setting.value.toNat)]

theorem Dram.OverrideRow.describes : Describes Dram.OverrideRow.fields where
  tiled := by
    simp only [fields, Tiles]
    decide
  holds := by
    simp only [fields, List.forall_mem_cons]
    exact ⟨fun _ => holds_little32 (by decide) rfl,
      fun _ => holds_little32 (by decide) rfl,
      nofun⟩
  ofBytes_toBytes := ofBytes_toBytes

/-! ## All records -/

/-- **Records and their bytes determine each other.**  A module record has 47 bytes, a carrier
record 23 and a row of overrides 8, and byte strings of these lengths and no others are records.
Decoding and encoding undo each other; each field is decoded from and encoded in the bytes that its
table documents, in the byte order that it documents; records with equal fields have equal bytes,
and records that differ in one field differ in that field's bytes only.  Rows and settings determine
each other as well. -/
theorem layouts_faithful :
    (Layout.size Som.Record = 47 ∧ Faithful Som.Record Som.Record.fields) ∧
      (Layout.size Carrier.Record = 23 ∧ Faithful Carrier.Record Carrier.Record.fields) ∧
      (Layout.size Dram.OverrideRow = 8 ∧ Faithful Dram.OverrideRow Dram.OverrideRow.fields) ∧
      (∀ setting, (Dram.OverrideRow.ofSetting setting).setting = setting) ∧
      ∀ row : Dram.OverrideRow, Dram.OverrideRow.ofSetting row.setting = row :=
  ⟨⟨rfl, Som.Record.describes.faithful⟩, ⟨rfl, Carrier.Record.describes.faithful⟩,
    ⟨rfl, Dram.OverrideRow.describes.faithful⟩, Dram.OverrideRow.setting_ofSetting,
    Dram.OverrideRow.ofSetting_setting⟩

end BoardIdentity
