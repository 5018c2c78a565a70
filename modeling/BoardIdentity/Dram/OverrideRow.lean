import BoardIdentity.Bytes.Endian
import BoardIdentity.Bytes.Layout
import BoardIdentity.Dram.Timing

/-!
# Override rows

An override is stored as two words, the register and its value, each lowest byte first.  Row and
setting determine each other (`setting_ofSetting`, `ofSetting_setting`).
-/

namespace BoardIdentity.Dram

/-- An override as it is stored: the bytes of its register and of its value. -/
structure OverrideRow where
  register : Vector UInt8 4
  value : Vector UInt8 4
  deriving DecidableEq, Repr

namespace OverrideRow

def width : Nat := 8

instance : Layout OverrideRow where
  size := width
  ofBytes bytes := { register := slice bytes 0 4, value := slice bytes 4 4 }
  toBytes row := row.register ++ row.value

/-- The setting that the row asks for. -/
def setting (row : OverrideRow) : Setting where
  register := Endian.little32 row.register
  value := Endian.little32 row.value

/-- The row that asks for a setting. -/
def ofSetting (setting : Setting) : OverrideRow where
  register := Endian.little32Bytes setting.register
  value := Endian.little32Bytes setting.value

@[simp]
theorem setting_ofSetting (setting : Setting) : (ofSetting setting).setting = setting := by
  simp [OverrideRow.setting, ofSetting]

@[simp]
theorem ofSetting_setting (row : OverrideRow) : ofSetting row.setting = row := by
  simp [setting, ofSetting]

end OverrideRow

end BoardIdentity.Dram
