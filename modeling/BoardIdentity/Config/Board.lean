import BoardIdentity.Toml.Value

/-!
# Board configuration

A board states which buses its two EEPROMs hang off, their addresses, and what holds for a module
that tells nothing of itself.  A configuration document overlays the defaults: the table
`var-eeprom` may set any of the six fields and nothing else, while all other top-level keys belong
to somebody else and are not looked at.
-/

namespace BoardIdentity

/-! ## Fields -/

/-- A board's configuration.  The field values are the defaults; the memory size is assumed for a
module that is not trusted, and the prefix precedes a part number that is shown. -/
structure BoardConfig where
  somBus : String := "i2c@44350000"
  somAddress : UInt8 := 0x52
  carrierBus : String := "i2c@42530000"
  carrierAddress : UInt8 := 0x54
  defaultDramMib : UInt32 := 2048
  partPrefix : String := "VSM-MX93-"
  deriving DecidableEq, Repr

namespace BoardConfig

/-- Memory size assumed for a module that is not trusted, in bytes. -/
def defaultDramSize (config : BoardConfig) : Nat :=
  config.defaultDramMib.toNat <<< 20

/-! ## Values -/

def text? : Toml.Value → Option String
  | .string text => some text
  | _ => none

/-- The number of an integer from zero to below a bound. -/
def natBelow? (bound : Nat) : Toml.Value → Option Nat
  | .integer n => if 0 ≤ n ∧ n < bound then some n.toNat else none
  | _ => none

def address? (value : Toml.Value) : Option UInt8 :=
  (natBelow? UInt8.size value).map UInt8.ofNat

def size? (value : Toml.Value) : Option UInt32 :=
  (natBelow? UInt32.size value).map UInt32.ofNat

/-! ## Overlay -/

/-- The keys of the fields, in the order in which a list of values sets them. -/
def keys : List String :=
  ["som-bus", "som-address", "carrier-bus", "carrier-address", "default-dram-size-mib",
    "part-prefix"]

/-- The configuration with one field set.  The key must be a field's and the value of its kind and
in its range. -/
def set? (config : BoardConfig) (key : String) (value : Toml.Value) : Option BoardConfig :=
  match key with
  | "som-bus" => (text? value).map ({ config with somBus := · })
  | "som-address" => (address? value).map ({ config with somAddress := · })
  | "carrier-bus" => (text? value).map ({ config with carrierBus := · })
  | "carrier-address" => (address? value).map ({ config with carrierAddress := · })
  | "default-dram-size-mib" => (size? value).map ({ config with defaultDramMib := · })
  | "part-prefix" => (text? value).map ({ config with partPrefix := · })
  | _ => none

def setAll? (config : BoardConfig) (entries : Toml.Entries) : Option BoardConfig :=
  entries.foldlM (fun config (key, value) => config.set? key value) config

/-- The defaults overlaid by a value.  A table sets fields by key; an array sets the first fields in
order, and what it holds beyond the last field is not looked at. -/
def ofValue? : Toml.Value → Option BoardConfig
  | .table _ entries => setAll? {} entries
  | .array _ items => setAll? {} (keys.zip items)
  | _ => none

def sectionKey : String := "var-eeprom"

/-- The configuration that a document states.  Without the section it is the default one. -/
def ofDocument? (document : Toml.Entries) : Option BoardConfig :=
  match document.lookup sectionKey with
  | none => some {}
  | some value => ofValue? value

end BoardConfig

end BoardIdentity
