import BoardIdentity.Config.Environment
import BoardIdentity.Text.Hex
import BoardIdentity.Text.Quoted

/-!
# The generated configuration

The configuration is handed to the firmware as generated source text: a constant with one field a
line.  Strings are quoted, addresses have two hexadecimal digits, and the memory size is a shift of
its MiB.

`Environment.generate` says what a build step comes to, and `Environment.build` what it does to the
files on the way.
-/

namespace BoardIdentity

/-! ## Text -/

def fieldLine (name value : String) : String :=
  "    " ++ name ++ ": " ++ value ++ ",\n"

/-- An address with both of its digits. -/
def addressLiteral (address : UInt8) : String :=
  "0x" ++ String.ofList (Hex.twoDigits address)

def BoardConfig.generatedText (config : BoardConfig) : String :=
  "/// Board configuration, generated from the app config.\n" ++
    "pub const BOARD_CONFIG: EepromConfig = EepromConfig \x7b\n" ++
    fieldLine "som_bus" (Quoted.quote config.somBus) ++
    fieldLine "som_address" (addressLiteral config.somAddress) ++
    fieldLine "carrier_bus" (Quoted.quote config.carrierBus) ++
    fieldLine "carrier_address" (addressLiteral config.carrierAddress) ++
    fieldLine "default_dram_size" (toString config.defaultDramMib.toNat ++ " << 20") ++
    fieldLine "part_prefix" (Quoted.quote config.partPrefix) ++
    "\x7d;\n"

/-! ## The build step -/

structure GeneratedFile where
  path : String
  text : String
  deriving DecidableEq, Repr

def generatedName : String := "eeprom_config.rs"

variable (parse : Toml.Parser)

/-- Reads the configuration, refuses a memory size of zero, and generates the constant.  Nothing is
written unless all of it succeeds. -/
def Environment.generate (environment : Environment) : Printed GeneratedFile :=
  let read := environment.configOrDefaults parse
  { output := read.output
    result := do
      let config ← read.result
      if config.defaultDramMib = 0 then .error .zeroDramSize
      let path ← environment.createFile generatedName
      return { path, text := config.generatedText } }

/-! ## Effects on files -/

/-- The texts of the files by path. -/
abbrev Files := String → Option String

def Files.set (files : Files) (path text : String) : Files :=
  fun other => if other = path then some text else files other

/-- What does something to files and may fail on the way; what was done until then stays. -/
abbrev Building := ExceptT ConfigError (StateM Files)

/-- How a step ends that begins with given files, and the files then. -/
def Building.runOn {α : Type} (step : Building α) (files : Files) :
    Except ConfigError α × Files :=
  ExceptT.run step files

/-- Opens a file for generated text.  Whatever it held before is gone. -/
def Environment.openFile (environment : Environment) (name : String) : Building String := do
  let path ← MonadExcept.ofExcept (environment.createFile name)
  modify (·.set path "")
  return path

/-- Writes a text behind what a file holds. -/
def appendText (path text : String) : Building Unit :=
  modify fun files => files.set path ((files path).getD "" ++ text)

/-- The build step in the order in which it goes: the file is opened only for a configuration whose
memory size is not zero. -/
def Environment.build (environment : Environment) : Building Unit := do
  let config ← MonadExcept.ofExcept (environment.configOrDefaults parse).result
  if config.defaultDramMib = 0 then throw .zeroDramSize
  let path ← environment.openFile generatedName
  appendText path config.generatedText

end BoardIdentity
