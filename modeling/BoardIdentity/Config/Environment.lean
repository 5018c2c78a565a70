import BoardIdentity.Config.Board

/-!
# Configuration from the environment

The configuration document is the text of an environment variable.  Every look at it first announces
the variable, so that a build runs again when it changes.  A missing variable is an error for
`Environment.requiredConfig`; `Environment.configOrDefaults` takes the defaults instead.

Generated files go into the directory that another variable names.

How texts are turned into documents is not said here: every reading takes the parser to use.
-/

namespace BoardIdentity

/-! ## Variables and files -/

/-- A variable may also be set to what is no text. -/
inductive Variable where
  | missing
  | notText
  | text (value : String)
  deriving DecidableEq, Repr

/-- The variable's text; a variable that does not hold text counts as missing. -/
def Variable.text? : Variable → Option String
  | text value => some value
  | _ => none

/-- What a build sees of its surroundings. -/
structure Environment where
  configText : Variable
  outputDirectory : Variable
  canCreate : (path : String) → Bool

def configVariable : String := "HUBRIS_APP_CONFIG"

/-! ## Errors -/

/-- Why a build fails.  A document is invalid if it is none, or states no configuration. -/
inductive ConfigError where
  | invalid
  | notSet (name : String)
  | zeroDramSize
  | cannotCreate (path : String)
  deriving DecidableEq, Repr

def ConfigError.message : ConfigError → String
  | invalid => "parsing app config"
  | notSet name => "$" ++ name ++ " is not set"
  | zeroDramSize => "var-eeprom.default-dram-size-mib must be non-zero"
  | cannotCreate path => "creating " ++ path

/-! ## Reading the configuration -/

variable (parse : Toml.Parser)

/-- The configuration that a text states. -/
def BoardConfig.ofText (text : String) : Except ConfigError BoardConfig :=
  match (parse text).bind BoardConfig.ofDocument? with
  | some config => .ok config
  | none => .error .invalid

/-- What a step of a build printed and how it ended. -/
structure Printed (α : Type) where
  output : String
  result : Except ConfigError α

/-- The line that announces the variable. -/
def announcement : String :=
  "cargo:rerun-if-env-changed=" ++ configVariable ++ "\n"

/-- The configuration of the environment, which has to be there. -/
def Environment.requiredConfig (environment : Environment) : Printed BoardConfig where
  output := announcement
  result :=
    match environment.configText.text? with
    | some text => BoardConfig.ofText parse text
    | none => .error (.notSet configVariable)

/-- The configuration of the environment, or the defaults if it has none.  The document is printed
as it was found. -/
def Environment.configOrDefaults (environment : Environment) : Printed BoardConfig :=
  match environment.configText.text? with
  | some text =>
    { output := announcement ++ "--- toml for $" ++ configVariable ++ " ---\n" ++ text ++ "\n"
      result := BoardConfig.ofText parse text }
  | none =>
    { output := announcement ++ "--- var $" ++ configVariable ++ " not present, using default ---\n"
      result := .ok {} }

/-! ## Output files -/

/-- A name below a directory.  A name that starts at the root stands by itself, and a separator is
added where the directory does not end in one. -/
def joinPath (directory name : String) : String :=
  if name.startsWith "/" then name
  else if directory = "" ∨ directory.endsWith "/" then directory ++ name
  else directory ++ "/" ++ name

/-- The path of a file that is created for generated text. -/
def Environment.createFile (environment : Environment) (name : String) :
    Except ConfigError String :=
  match environment.outputDirectory.text? with
  | none => .error (.notSet "OUT_DIR")
  | some directory =>
    let path := joinPath directory name
    if environment.canCreate path then .ok path else .error (.cannotCreate path)

end BoardIdentity
