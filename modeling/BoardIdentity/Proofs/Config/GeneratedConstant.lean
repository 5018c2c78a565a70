import BoardIdentity.Proofs.Source.Tokens

/-!
# What the generated text says

The generated text is read as a compiler reads it: cut into tokens, taken apart into the fields of
one constant (`Source.Constant.ofText?`), and checked against the types of the fields
(`BoardConstant.ofText?`).  Whatever characters the configured strings hold, it is the constant of
six fields with the configured values in them, so that no two configurations have one text
(`constant_of_generatedText`).
-/

namespace BoardIdentity

namespace Source

/-! ## Constants -/

/-- What a field is set to. -/
inductive Expression where
  | text (content : String)
  | number (number : Number)
  | shifted (number distance : Number)
  deriving DecidableEq, Repr

/-- A field of a constant. -/
structure Field where
  name : String
  value : Expression
  deriving DecidableEq, Repr

/-- A constant of a type that has fields. -/
structure Constant where
  name : String
  type : String
  fields : List Field
  deriving DecidableEq, Repr

/-- The fields up to the end of the constant, each with a comma behind it. -/
def fields? : List Token → Option (List Field)
  | [.mark '\x7d', .mark ';'] => some []
  | .word name :: .mark ':' :: .text content :: .mark ',' :: rest =>
    (fields? rest).map ({ name, value := .text content } :: ·)
  | .word name :: .mark ':' :: .number number :: .mark ',' :: rest =>
    (fields? rest).map ({ name, value := .number number } :: ·)
  | .word name :: .mark ':' :: .number number :: .shift :: .number distance :: .mark ',' :: rest =>
    (fields? rest).map ({ name, value := .shifted number distance } :: ·)
  | _ => none

/-- The one constant that the tokens declare. -/
def Constant.ofTokens? : List Token → Option Constant
  | .word "pub" :: .word "const" :: .word name :: .mark ':' :: .word type :: .mark '=' ::
      .word made :: .mark '\x7b' :: rest =>
    if made = type then (fields? rest).map fun fields => { name, type, fields } else none
  | _ => none

/-- The one constant that a text declares. -/
def Constant.ofText? (text : String) : Option Constant :=
  (tokens? text).bind ofTokens?

/-! ## Tokens of a constant -/

def Expression.tokens : Expression → List Token
  | text content => [.text content]
  | number literal => [.number literal]
  | shifted literal distance => [.number literal, .shift, .number distance]

def Field.tokens (field : Field) : List Token :=
  .word field.name :: .mark ':' :: field.value.tokens ++ [.mark ',']

def Constant.tokens (constant : Constant) : List Token :=
  .word "pub" :: .word "const" :: .word constant.name :: .mark ':' :: .word constant.type ::
    .mark '=' :: .word constant.type :: .mark '\x7b' ::
    (constant.fields.flatMap Field.tokens ++ [.mark '\x7d', .mark ';'])

theorem fields?_tokens (fields : List Field) :
    fields? (fields.flatMap Field.tokens ++ [.mark '\x7d', .mark ';']) = some fields := by
  induction fields with
  | nil => rfl
  | cons field fields ih =>
    obtain ⟨name, value⟩ := field
    rw [List.flatMap_cons, List.append_assoc]
    cases value with
    | text content => exact congrArg (Option.map _) ih
    | number literal => exact congrArg (Option.map _) ih
    | shifted literal distance => exact congrArg (Option.map _) ih

/-- A constant is the only one that its tokens declare. -/
theorem Constant.ofTokens?_tokens (constant : Constant) :
    ofTokens? constant.tokens = some constant := by
  rw [tokens, ofTokens?, if_pos rfl, fields?_tokens]
  rfl

/-! ## Values of a type -/

/-- The value of a field, if there is one of that name. -/
def Constant.field? (constant : Constant) (name : String) : Option Expression :=
  (constant.fields.find? (·.name == name)).map (·.value)

/-- The value of a number of a type, which the literal may name and which has to hold the value. -/
def Number.below? (number : Number) (type : String) (bound : Nat) : Option Nat :=
  if (number.type? = none ∨ number.type? = some type) ∧ number.value < bound then
    some number.value
  else none

namespace Expression

def text? : Expression → Option String
  | text content => some content
  | _ => none

def byte? : Expression → Option UInt8
  | number literal => (literal.below? "u8" UInt8.size).map UInt8.ofNat
  | _ => none

/-- The value of a number of 64 bits.  It may be shifted by less than its width. -/
def long? : Expression → Option UInt64
  | number literal => (literal.below? "u64" UInt64.size).map UInt64.ofNat
  | shifted literal distance =>
    if distance.value < 64 then
      (literal.below? "u64" UInt64.size).map (UInt64.ofNat · <<< UInt64.ofNat distance.value)
    else none
  | text _ => none

end Expression

end Source

/-- The constant that firmware is built with. -/
structure BoardConstant where
  somBus : String
  somAddress : UInt8
  carrierBus : String
  carrierAddress : UInt8
  defaultDramSize : UInt64
  partPrefix : String
  deriving DecidableEq, Repr

namespace BoardConstant

/-- The fields that the constant has, each of them once. -/
def fieldNames : List String :=
  ["som_bus", "som_address", "carrier_bus", "carrier_address", "default_dram_size", "part_prefix"]

/-- The value of a constant whose fields are those of the type, in any order. -/
def ofConstant? (constant : Source.Constant) : Option BoardConstant :=
  if (constant.fields.map (·.name)).isPerm fieldNames then do
    return {
      somBus := ← (← constant.field? "som_bus").text?
      somAddress := ← (← constant.field? "som_address").byte?
      carrierBus := ← (← constant.field? "carrier_bus").text?
      carrierAddress := ← (← constant.field? "carrier_address").byte?
      defaultDramSize := ← (← constant.field? "default_dram_size").long?
      partPrefix := ← (← constant.field? "part_prefix").text? }
  else none

/-- The value of the constant that a text declares under its name and type. -/
def ofText? (text : String) : Option BoardConstant :=
  match Source.Constant.ofText? text with
  | some constant =>
    if constant.name = "BOARD_CONFIG" ∧ constant.type = "EepromConfig" then ofConstant? constant
    else none
  | none => none

end BoardConstant

/-! ## The generated tokens -/

open Source

/-- A line of the text holds the tokens of one field. -/
theorem run_fieldLine (field : Field) {value : String}
    (named : run .between (field.name.toList ++ [':', ' ']) =
      some ([.word field.name, .mark ':'], .between))
    (valued : run .between (value.toList ++ [',']) =
      some (field.value.tokens ++ [.mark ','], .between)) :
    run .between (fieldLine field.name value).toList = some (field.tokens, .between) := by
  have written : (fieldLine field.name value).toList = [' ', ' ', ' ', ' '] ++
      ((field.name.toList ++ [':', ' ']) ++ ((value.toList ++ [',']) ++ ['\n'])) := by
    unfold fieldLine
    repeat rw [String.toList_append]
    simp
  have indented : run .between [' ', ' ', ' ', ' '] = some ([], .between) := rfl
  have broken : run .between ['\n'] = some ([], .between) := rfl
  have whole := run_append indented (run_append named (run_append valued broken))
  rw [written, whole, List.append_nil]
  rfl

theorem run_textLine (name content : String)
    (named : run .between (name.toList ++ [':', ' ']) =
      some ([.word name, .mark ':'], .between)) :
    run .between (fieldLine name (Quoted.quote content)).toList =
      some (Field.tokens ⟨name, .text content⟩, .between) :=
  run_fieldLine ⟨name, .text content⟩ named (run_append (run_quote content) rfl)

theorem run_addressLine (name : String) (address : UInt8)
    (named : run .between (name.toList ++ [':', ' ']) =
      some ([.word name, .mark ':'], .between)) :
    run .between (fieldLine name (addressLiteral address)).toList =
      some (Field.tokens ⟨name, .number { value := address.toNat }⟩, .between) :=
  run_fieldLine ⟨name, .number { value := address.toNat }⟩ named (run_addressLiteral address)

/-- The constant that a configuration is generated as. -/
def BoardConfig.constant (config : BoardConfig) : Constant where
  name := "BOARD_CONFIG"
  type := "EepromConfig"
  fields := [
    ⟨"som_bus", .text config.somBus⟩,
    ⟨"som_address", .number { value := config.somAddress.toNat }⟩,
    ⟨"carrier_bus", .text config.carrierBus⟩,
    ⟨"carrier_address", .number { value := config.carrierAddress.toNat }⟩,
    ⟨"default_dram_size",
      .shifted { value := config.defaultDramMib.toNat } { value := 20 }⟩,
    ⟨"part_prefix", .text config.partPrefix⟩]

/-- The generated text is cut into the tokens of the constant, whatever the strings hold. -/
theorem run_generatedText (config : BoardConfig) :
    run .between config.generatedText.toList = some (config.constant.tokens, .between) := by
  have comment : run .between "/// Board configuration, generated from the app config.\n".toList =
      some ([], .between) := rfl
  have head : run .between "pub const BOARD_CONFIG: EepromConfig = EepromConfig \x7b\n".toList =
      some ([.word "pub", .word "const", .word "BOARD_CONFIG", .mark ':', .word "EepromConfig",
        .mark '=', .word "EepromConfig", .mark '\x7b'], .between) := rfl
  have tail : run .between "\x7d;\n".toList = some ([.mark '\x7d', .mark ';'], .between) :=
    rfl
  have somBus := run_textLine "som_bus" config.somBus rfl
  have somAddress := run_addressLine "som_address" config.somAddress rfl
  have carrierBus := run_textLine "carrier_bus" config.carrierBus rfl
  have carrierAddress := run_addressLine "carrier_address" config.carrierAddress rfl
  have sizeNamed : run .between ("default_dram_size".toList ++ [':', ' ']) =
      some ([.word "default_dram_size", .mark ':'], .between) := rfl
  have size := run_fieldLine
    ⟨"default_dram_size", .shifted { value := config.defaultDramMib.toNat } { value := 20 }⟩
    sizeNamed (run_decimal_shifted config.defaultDramMib.toNat)
  have partPrefix := run_textLine "part_prefix" config.partPrefix rfl
  have fields := run_append somBus (run_append somAddress (run_append carrierBus
    (run_append carrierAddress (run_append size (run_append partPrefix tail)))))
  have whole := run_append comment (run_append head fields)
  unfold BoardConfig.generatedText
  repeat rw [String.toList_append]
  simp only [List.append_assoc]
  exact whole

/-- The generated text declares the constant of the configuration. -/
theorem ofText?_generatedText (config : BoardConfig) :
    Constant.ofText? config.generatedText = some config.constant := by
  rw [Constant.ofText?, tokens?, run_generatedText, Option.bind_some, Constant.ofTokens?_tokens]

/-! ## The generated value -/

theorem byte?_toNat (byte : UInt8) :
    Expression.byte? (.number { value := byte.toNat }) = some byte := by
  have below : Number.below? { value := byte.toNat } "u8" UInt8.size = some byte.toNat :=
    if_pos ⟨Or.inl rfl, byte.toNat_lt⟩
  rw [Expression.byte?, below, Option.map_some, UInt8.ofNat_toNat]

/-- Twenty places up, a number of 32 bits is still one of 64. -/
theorem long?_toNat (size : UInt32) :
    ∃ long, Expression.long? (.shifted { value := size.toNat } { value := 20 }) = some long ∧
      long.toNat = size.toNat * (1 <<< 20) := by
  have bound := size.toNat_lt
  have fits : size.toNat < UInt64.size := by
    simp only [UInt64.size]
    omega
  have below : Number.below? { value := size.toNat } "u64" UInt64.size = some size.toNat :=
    if_pos ⟨Or.inl rfl, fits⟩
  refine ⟨UInt64.ofNat size.toNat <<< 20, ?_, ?_⟩
  · rw [Expression.long?, if_pos (by decide), below]
    rfl
  · have places : (20 : UInt64).toNat % 64 = 20 := rfl
    rw [UInt64.toNat_shiftLeft, places, UInt64.toNat_ofNat_of_lt' fits, Nat.shiftLeft_eq,
      Nat.mod_eq_of_lt (by omega)]
    rfl

/-- The constant of a configuration has the types of its fields. -/
theorem ofConstant?_constant (config : BoardConfig) {size : UInt64}
    (long : Expression.long?
      (.shifted { value := config.defaultDramMib.toNat } { value := 20 }) = some size) :
    BoardConstant.ofConstant? config.constant = some {
      somBus := config.somBus
      somAddress := config.somAddress
      carrierBus := config.carrierBus
      carrierAddress := config.carrierAddress
      defaultDramSize := size
      partPrefix := config.partPrefix } := by
  have named : (config.constant.fields.map (·.name)).isPerm BoardConstant.fieldNames = true := by
    rfl
  have somAddress : (config.constant.field? "som_address") =
      some (.number { value := config.somAddress.toNat }) := rfl
  have carrierAddress : (config.constant.field? "carrier_address") =
      some (.number { value := config.carrierAddress.toNat }) := rfl
  have dramSize : (config.constant.field? "default_dram_size") =
      some (.shifted { value := config.defaultDramMib.toNat } { value := 20 }) := rfl
  rw [BoardConstant.ofConstant?, if_pos named, somAddress, carrierAddress, dramSize]
  simp only [Option.bind_eq_bind, Option.bind_some, byte?_toNat, long]
  rfl

theorem BoardConfig.constant_injective {config other : BoardConfig}
    (same : other.constant = config.constant) : other = config := by
  obtain ⟨somBus, somAddress, carrierBus, carrierAddress, mib, partPrefix⟩ := config
  obtain ⟨somBus', somAddress', carrierBus', carrierAddress', mib', partPrefix'⟩ := other
  simp only [BoardConfig.constant, Constant.mk.injEq, List.cons.injEq, Field.mk.injEq,
    Expression.text.injEq, Expression.number.injEq, Expression.shifted.injEq, Number.mk.injEq,
    UInt8.toNat_inj, UInt32.toNat_inj, true_and, and_true] at same
  obtain ⟨rfl, rfl, rfl, rfl, rfl, rfl⟩ := same
  rfl

/-- A configuration that is accepted is written. -/
theorem Environment.generate_eq_ok {parse : Toml.Parser} {environment : Environment}
    {config : BoardConfig} {path : String} (accepted : config.defaultDramMib ≠ 0)
    (read : (environment.configOrDefaults parse).result = .ok config)
    (created : environment.createFile generatedName = .ok path) :
    (environment.generate parse).result = .ok { path, text := config.generatedText } := by
  unfold Environment.generate
  simp only [read, created, bind, Except.bind, if_neg accepted]
  rfl

/-- **The generated text determines the configuration.**  For every configuration that is accepted,
the text that is written declares the constant with the configured strings, addresses and size, each
in its own literal: no string ends its literal early or adds a field, and two configurations with
one text are one.  The constant has the types of its fields, and its memory size is the configured
number of MiB in bytes, which 64 bits hold and which is a multiple of one MiB other than zero. -/
theorem constant_of_generatedText (config : BoardConfig) (accepted : config.defaultDramMib ≠ 0) :
    (∀ (parse : Toml.Parser) (environment : Environment) (path : String),
      (environment.configOrDefaults parse).result = .ok config →
        environment.createFile generatedName = .ok path →
          (environment.generate parse).result = .ok { path, text := config.generatedText }) ∧
    Constant.ofText? config.generatedText = some {
      name := "BOARD_CONFIG"
      type := "EepromConfig"
      fields := [
        ⟨"som_bus", .text config.somBus⟩,
        ⟨"som_address", .number { value := config.somAddress.toNat }⟩,
        ⟨"carrier_bus", .text config.carrierBus⟩,
        ⟨"carrier_address", .number { value := config.carrierAddress.toNat }⟩,
        ⟨"default_dram_size",
          .shifted { value := config.defaultDramMib.toNat } { value := 20 }⟩,
        ⟨"part_prefix", .text config.partPrefix⟩] } ∧
    (∀ other : BoardConfig, other.generatedText = config.generatedText → other = config) ∧
    ∃ size : UInt64,
      BoardConstant.ofText? config.generatedText = some {
        somBus := config.somBus
        somAddress := config.somAddress
        carrierBus := config.carrierBus
        carrierAddress := config.carrierAddress
        defaultDramSize := size
        partPrefix := config.partPrefix } ∧
      size.toNat = config.defaultDramMib.toNat * (1 <<< 20) ∧ size ≠ 0 := by
  refine ⟨fun _ _ _ => Environment.generate_eq_ok accepted, ofText?_generatedText config, ?_, ?_⟩
  · intro other same
    have read := ofText?_generatedText other
    rw [same, ofText?_generatedText config] at read
    exact BoardConfig.constant_injective (Option.some.inj read).symm
  · obtain ⟨size, long, bytes⟩ := long?_toNat config.defaultDramMib
    refine ⟨size, ?_, bytes, ?_⟩
    · rw [BoardConstant.ofText?, ofText?_generatedText]
      exact (if_pos ⟨rfl, rfl⟩).trans (ofConstant?_constant config long)
    · rintro rfl
      have none : config.defaultDramMib.toNat = 0 :=
        (Nat.mul_eq_zero.mp bytes.symm).resolve_right (by decide)
      exact accepted (UInt32.toNat_inj.mp none)

/-- Strings that imitate the text around them, with quotes, line breaks, backslashes, a mark that
combines with the quote in front of it and a character that shows as nothing, and the greatest
size. -/
theorem constant_of_generatedText_of_imitation :
    let config : BoardConfig :=
      { somBus := "\",\n    som_address: 0x00,\n    carrier_bus: \"\\"
        somAddress := 0x7f
        carrierBus := "\u0301\u200b\r//"
        defaultDramMib := 0xffffffff
        partPrefix := "\\u\x7b0\x7d" }
    config.defaultDramMib ≠ 0 ∧ ∃ size : UInt64,
      BoardConstant.ofText? config.generatedText = some {
        somBus := "\",\n    som_address: 0x00,\n    carrier_bus: \"\\"
        somAddress := 0x7f
        carrierBus := "\u0301\u200b\r//"
        carrierAddress := 0x54
        defaultDramSize := size
        partPrefix := "\\u\x7b0\x7d" } ∧
      size.toNat = 4503599626321920 := by
  intro config
  have accepted : config.defaultDramMib ≠ 0 := by decide
  obtain ⟨-, -, -, size, read, bytes, -⟩ := constant_of_generatedText config accepted
  exact ⟨accepted, size, read, bytes.trans (by decide)⟩

end BoardIdentity
