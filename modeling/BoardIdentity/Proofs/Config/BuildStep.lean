import BoardIdentity.Config.Generated
import BoardIdentity.Proofs.Config.Overlay
import BoardIdentity.Proofs.Toml.DistinctKeys
import Mathlib

/-!
# The build step

What a build step does to files is what `Environment.generate` says: the file with the generated
text in it, or nothing at all.  With that the whole way from the variable to the file can be told by
the entries of a document's section (`configuration_overlays_defaults`).
-/

namespace BoardIdentity

variable {parse : Toml.Parser} {environment : Environment}

/-! ## Files -/

namespace Files

theorem set_set (files : Files) (path before text : String) :
    (files.set path before).set path text = files.set path text := by
  funext other
  unfold set
  split <;> rfl

theorem set_self (files : Files) (path text : String) : files.set path text path = some text :=
  if_pos rfl

end Files

/-! ## Reading the variable -/

theorem Environment.result_of_text {text : String} (set : environment.configText = .text text) :
    (environment.requiredConfig parse).result = BoardConfig.ofText parse text ∧
      (environment.configOrDefaults parse).result = BoardConfig.ofText parse text := by
  simp only [requiredConfig, configOrDefaults, set, Variable.text?, and_self]

theorem Environment.result_of_no_text (unset : environment.configText.text? = none) :
    (environment.requiredConfig parse).result = .error (.notSet configVariable) ∧
      (environment.configOrDefaults parse).result = .ok {} := by
  simp only [requiredConfig, configOrDefaults, unset, and_self]

/-! ## Writing the file -/

namespace Building

variable {α β : Type}

theorem runOn_bind (step : Building α) (next : α → Building β) (files : Files) :
    (step >>= next).runOn files =
      match step.runOn files with
      | (.ok value, files) => (next value).runOn files
      | (.error error, files) => (.error error, files) := by
  change (match step.runOn files with
    | (result, later) => (ExceptT.bindCont next result).run later) = _
  rcases step.runOn files with ⟨error | value, later⟩ <;> rfl

theorem runOn_ofExcept (result : Except ConfigError α) (files : Files) :
    (MonadExcept.ofExcept result : Building α).runOn files = (result, files) := by
  cases result <;> rfl

theorem runOn_throw (error : ConfigError) (files : Files) :
    (throw error : Building α).runOn files = (.error error, files) :=
  rfl

end Building

open Building

theorem Environment.runOn_openFile (environment : Environment) (name : String) (files : Files) :
    (environment.openFile name).runOn files =
      match environment.createFile name with
      | .ok path => (.ok path, files.set path "")
      | .error error => (.error error, files) := by
  rw [openFile, runOn_bind, runOn_ofExcept]
  cases environment.createFile name <;> rfl

theorem runOn_appendText (path text : String) (files : Files) :
    (appendText path text).runOn files =
      (.ok (), files.set path ((files path).getD "" ++ text)) :=
  rfl

theorem Environment.result_generate (parse : Toml.Parser) (environment : Environment) :
    (environment.generate parse).result =
      match (environment.configOrDefaults parse).result with
      | .error error => .error error
      | .ok config =>
        if config.defaultDramMib = 0 then .error .zeroDramSize
        else
          match environment.createFile generatedName with
          | .error error => .error error
          | .ok path => .ok { path, text := config.generatedText } := by
  simp only [generate, bind, Except.bind]
  cases (environment.configOrDefaults parse).result with
  | error error => rfl
  | ok config => cases environment.createFile generatedName <;> rfl

/-- The build writes the file that is generated and no other, and leaves all files as they are if
none is. -/
theorem Environment.runOn_build (parse : Toml.Parser) (environment : Environment) (files : Files) :
    (environment.build parse).runOn files =
      match (environment.generate parse).result with
      | .ok file => (.ok (), files.set file.path file.text)
      | .error error => (.error error, files) := by
  rw [build, runOn_bind, runOn_ofExcept, result_generate]
  cases (environment.configOrDefaults parse).result with
  | error error => rfl
  | ok config =>
    by_cases zero : config.defaultDramMib = 0
    · simp only [if_pos zero, runOn_bind, runOn_throw]
    · simp only [if_neg zero, runOn_bind, runOn_openFile]
      cases environment.createFile generatedName with
      | error error => rfl
      | ok path =>
        simp only [runOn_appendText, Files.set_self, Files.set_set, Option.getD_some,
          String.empty_append]

theorem Environment.createFile_eq_ok {directory : String}
    (set : environment.outputDirectory = .text directory) {name : String}
    (usable : environment.canCreate (joinPath directory name)) :
    environment.createFile name = .ok (joinPath directory name) := by
  simp only [createFile, set, Variable.text?, usable, if_true]

/-- With a directory that can be written to, the configuration alone decides how a build ends, and
the file is written for a memory size that is not zero. -/
theorem Environment.runOn_build_of_createFile {path : String}
    (created : environment.createFile generatedName = .ok path) (files : Files) :
    (environment.build parse).runOn files =
      match (environment.configOrDefaults parse).result with
      | .error error => (.error error, files)
      | .ok config =>
        if config.defaultDramMib = 0 then (.error .zeroDramSize, files)
        else (.ok (), files.set path config.generatedText) := by
  rw [runOn_build, result_generate, created]
  cases (environment.configOrDefaults parse).result with
  | error error => rfl
  | ok config => by_cases zero : config.defaultDramMib = 0 <;> simp only [zero, if_true, if_false]

/-! ## From the variable to the file -/

/-- **A configuration is what a document's section lays over the defaults.**  Texts are turned into
trees by some parser, in whose trees no key is there twice.

A text that is turned into a tree, in which the section is absent or a table, is read exactly if
every key of the section is a field's, with a value that the field admits.  The fields have the
given values then and otherwise the defaults, and another text with the same settings reads the
same, in whatever order and among whatever other keys they are.  A text that is not turned into a
tree is refused.

Both ways of reading the variable read its text if it is set to one.  Otherwise the one fails and
the other has the defaults.

With a directory that can be written to, the build fails exactly if the reading fails or the memory
size is zero, and all files are then what they were.  If it does not fail, the file in the directory
holds the generated text, and all others are what they were. -/
theorem configuration_overlays_defaults (parse : Toml.Parser)
    (distinct : ∀ text document, parse text = some document → Toml.DistinctEntries document) :
    (∀ (text : String) (document entries : Toml.Entries),
      parse text = some document → BoardConfig.section? document = some entries →
        ((∃ config, BoardConfig.ofText parse text = .ok config) ↔
          ∀ entry ∈ entries, BoardConfig.IsSetting entry) ∧
        (∀ config, BoardConfig.ofText parse text = .ok config →
          BoardConfig.Overlaid entries config) ∧
        ∀ (otherText : String) (otherDocument otherEntries : Toml.Entries),
          parse otherText = some otherDocument →
            BoardConfig.section? otherDocument = some otherEntries →
              entries.Perm otherEntries →
                BoardConfig.ofText parse text = BoardConfig.ofText parse otherText) ∧
    (∀ text : String, parse text = none → BoardConfig.ofText parse text = .error .invalid) ∧
    (∀ environment : Environment,
      (∀ text, environment.configText = .text text →
        (environment.requiredConfig parse).result = BoardConfig.ofText parse text ∧
          (environment.configOrDefaults parse).result = BoardConfig.ofText parse text) ∧
      (environment.configText = .missing ∨ environment.configText = .notText →
        (environment.requiredConfig parse).result = .error (.notSet configVariable) ∧
          (environment.configOrDefaults parse).result = .ok {})) ∧
    ∀ (environment : Environment) (files : Files) (directory : String),
      environment.outputDirectory = .text directory →
        environment.canCreate (joinPath directory generatedName) →
          ((∃ error, ((environment.build parse).runOn files).1 = .error error) ↔
            (∃ error, (environment.configOrDefaults parse).result = .error error) ∨
              ∃ config, (environment.configOrDefaults parse).result = .ok config ∧
                config.defaultDramMib = 0) ∧
          ((∃ error, ((environment.build parse).runOn files).1 = .error error) →
            ((environment.build parse).runOn files).2 = files) ∧
          ∀ config, (environment.configOrDefaults parse).result = .ok config →
            config.defaultDramMib ≠ 0 →
              ((environment.build parse).runOn files).2 =
                files.set (joinPath directory generatedName) config.generatedText := by
  refine ⟨fun text document entries accepted found => ⟨?_, ?_, ?_⟩, ?_, ?_, ?_⟩
  · exact BoardConfig.exists_ofText_iff accepted found
  · exact fun config =>
      BoardConfig.overlaid_of_ofText (distinct text document accepted) accepted found
  · exact fun _ _ _ => BoardConfig.ofText_perm (distinct text document accepted) accepted found
  · exact fun text => BoardConfig.ofText_of_parse_eq_none
  · intro environment
    refine ⟨fun text => Environment.result_of_text, fun unset => ?_⟩
    refine Environment.result_of_no_text ?_
    rcases unset with unset | unset <;> rw [unset] <;> rfl
  · intro environment files directory set usable
    rw [Environment.runOn_build_of_createFile (Environment.createFile_eq_ok set usable) files]
    cases (environment.configOrDefaults parse).result with
    | error error => simp
    | ok config =>
      by_cases zero : config.defaultDramMib = 0
      · simp [zero]
      · simp [zero]

/-- A bus and an address, once below a header and once between braces, in the other order and beside
another key; a number that cannot be handed out; and a variable that is missing. -/
theorem configuration_overlays_defaults_of_two_settings :
    let parse := Toml.tree? BoardConfig.sectionKey
    let text := "[var-eeprom]\nsom-bus=''\nsom-address=80"
    let otherText := "var-eeprom=\x7bsom-address=0x50,som-bus=''\x7d\na=1"
    let environment : Environment :=
      { configText := .text text, outputDirectory := .text "out", canCreate := fun _ => true }
    (∀ text document, parse text = some document → Toml.DistinctEntries document) ∧
    (∃ config, BoardConfig.ofText parse text = .ok config ∧
      BoardConfig.ofText parse otherText = .ok config ∧
      config.stated .somAddress = .integer 80 ∧ config.stated .carrierAddress = .integer 84 ∧
      ((environment.build parse).runOn fun _ => none).2 (joinPath "out" generatedName) =
        some config.generatedText) ∧
    BoardConfig.ofText parse "a=1_f" = .error .invalid ∧
    ({ environment with configText := .missing }.configOrDefaults parse).result = .ok {} := by
  intro parse text otherText environment
  let entries : Toml.Entries := [("som-bus", .string ""), ("som-address", .integer 80)]
  have distinct : ∀ text document, parse text = some document → Toml.DistinctEntries document :=
    fun _ _ => Toml.distinctEntries_of_tree?
  obtain ⟨parses, rejects, reads, builds⟩ := configuration_overlays_defaults parse distinct
  have accepted : parse text = some [("var-eeprom", .table .header entries)] := by
    simp only [parse, text, entries]
    cbv
  have otherAccepted : parse otherText =
      some [("var-eeprom", .table .inline entries.reverse), ("a", .integer 1)] := by
    simp only [parse, otherText, entries]
    cbv
  have rejected : parse "a=1_f" = none := by
    simp only [parse]
    cbv
  have settings : ∀ entry ∈ entries, BoardConfig.IsSetting entry :=
    List.forall_mem_cons.mpr ⟨⟨.somBus, rfl, "", rfl⟩,
      List.forall_mem_singleton.mpr ⟨.somAddress, rfl, 80, by decide, rfl⟩⟩
  obtain ⟨readable, overlaid, alike⟩ := parses text _ entries accepted rfl
  obtain ⟨config, read⟩ := readable.mpr settings
  have otherRead :=
    alike otherText _ entries.reverse otherAccepted rfl (List.reverse_perm entries).symm
  obtain ⟨given, missing⟩ := overlaid config read
  have stored := (reads environment).1 text rfl
  have size : config.defaultDramMib ≠ 0 := by
    intro zero
    have kept := missing .defaultDramMib (by decide)
    rw [BoardConfig.stated, zero] at kept
    exact absurd (Toml.Value.integer.inj kept) (by decide)
  have written := (builds environment (fun _ => none) "out" rfl rfl).2.2 config
    (stored.2.trans read) size
  refine ⟨distinct, ⟨config, read, otherRead ▸ read, ?_, ?_, ?_⟩, rejects "a=1_f" rejected, ?_⟩
  · exact given .somAddress _ (List.mem_cons_of_mem _ List.mem_cons_self)
  · exact missing .carrierAddress (by decide)
  · rw [written, Files.set_self]
  · exact ((reads { environment with configText := .missing }).2 (.inl rfl)).2

end BoardIdentity
