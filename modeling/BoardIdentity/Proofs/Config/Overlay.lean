import BoardIdentity.Config.Environment
import BoardIdentity.Proofs.Toml.DistinctEntries
import Mathlib.Logic.Function.Basic

/-!
# Configurations as overlays

A document whose section is a table, or is not there at all, states a configuration exactly if each
key of the section is a field's and each value is one that the field admits (`exists_ofText_iff`).
The configuration then has the given values in the given fields and the defaults in all others
(`overlaid_of_ofText`), and so neither the order of the keys nor anything outside of the section
matters (`ofText_perm`).  All this holds of any parser whose trees have no key twice.

A configuration is compared with a document through `BoardConfig.stated`, the value that a document
would give a field for it to be what it is.
-/

namespace BoardIdentity

namespace BoardConfig

/-! ## Fields -/

/-- The fields of a configuration. -/
inductive Field where
  | somBus
  | somAddress
  | carrierBus
  | carrierAddress
  | defaultDramMib
  | partPrefix
  deriving DecidableEq

/-- The key of a field. -/
def Field.key : Field → String
  | somBus => "som-bus"
  | somAddress => "som-address"
  | carrierBus => "carrier-bus"
  | carrierAddress => "carrier-address"
  | defaultDramMib => "default-dram-size-mib"
  | partPrefix => "part-prefix"

/-- The values of a field's kind and in its range: texts, addresses of eight bits, and a size of 32
bits. -/
def Field.Admits (value : Toml.Value) : Field → Prop
  | somBus | carrierBus | partPrefix => ∃ text, value = .string text
  | somAddress | carrierAddress => ∃ n : Int, (0 ≤ n ∧ n ≤ 255) ∧ value = .integer n
  | defaultDramMib => ∃ n : Int, (0 ≤ n ∧ n ≤ 4294967295) ∧ value = .integer n

/-- Whether a key is a field's and the value under it one that the field admits. -/
def IsSetting (entry : String × Toml.Value) : Prop :=
  ∃ field : Field, field.key = entry.1 ∧ field.Admits entry.2

/-- The value that states what a field of the configuration is. -/
def stated (config : BoardConfig) : Field → Toml.Value
  | .somBus => .string config.somBus
  | .somAddress => .integer config.somAddress.toNat
  | .carrierBus => .string config.carrierBus
  | .carrierAddress => .integer config.carrierAddress.toNat
  | .defaultDramMib => .integer config.defaultDramMib.toNat
  | .partPrefix => .string config.partPrefix

theorem Field.key_injective : Function.Injective Field.key := by
  intro field other same
  cases field <;> cases other <;> first | rfl | exact absurd same (by decide)

/-- A configuration is what its fields state. -/
theorem stated_injective : Function.Injective stated := by
  intro config other same
  have text_inj {s t : String} (same : Toml.Value.string s = .string t) : s = t :=
    Toml.Value.string.inj same
  have number_inj {m n : Nat} (same : Toml.Value.integer m = .integer n) : m = n :=
    Int.ofNat.inj (Toml.Value.integer.inj same)
  have somBus := text_inj (congrFun same .somBus)
  have somAddress := UInt8.toNat_inj.mp (number_inj (congrFun same .somAddress))
  have carrierBus := text_inj (congrFun same .carrierBus)
  have carrierAddress := UInt8.toNat_inj.mp (number_inj (congrFun same .carrierAddress))
  have defaultDramMib := UInt32.toNat_inj.mp (number_inj (congrFun same .defaultDramMib))
  have partPrefix := text_inj (congrFun same .partPrefix)
  cases config
  cases other
  simp_all only

/-! ## Reading values -/

variable {value : Toml.Value}

theorem text?_eq_some_iff {text : String} : text? value = some text ↔ value = .string text := by
  cases value <;> simp [text?]

theorem natBelow?_eq_some_iff {bound n : Nat} :
    natBelow? bound value = some n ↔ n < bound ∧ value = .integer n := by
  cases value
  case integer m =>
    simp only [natBelow?, Option.ite_none_right_eq_some, Option.some.injEq,
      Toml.Value.integer.injEq]
    omega
  all_goals simp [natBelow?]

theorem address?_eq_some_iff {address : UInt8} :
    address? value = some address ↔ value = .integer address.toNat := by
  simp only [address?, Option.map_eq_some_iff, natBelow?_eq_some_iff]
  constructor
  · rintro ⟨n, ⟨below, rfl⟩, rfl⟩
    rw [UInt8.toNat_ofNat_of_lt' below]
  · intro stated
    exact ⟨address.toNat, ⟨address.toNat_lt, stated⟩, UInt8.ofNat_toNat⟩

theorem size?_eq_some_iff {size : UInt32} :
    size? value = some size ↔ value = .integer size.toNat := by
  simp only [size?, Option.map_eq_some_iff, natBelow?_eq_some_iff]
  constructor
  · rintro ⟨n, ⟨below, rfl⟩, rfl⟩
    rw [UInt32.toNat_ofNat_of_lt' below]
  · intro stated
    exact ⟨size.toNat, ⟨size.toNat_lt, stated⟩, UInt32.ofNat_toNat⟩

theorem isSome_text?_iff : (text? value).isSome ↔ ∃ text, value = .string text := by
  simp only [Option.isSome_iff_exists, text?_eq_some_iff]

theorem isSome_natBelow?_iff {bound : Nat} :
    (natBelow? bound value).isSome ↔ ∃ n : Int, (0 ≤ n ∧ n < bound) ∧ value = .integer n := by
  simp only [Option.isSome_iff_exists, natBelow?_eq_some_iff]
  constructor
  · rintro ⟨n, below, rfl⟩
    exact ⟨n, ⟨Int.natCast_nonneg n, Int.ofNat_lt.mpr below⟩, rfl⟩
  · rintro ⟨n, ⟨nonneg, below⟩, rfl⟩
    exact ⟨n.toNat, (Int.toNat_lt nonneg).mpr below, by rw [Int.toNat_of_nonneg nonneg]⟩

theorem isSome_address?_iff :
    (address? value).isSome ↔ ∃ n : Int, (0 ≤ n ∧ n ≤ 255) ∧ value = .integer n := by
  rw [address?, Option.isSome_map, isSome_natBelow?_iff]
  simp only [← Int.lt_add_one_iff]
  rfl

theorem isSome_size?_iff :
    (size? value).isSome ↔ ∃ n : Int, (0 ≤ n ∧ n ≤ 4294967295) ∧ value = .integer n := by
  rw [size?, Option.isSome_map, isSome_natBelow?_iff]
  simp only [← Int.lt_add_one_iff]
  rfl

/-! ## Setting one field -/

variable {config after : BoardConfig} {key : String} {field : Field} {entries : Toml.Entries}

/-- A field that is set to what was read of a value states this value. -/
theorem stated_of_map {α : Type} {read : Option α} {put : α → BoardConfig}
    {state : α → Toml.Value} (reads : ∀ {x}, read = some x ↔ value = state x)
    (puts : ∀ x, (put x).stated = Function.update config.stated field (state x))
    (changed : read.map put = some after) :
    after.stated = Function.update config.stated field value := by
  obtain ⟨x, found, rfl⟩ := Option.map_eq_some_iff.mp changed
  rw [puts, reads.mp found]

/-- Setting a key succeeds for a field's key alone, and changes what is stated of this field. -/
theorem stated_of_set? (changed : config.set? key value = some after) :
    ∃ field : Field, field.key = key ∧
      after.stated = Function.update config.stated field value := by
  unfold set? at changed
  split at changed
  case h_1 =>
    refine ⟨.somBus, rfl, stated_of_map text?_eq_some_iff (fun _ => funext fun other => ?_) changed⟩
    cases other <;> rfl
  case h_2 =>
    refine ⟨.somAddress, rfl,
      stated_of_map address?_eq_some_iff (fun _ => funext fun other => ?_) changed⟩
    cases other <;> rfl
  case h_3 =>
    refine ⟨.carrierBus, rfl,
      stated_of_map text?_eq_some_iff (fun _ => funext fun other => ?_) changed⟩
    cases other <;> rfl
  case h_4 =>
    refine ⟨.carrierAddress, rfl,
      stated_of_map address?_eq_some_iff (fun _ => funext fun other => ?_) changed⟩
    cases other <;> rfl
  case h_5 =>
    refine ⟨.defaultDramMib, rfl,
      stated_of_map size?_eq_some_iff (fun _ => funext fun other => ?_) changed⟩
    cases other <;> rfl
  case h_6 =>
    refine ⟨.partPrefix, rfl,
      stated_of_map text?_eq_some_iff (fun _ => funext fun other => ?_) changed⟩
    cases other <;> rfl
  case h_7 => cases changed

/-- Under a field's key exactly the values can be set that the field admits. -/
theorem isSome_set?_iff : (config.set? field.key value).isSome ↔ field.Admits value := by
  have mapped {α : Type} {read : Option α} {put : α → BoardConfig} {P : Prop}
      (iff : read.isSome ↔ P) : (read.map put).isSome ↔ P := by rwa [Option.isSome_map]
  cases field with
  | somBus | carrierBus | partPrefix => exact mapped isSome_text?_iff
  | somAddress | carrierAddress => exact mapped isSome_address?_iff
  | defaultDramMib => exact mapped isSome_size?_iff

theorem exists_set?_iff :
    (∃ after, config.set? key value = some after) ↔ IsSetting (key, value) := by
  constructor
  · rintro ⟨after, changed⟩
    obtain ⟨field, rfl, -⟩ := stated_of_set? changed
    exact ⟨field, rfl, isSome_set?_iff.mp (Option.isSome_of_eq_some changed)⟩
  · rintro ⟨field, rfl, admits⟩
    exact Option.isSome_iff_exists.mp (isSome_set?_iff.mpr admits)

/-! ## Setting fields by a list of entries -/

theorem exists_setAll?_iff :
    (∃ after, config.setAll? entries = some after) ↔ ∀ entry ∈ entries, IsSetting entry := by
  induction entries generalizing config with
  | nil => exact ⟨fun _ => nofun, fun _ => ⟨config, rfl⟩⟩
  | cons entry entries ih =>
    rw [List.forall_mem_cons]
    constructor
    · rintro ⟨after, changed⟩
      obtain ⟨middle, first, others⟩ := Option.bind_eq_some_iff.mp changed
      exact ⟨exists_set?_iff.mp ⟨middle, first⟩, ih.mp ⟨after, others⟩⟩
    · rintro ⟨first, others⟩
      obtain ⟨middle, first⟩ := exists_set?_iff.mpr first
      obtain ⟨after, others⟩ := ih.mpr others
      exact ⟨after, Option.bind_eq_some_iff.mpr ⟨middle, first, others⟩⟩

/-- Of the fields with a key among the entries the values there are stated, and of the others what
was stated before. -/
theorem stated_of_setAll? (nodup : (entries.map (·.1)).Nodup)
    (changed : config.setAll? entries = some after) (field : Field) :
    after.stated field = (entries.lookup field.key).getD (config.stated field) := by
  induction entries generalizing config with
  | nil =>
    obtain rfl := Option.some.inj changed
    rfl
  | cons entry entries ih =>
    obtain ⟨key, value⟩ := entry
    obtain ⟨middle, first, others⟩ := Option.bind_eq_some_iff.mp changed
    obtain ⟨unknown, nodupOthers⟩ := List.nodup_cons.mp nodup
    obtain ⟨given, rfl, states⟩ := stated_of_set? first
    rw [ih nodupOthers others, states]
    by_cases same : field = given
    -- The key is not among the other entries, so that what it gives here is what stays.
    · subst same
      have missing : entries.lookup field.key = none :=
        Toml.lookup_eq_none_iff_notMem.mpr unknown
      rw [missing, List.lookup_cons_self, Function.update_self]
      rfl
    · have another : (field.key == given.key) = false :=
        beq_eq_false_iff_ne.mpr fun equal => same (Field.key_injective equal)
      rw [List.lookup_cons, another, Function.update_of_ne same]

/-- The order of the entries does not matter. -/
theorem setAll?_perm {others : Toml.Entries} (nodup : (entries.map (·.1)).Nodup)
    (perm : entries.Perm others) : config.setAll? entries = config.setAll? others := by
  have ordered {entries others : Toml.Entries} (nodup : (entries.map (·.1)).Nodup)
      (perm : entries.Perm others) {after : BoardConfig}
      (changed : config.setAll? entries = some after) : config.setAll? others = some after := by
    have settings := exists_setAll?_iff.mp ⟨after, changed⟩
    have othersNodup := (perm.map (·.1)).nodup_iff.mp nodup
    obtain ⟨other, otherChanged⟩ : ∃ other, config.setAll? others = some other :=
      exists_setAll?_iff.mpr fun entry member => settings entry (perm.mem_iff.mpr member)
    have same : after = other := stated_injective <| funext fun field => by
      rw [stated_of_setAll? nodup changed, stated_of_setAll? othersNodup otherChanged,
        Toml.lookup_perm nodup perm]
    rw [same, otherChanged]
  ext after
  exact ⟨ordered nodup perm, ordered ((perm.map (·.1)).nodup_iff.mp nodup) perm.symm⟩

/-! ## Documents -/

/-- The entries of the section of a document, which are none if it has no section.  A section that
is no table has no entries. -/
def section? (document : Toml.Entries) : Option Toml.Entries :=
  match document.lookup sectionKey with
  | none => some []
  | some (.table _ entries) => some entries
  | some _ => none

variable {document : Toml.Entries}

theorem nodup_of_section? (distinct : Toml.DistinctEntries document)
    (found : section? document = some entries) : (entries.map (·.1)).Nodup := by
  unfold section? at found
  split at found
  case h_1 =>
    obtain rfl := Option.some.inj found
    exact List.nodup_nil
  case h_2 value =>
    obtain rfl := Option.some.inj found
    exact (Toml.Value.distinct_table_iff.mp (distinct.of_lookup value)).keys
  case h_3 => cases found

theorem ofDocument?_eq_setAll? (found : section? document = some entries) :
    ofDocument? document = setAll? {} entries := by
  unfold section? at found
  rw [ofDocument?]
  split at found
  case h_1 missing =>
    obtain rfl := Option.some.inj found
    rw [missing]
    rfl
  case h_2 value =>
    obtain rfl := Option.some.inj found
    rw [value]
    rfl
  case h_3 => cases found

/-! ## Texts -/

variable {parse : Toml.Parser} {text : String}

theorem ofText_of_parse_eq_none (rejected : parse text = none) :
    ofText parse text = .error .invalid := by
  rw [ofText, rejected, Option.bind_none]

theorem ofText_eq_setAll? (accepted : parse text = some document)
    (found : section? document = some entries) :
    ofText parse text = (setAll? {} entries).elim (.error .invalid) .ok := by
  rw [ofText, accepted, Option.bind_some, ofDocument?_eq_setAll? found]
  cases setAll? {} entries <;> rfl

theorem ofText_eq_ok_iff (accepted : parse text = some document)
    (found : section? document = some entries) :
    ofText parse text = .ok config ↔ setAll? {} entries = some config := by
  rw [ofText_eq_setAll? accepted found]
  cases setAll? {} entries with
  | none => exact iff_of_false nofun nofun
  | some after => simp only [Option.elim_some, Except.ok.injEq, Option.some.injEq]

/-- A text is read exactly if its section sets nothing but fields, to values that they admit. -/
theorem exists_ofText_iff (accepted : parse text = some document)
    (found : section? document = some entries) :
    (∃ config, ofText parse text = .ok config) ↔ ∀ entry ∈ entries, IsSetting entry := by
  simp only [ofText_eq_ok_iff accepted found, exists_setAll?_iff]

/-- The configuration has what the entries give and is otherwise the default one. -/
structure Overlaid (entries : Toml.Entries) (config : BoardConfig) : Prop where
  given : ∀ field value, (Field.key field, value) ∈ entries → config.stated field = value
  missing : ∀ field, Field.key field ∉ entries.map (·.1) →
    config.stated field = ({} : BoardConfig).stated field

theorem overlaid_of_ofText (distinct : Toml.DistinctEntries document)
    (accepted : parse text = some document) (found : section? document = some entries)
    (read : ofText parse text = .ok config) : Overlaid entries config := by
  have nodup := nodup_of_section? distinct found
  have changed := (ofText_eq_ok_iff accepted found).mp read
  constructor
  · intro field value member
    rw [stated_of_setAll? nodup changed, (Toml.lookup_eq_some_iff_mem nodup).mpr member,
      Option.getD_some]
  · intro field unknown
    rw [stated_of_setAll? nodup changed, Toml.lookup_eq_none_iff_notMem.mpr unknown,
      Option.getD_none]

/-- Texts with the same settings in any order are read alike, whatever else is in them. -/
theorem ofText_perm {otherText : String} {otherDocument otherEntries : Toml.Entries}
    (distinct : Toml.DistinctEntries document) (accepted : parse text = some document)
    (found : section? document = some entries)
    (otherAccepted : parse otherText = some otherDocument)
    (otherFound : section? otherDocument = some otherEntries)
    (perm : entries.Perm otherEntries) : ofText parse text = ofText parse otherText := by
  rw [ofText_eq_setAll? accepted found, ofText_eq_setAll? otherAccepted otherFound,
    setAll?_perm (nodup_of_section? distinct found) perm]

end BoardConfig

end BoardIdentity
