import BoardIdentity.Proofs.Toml.DistinctEntries
import BoardIdentity.Toml.Document

/-!
# No key is written twice

The trees of `tree?` have no key twice, at whatever depth (`distinctEntries_of_tree?`).  What fills
tables only ever adds keys that are new and replaces values under keys that are there; tables
between braces are filled in the same way.
-/

namespace BoardIdentity.Toml

/-! ## Filling tables -/

namespace DistinctEntries

variable {entries after : Entries} {name : String} {value : Value}

theorem mem_set {entry : String × Value} (member : entry ∈ Table.set name value entries) :
    entry = (name, value) ∨ entry ∈ entries := by
  induction entries with
  | nil => exact .inl (List.mem_singleton.mp member)
  | cons first entries ih =>
    rw [Table.set] at member
    split at member
    · exact (List.mem_cons.mp member).imp_right (List.mem_cons_of_mem first)
    · rcases List.mem_cons.mp member with rfl | member
      · exact .inr List.mem_cons_self
      · exact (ih member).imp_right (List.mem_cons_of_mem first)

/-- Setting a key replaces its value or adds the key behind the others. -/
theorem keys_set (name : String) (value : Value) (entries : Entries) :
    (Table.set name value entries).map (·.1) =
      if name ∈ entries.map (·.1) then entries.map (·.1) else entries.map (·.1) ++ [name] := by
  induction entries with
  | nil => rfl
  | cons first entries ih =>
    obtain ⟨other, old⟩ := first
    rw [Table.set]
    by_cases same : other = name
    · simp [same]
    · have another : name ≠ other := fun equal => same equal.symm
      by_cases known : name ∈ entries.map (·.1)
      · rw [if_pos known] at ih
        simp only [if_neg same, List.map_cons, ih, List.mem_cons, known, or_true, if_true]
      · rw [if_neg known] at ih
        simp only [if_neg same, List.map_cons, ih, List.mem_cons, known, another, or_self, if_false,
          List.cons_append]

theorem concat (distinct : DistinctEntries entries) (unknown : name ∉ entries.map (·.1))
    (inside : value.Distinct) : DistinctEntries (entries ++ [(name, value)]) where
  keys := by
    rw [List.map_append]
    exact List.concat_eq_append ▸ distinct.keys.concat unknown
  values := List.forall_mem_append.mpr ⟨distinct.values, List.forall_mem_singleton.mpr inside⟩

theorem set (distinct : DistinctEntries entries) (inside : value.Distinct) :
    DistinctEntries (Table.set name value entries) where
  keys := by
    rw [keys_set]
    split
    case isTrue known => exact distinct.keys
    case isFalse unknown => exact List.concat_eq_append ▸ distinct.keys.concat unknown
  values entry member := by
    rcases mem_set member with rfl | old
    · exact inside
    · exact distinct.values entry old

theorem add? (distinct : DistinctEntries entries) (inside : value.Distinct)
    (added : Table.add? name value entries = some after) : DistinctEntries after := by
  unfold Table.add? at added
  split at added
  case isTrue => cases added
  case isFalse missing =>
    obtain rfl := Option.some.inj added
    have unknown := lookup_eq_none_iff_notMem.mp (Option.not_isSome_iff_eq_none.mp missing)
    exact distinct.concat unknown inside

/-- What is done at the end of a path keeps keys distinct, if it does so in the table there. -/
theorem change? {written : TableForm} {action : TableForm → Entries → Option Entries}
    (keeps : ∀ form entries after, DistinctEntries entries → action form entries = some after →
      DistinctEntries after) {path : List String} {form : TableForm}
    (distinct : DistinctEntries entries)
    (changed : Table.change? written action path form entries = some after) :
    DistinctEntries after := by
  induction path generalizing form entries after with
  | nil => exact keeps form entries after distinct changed
  | cons name path ih =>
    -- The path goes into a new table, a table that is there, or the last one of an array.
    unfold Table.change? at changed
    split at changed
    case h_1 missing =>
      obtain ⟨inner, changedInside, same⟩ := Option.bind_eq_some_iff.mp changed
      obtain rfl := Option.some.inj same
      exact distinct.set (Value.distinct_table_iff.mpr (ih nil changedInside))
    case h_2 passed inner found =>
      obtain ⟨-, -, changed⟩ := Option.bind_eq_some_iff.mp changed
      obtain ⟨inner, changedInside, same⟩ := Option.bind_eq_some_iff.mp changed
      obtain rfl := Option.some.inj same
      have old := Value.distinct_table_iff.mp (distinct.of_lookup found)
      exact distinct.set (Value.distinct_table_iff.mpr (ih old changedInside))
    case h_3 items found =>
      have old := Value.distinct_array_iff.mp (distinct.of_lookup found)
      split at changed
      case h_1 last =>
        obtain ⟨inner, changedInside, same⟩ := Option.bind_eq_some_iff.mp changed
        obtain rfl := Option.some.inj same
        have lastOld := Value.distinct_table_iff.mp (old _ (List.mem_of_getLast? last))
        refine distinct.set (Value.distinct_array_iff.mpr (List.forall_mem_append.mpr
          ⟨fun item member => old item ((List.dropLast_sublist items).subset member), ?_⟩))
        exact List.forall_mem_singleton.mpr
          (Value.distinct_table_iff.mpr (ih lastOld changedInside))
      case h_2 => cases changed
    case h_4 => cases changed

/-! ## Statements that fill tables -/

theorem insert? {key : Key} (distinct : DistinctEntries entries) (inside : value.Distinct)
    {form : TableForm} (inserted : Table.insert? key value form entries = some after) :
    DistinctEntries after := by
  refine distinct.change? (fun form entries after distinct written => ?_) inserted
  obtain ⟨-, -, added⟩ := Option.bind_eq_some_iff.mp written
  exact distinct.add? inside added

theorem addBelow? {header : List String} {key : Key} (distinct : DistinctEntries entries)
    (inside : value.Distinct) (added : Table.addBelow? header key value entries = some after) :
    DistinctEntries after :=
  distinct.change? (fun _ _ _ distinct inserted => distinct.insert? inside inserted) added

theorem openTable? {key : Key} (distinct : DistinctEntries entries)
    (opened : Table.openTable? key entries = some after) : DistinctEntries after := by
  refine distinct.change? (fun form entries after distinct written => ?_) opened
  split at written
  case h_1 inner found =>
    obtain rfl := Option.some.inj written
    exact distinct.set (Value.distinct_table_iff.mpr
      (Value.distinct_table_iff.mp (distinct.of_lookup found)))
  case h_2 => exact distinct.add? (Value.distinct_table_iff.mpr nil) written

theorem openElement? {key : Key} (distinct : DistinctEntries entries)
    (opened : Table.openElement? key entries = some after) : DistinctEntries after := by
  have fresh : (Value.table .header []).Distinct := Value.distinct_table_iff.mpr nil
  refine distinct.change? (fun form entries after distinct written => ?_) opened
  split at written
  case h_1 items found =>
    obtain rfl := Option.some.inj written
    have old := Value.distinct_array_iff.mp (distinct.of_lookup found)
    exact distinct.set (Value.distinct_array_iff.mpr (List.forall_mem_append.mpr
      ⟨old, List.forall_mem_singleton.mpr fresh⟩))
  case h_2 =>
    exact distinct.add? (Value.distinct_array_iff.mpr (List.forall_mem_singleton.mpr fresh)) written

/-- A table between braces is filled pair by pair. -/
theorem foldlM_insert? {pairs : List (Key × Value)} (inside : ∀ pair ∈ pairs, pair.2.Distinct)
    (distinct : DistinctEntries entries)
    (filled : pairs.foldlM (fun entries (key, value) =>
      Table.insert? key value .inline entries) entries = some after) : DistinctEntries after := by
  induction pairs generalizing entries with
  | nil =>
    obtain rfl := Option.some.inj filled
    exact distinct
  | cons pair pairs ih =>
    obtain ⟨here, later⟩ := List.forall_mem_cons.mp inside
    obtain ⟨middle, inserted, rest⟩ := Option.bind_eq_some_iff.mp filled
    exact ih later (distinct.insert? here inserted) rest

end DistinctEntries

/-! ## Values of a document -/

namespace Scalar

variable {text : List Char} {value : Value}

theorem distinct_of_integer? (read : integer? text = some value) : value.Distinct := by
  unfold integer? at read
  split at read
  all_goals
    obtain ⟨digits, -, same⟩ := Option.bind_eq_some_iff.mp read
    obtain rfl := Option.some.inj same
    exact Value.distinct_of_parts_eq_nil rfl rfl

theorem distinct_of_decimal? (read : decimal? text = some value) : value.Distinct := by
  obtain ⟨-, -, read⟩ := Option.bind_eq_some_iff.mp read
  obtain ⟨whole, -, read⟩ := Option.bind_eq_some_iff.mp read
  obtain ⟨fraction, -, read⟩ := Option.bind_eq_some_iff.mp read
  obtain ⟨power, -, same⟩ := Option.bind_eq_some_iff.mp read
  obtain rfl := Option.some.inj same
  exact Value.distinct_of_parts_eq_nil rfl rfl

/-- A bare value has no table in it. -/
theorem distinct_of_ofText? (read : ofText? text = some value) : value.Distinct := by
  unfold ofText? at read
  simp only [Option.orElse_eq_orElse, Option.orElse_eq_or, Option.or_eq_some_iff] at read
  rcases read with read | ⟨-, read | ⟨-, read | ⟨-, read | ⟨-, read | ⟨-, read⟩⟩⟩⟩⟩
  · unfold boolean? at read
    split at read <;> cases read <;> exact Value.distinct_of_parts_eq_nil rfl rfl
  · exact distinct_of_integer? read
  · exact distinct_of_decimal? read
  · unfold special? at read
    split at read <;> cases read <;> exact Value.distinct_of_parts_eq_nil rfl rfl
  · unfold dateTime? at read
    split at read <;> cases read
    exact Value.distinct_of_parts_eq_nil rfl rfl
  · unfold unreadable? at read
    split at read <;> cases read
    exact Value.distinct_of_parts_eq_nil rfl rfl

end Scalar

namespace Statement

variable {tokens : List Token}

/-- The items of a list are what its item reader reads. -/
theorem forall_mem_items? {α : Type} {P : α → Prop} {close : Token}
    {item? : (tokens : List Token) → Option (Front Token α tokens)}
    (each : ∀ tokens front, item? tokens = some front → P front.value)
    {front : Front Token (List α) tokens} (read : items? close item? tokens = some front) :
    ∀ item ∈ front.value, P item := by
  fun_induction items? close item? tokens with
  | case1 | case3 | case6 | case7 => cases read
  | case2 =>
    obtain rfl := Option.some.inj read
    exact nofun
  | case4 _ _ _ _ _ _ first first_eq _ after _ _ ih =>
    obtain ⟨others, readOthers, same⟩ := Option.map_eq_some_iff.mp read
    obtain rfl := same
    exact List.forall_mem_cons.mpr ⟨each _ first first_eq, ih readOthers⟩
  | case5 _ _ _ _ _ _ first first_eq =>
    obtain rfl := Option.some.inj read
    exact List.forall_mem_singleton.mpr (each _ first first_eq)

theorem distinct_of_bare? {first : List Char} {front : Front Token Value (.word first :: tokens)}
    (read : bare? first tokens = some front) : front.value.Distinct := by
  obtain ⟨value, valued, same⟩ := Option.bind_eq_some_iff.mp read
  obtain rfl := Option.some.inj same
  exact Scalar.distinct_of_ofText? valued

theorem distinct_of_pair? {space : Token → Bool}
    {value? : (tokens : List Token) → Option (Front Token Value tokens)}
    (each : ∀ tokens front, value? tokens = some front → front.value.Distinct)
    {front : Front Token (Key × Value) tokens} (read : pair? space value? tokens = some front) :
    front.value.2.Distinct := by
  obtain ⟨key, -, read⟩ := Option.bind_eq_some_iff.mp read
  obtain ⟨sign, -, read⟩ := Option.bind_eq_some_iff.mp read
  obtain ⟨value, valued, same⟩ := Option.bind_eq_some_iff.mp read
  obtain rfl := Option.some.inj same
  exact each _ value valued

/-- Values are distinct at every depth: those between brackets and braces are read at a smaller
one. -/
theorem distinct_of_value? {depth : Nat} {front : Front Token Value tokens}
    (read : value? depth tokens = some front) : front.value.Distinct := by
  induction depth using Nat.strongRecOn generalizing tokens with
  | ind depth ih =>
    unfold value? at read
    split at read
    case h_1 => cases read; exact Value.distinct_of_parts_eq_nil rfl rfl
    case h_2 => exact distinct_of_bare? read
    case h_3 depth _ =>
      obtain ⟨items, readItems, same⟩ := Option.bind_eq_some_iff.mp read
      obtain rfl := Option.some.inj same
      have inside := forall_mem_items? (fun _ _ => ih depth (Nat.lt_succ_self depth)) readItems
      exact Value.distinct_array_iff.mpr inside
    case h_4 depth _ =>
      obtain ⟨pairs, readPairs, read⟩ := Option.bind_eq_some_iff.mp read
      obtain ⟨entries, filled, same⟩ := Option.bind_eq_some_iff.mp read
      obtain rfl := Option.some.inj same
      have inside := forall_mem_items? (P := fun pair => pair.2.Distinct)
        (fun _ _ => distinct_of_pair? fun _ _ => ih depth (Nat.lt_succ_self depth)) readPairs
      exact Value.distinct_table_iff.mpr (DistinctEntries.nil.foldlM_insert? inside filled)
    case h_5 => cases read

/-- The value that a statement writes, if it writes one, has no key twice. -/
def Distinct : Statement → Prop
  | .entry _ value => value.Distinct
  | .header _ => True
  | .element _ => True

theorem distinct_of_front? {front : Front Token Statement tokens}
    (read : front? tokens = some front) : front.value.Distinct := by
  unfold front? at read
  split at read
  case h_1 =>
    obtain ⟨spaced, -, read⟩ := Option.bind_eq_some_iff.mp read
    obtain ⟨inner, -, read⟩ := Option.bind_eq_some_iff.mp read
    obtain ⟨outer, -, same⟩ := Option.bind_eq_some_iff.mp read
    obtain rfl := Option.some.inj same
    exact trivial
  case h_2 =>
    obtain ⟨spaced, -, read⟩ := Option.bind_eq_some_iff.mp read
    obtain ⟨key, -, same⟩ := Option.bind_eq_some_iff.mp read
    obtain rfl := Option.some.inj same
    exact trivial
  case h_3 =>
    obtain ⟨pair, readPair, same⟩ := Option.bind_eq_some_iff.mp read
    obtain rfl := Option.some.inj same
    exact distinct_of_pair? (fun _ _ => distinct_of_value?) readPair

theorem distinct_of_line? {line : Front Token Statement tokens} (read : line? tokens = some line) :
    line.value.Distinct := by
  obtain ⟨front, readFront, read⟩ := Option.bind_eq_some_iff.mp read
  have distinct : front.value.Distinct := distinct_of_front? readFront
  split at read
  · cases read
  · obtain rfl := Option.some.inj read
    exact distinct

theorem forall_distinct_of_ofTokens? {statements : List Statement}
    (read : ofTokens? tokens = some statements) : ∀ statement ∈ statements, statement.Distinct := by
  fun_induction ofTokens? tokens generalizing statements with
  | case1 =>
    obtain rfl := Option.some.inj read
    exact nofun
  | case2 => cases read
  | case3 _ _ line readLine ih =>
    obtain ⟨others, readOthers, same⟩ := Option.map_eq_some_iff.mp read
    obtain rfl := same
    exact List.forall_mem_cons.mpr ⟨distinct_of_line? readLine, ih readOthers⟩

end Statement

/-! ## Documents -/

theorem Draft.distinctEntries_add? {draft after : Draft} {statement : Statement}
    (distinct : DistinctEntries draft.entries) (written : statement.Distinct)
    (added : draft.add? statement = some after) : DistinctEntries after.entries := by
  cases statement with
  | entry key value =>
    obtain ⟨entries, filled, same⟩ := Option.bind_eq_some_iff.mp added
    obtain rfl := Option.some.inj same
    exact distinct.addBelow? written filled
  | header key =>
    obtain ⟨entries, opened, same⟩ := Option.bind_eq_some_iff.mp added
    obtain rfl := Option.some.inj same
    exact distinct.openTable? opened
  | element key =>
    obtain ⟨entries, opened, same⟩ := Option.bind_eq_some_iff.mp added
    obtain rfl := Option.some.inj same
    exact distinct.openElement? opened

theorem Draft.distinctEntries_foldlM_add? {draft after : Draft} {statements : List Statement}
    (distinct : DistinctEntries draft.entries)
    (written : ∀ statement ∈ statements, statement.Distinct)
    (added : statements.foldlM Draft.add? draft = some after) : DistinctEntries after.entries := by
  induction statements generalizing draft with
  | nil =>
    obtain rfl := Option.some.inj added
    exact distinct
  | cons statement statements ih =>
    obtain ⟨here, later⟩ := List.forall_mem_cons.mp written
    obtain ⟨middle, first, rest⟩ := Option.bind_eq_some_iff.mp added
    exact ih (Draft.distinctEntries_add? distinct here first) later rest

/-- No table of a document has a key twice. -/
theorem distinctEntries_of_document? {text : String} {entries : Entries}
    (read : document? text = some entries) : DistinctEntries entries := by
  obtain ⟨tokens, -, read⟩ := Option.bind_eq_some_iff.mp read
  obtain ⟨statements, readStatements, read⟩ := Option.bind_eq_some_iff.mp read
  obtain ⟨draft, added, same⟩ := Option.bind_eq_some_iff.mp read
  obtain rfl := Option.some.inj same
  exact Draft.distinctEntries_foldlM_add? DistinctEntries.nil
    (Statement.forall_distinct_of_ofTokens? readStatements) added

theorem distinctEntries_of_tree? {key text : String} {entries : Entries}
    (read : tree? key text = some entries) : DistinctEntries entries :=
  distinctEntries_of_document? (Option.filter_eq_some_iff.mp read).1

end BoardIdentity.Toml
