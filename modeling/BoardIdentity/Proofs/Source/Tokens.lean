import BoardIdentity.Proofs.Source.Literals

/-!
# Tokens of source text

A compiler cuts a source text into tokens one character at a time (`step`): words and numbers,
string literals, punctuation and the shift, with blanks and comments in between.  A string literal
ends at the first quote that no escape uses up, and nothing in front of that quote is looked at any
further until its content is unescaped.

What is cut in two parts is cut as a whole (`run_append`).  Quoted text is one token, whatever it
holds (`run_quote`), and so are the digits of a number (`run_addressLiteral`,
`run_decimal_shifted`).
-/

namespace BoardIdentity.Source

open Hex (isDigitOf)

/-- A piece of source text. -/
inductive Token where
  | word (text : String)
  | number (number : Number)
  | text (content : String)
  | mark (c : Char)
  | shift
  deriving DecidableEq, Repr

/-! ## Characters -/

/-- The characters of names and numbers. -/
def isWordChar (c : Char) : Bool :=
  ('a' ≤ c && c ≤ 'z') || ('A' ≤ c && c ≤ 'Z') || ('0' ≤ c && c ≤ '9') || c == '_'

/-- The characters that are a token each. -/
def isMark (c : Char) : Bool :=
  c ∈ [':', '=', ',', ';', '\x7b', '\x7d']

/-! ## Cutting -/

/-- What the characters so far have begun. -/
inductive State where
  | between
  | slash
  | comment
  | less
  | word (text : List Char)
  /-- The content of a string literal so far, as it is written. -/
  | text (content : List Char)
  /-- The content so far, and a backslash behind it. -/
  | escape (content : List Char)
  deriving DecidableEq, Repr

/-- The token that a whole word is: a number if it starts with a digit. -/
def wordToken? (text : List Char) : Option Token :=
  match text with
  | [] => none
  | first :: _ =>
    if isDigitOf 10 first then (number? text).map .number else some (.word (String.ofList text))

/-- What a character does between two tokens. -/
def start (c : Char) : Option (List Token × State) :=
  if isSpace c then some ([], .between)
  else if c = '/' then some ([], .slash)
  else if c = '<' then some ([], .less)
  else if c = '"' then some ([], .text [])
  else if isMark c then some ([.mark c], .between)
  else if isWordChar c then some ([], .word [c])
  else none

/-- What the next character does: the tokens that end with it, and what it leaves begun.  A word
right in front of a quote would change what the literal means, and is refused. -/
def step : State → Char → Option (List Token × State)
  | .between, c => start c
  | .slash, c => if c = '/' then some ([], .comment) else none
  | .comment, c => some ([], if c = '\n' then .between else .comment)
  | .less, c => if c = '<' then some ([.shift], .between) else none
  | .word text, c =>
    if isWordChar c then some ([], .word (text ++ [c]))
    else if c = '"' then none
    else
      match wordToken? text, start c with
      | some token, some (tokens, state) => some (token :: tokens, state)
      | _, _ => none
  | .text content, c =>
    if c = '"' then (unescape content).map fun text => ([.text (String.ofList text)], .between)
    else if c = '\\' then some ([], .escape content)
    else some ([], .text (content ++ [c]))
  | .escape content, c => some ([], .text (content ++ ['\\', c]))

/-- The tokens of a part of a text, and what the part leaves begun. -/
def run : State → List Char → Option (List Token × State)
  | state, [] => some ([], state)
  | state, c :: text =>
    match step state c with
    | none => none
    | some (tokens, next) => (run next text).map fun (later, final) => (tokens ++ later, final)

/-- The tokens of a whole text, in which nothing is left begun but a comment. -/
def tokens? (text : String) : Option (List Token) :=
  match run .between text.toList with
  | some (tokens, .between) => some tokens
  | some (tokens, .comment) => some tokens
  | some (tokens, .word text) => (wordToken? text).map fun token => tokens ++ [token]
  | _ => none

/-! ## Parts of a text -/

theorem run_cons {state next final : State} {c : Char} {text : List Char} {now later : List Token}
    (first : step state c = some (now, next)) (rest : run next text = some (later, final)) :
    run state (c :: text) = some (now ++ later, final) := by
  rw [run, first]
  simp only [rest, Option.map_some]

/-- What is cut in two parts is cut as a whole. -/
theorem run_append {state middle final : State} {front back : List Char}
    {early late : List Token} (first : run state front = some (early, middle))
    (second : run middle back = some (late, final)) :
    run state (front ++ back) = some (early ++ late, final) := by
  induction front generalizing state early with
  | nil =>
    obtain ⟨rfl, rfl⟩ := Prod.mk.inj (Option.some.inj first)
    exact second
  | cons c front ih =>
    rw [run] at first
    split at first
    case h_1 => cases first
    case h_2 now next stepped =>
      obtain ⟨⟨later, reached⟩, rest, same⟩ := Option.map_eq_some_iff.mp first
      obtain ⟨rfl, rfl⟩ := Prod.mk.inj same
      rw [List.append_assoc]
      exact run_cons stepped (ih rest)

/-! ## Words -/

theorem run_word (word : List Char) {text : List Char} (belong : ∀ c ∈ text, isWordChar c = true) :
    run (.word word) text = some ([], .word (word ++ text)) := by
  induction text generalizing word with
  | nil => rw [run, List.append_nil]
  | cons c text ih =>
    have first : step (.word word) c = some ([], .word (word ++ [c])) :=
      if_pos (belong c List.mem_cons_self)
    have rest := ih (word ++ [c]) fun d member => belong d (List.mem_cons_of_mem c member)
    rw [List.append_assoc] at rest
    exact run_cons first rest

theorem ne_of_isWordChar {c other : Char} (belongs : isWordChar c = true)
    (not : isWordChar other = false) : c ≠ other := by
  rintro rfl
  rw [belongs] at not
  cases not

/-- A character of a word begins one. -/
theorem start_of_isWordChar {c : Char} (belongs : isWordChar c = true) :
    start c = some ([], .word [c]) := by
  have space : ¬ isSpace c = true := by
    intro space
    simp only [isSpace, decide_eq_true_eq, List.mem_cons, List.not_mem_nil, or_false] at space
    rcases space with rfl | rfl | rfl | rfl <;> exact absurd belongs (by decide)
  have mark : ¬ isMark c = true := by
    intro mark
    simp only [isMark, decide_eq_true_eq, List.mem_cons, List.not_mem_nil, or_false] at mark
    rcases mark with rfl | rfl | rfl | rfl | rfl | rfl <;> exact absurd belongs (by decide)
  rw [start, if_neg space, if_neg (ne_of_isWordChar belongs (by decide)),
    if_neg (ne_of_isWordChar belongs (by decide)), if_neg (ne_of_isWordChar belongs (by decide)),
    if_neg mark, if_pos belongs]

/-- The characters of a word are still that word at its end. -/
theorem run_between_word {word : List Char} (belong : ∀ c ∈ word, isWordChar c = true)
    (notEmpty : word ≠ []) : run .between word = some ([], .word word) := by
  cases word with
  | nil => exact absurd rfl notEmpty
  | cons first rest =>
    obtain ⟨begins, belong⟩ := List.forall_mem_cons.mp belong
    have begun : step .between first = some ([], .word [first]) := start_of_isWordChar begins
    exact run_cons begun (run_word [first] belong)

/-- A word ends in front of what is neither part of a word nor a quote. -/
theorem step_word_of_start {word : List Char} {token : Token} {c : Char} {tokens : List Token}
    {state : State} (whole : wordToken? word = some token) (ends : isWordChar c = false)
    (unquoted : c ≠ '"') (starts : start c = some (tokens, state)) :
    step (.word word) c = some (token :: tokens, state) := by
  rw [step, if_neg (by simp [ends]), if_neg unquoted, whole, starts]

/-! ## Numbers -/

theorem isWordChar_of_isDigitOf {base : Nat} {c : Char} (digit : isDigitOf base c = true) :
    isWordChar c = true := by
  unfold isDigitOf Hex.digit? at digit
  unfold isWordChar
  simp only [Bool.or_eq_true, Bool.and_eq_true, decide_eq_true_eq]
  split at digit
  case isTrue range => exact Or.inl (Or.inr range)
  case isFalse =>
    split at digit
    case isTrue range => exact Or.inl (Or.inl (Or.inl ⟨range.1, Char.le_trans range.2 (by decide)⟩))
    case isFalse =>
      split at digit
      case isTrue range =>
        exact Or.inl (Or.inl (Or.inr ⟨range.1, Char.le_trans range.2 (by decide)⟩))
      case isFalse => cases digit

/-- An address literal is one number. -/
theorem run_addressLiteral (address : UInt8) :
    run .between ((addressLiteral address).toList ++ [',']) =
      some ([.number { value := address.toNat }, .mark ','], .between) := by
  have written : (addressLiteral address).toList = '0' :: 'x' :: Hex.twoDigits address := by
    rw [addressLiteral, String.toList_append, String.toList_ofList, String.toList_ofList]
    rfl
  have belong : ∀ c ∈ '0' :: 'x' :: Hex.twoDigits address, isWordChar c = true := by
    refine List.forall_mem_cons.mpr ⟨rfl, List.forall_mem_cons.mpr ⟨rfl, fun c member => ?_⟩⟩
    exact isWordChar_of_isDigitOf (isDigitOf_of_mem_twoDigits member)
  have whole : wordToken? ('0' :: 'x' :: Hex.twoDigits address) =
      some (.number { value := address.toNat }) :=
    congrArg (Option.map Token.number) (number?_twoDigits address)
  have ended : step (.word ('0' :: 'x' :: Hex.twoDigits address)) ',' =
      some ([.number { value := address.toNat }, .mark ','], .between) :=
    step_word_of_start whole rfl (by decide) rfl
  rw [written]
  exact run_append (run_between_word belong (List.cons_ne_nil _ _)) (run_cons ended rfl)

/-- A decimal literal, shifted by another, is two numbers with the shift in between. -/
theorem run_decimal_shifted (n : Nat) :
    run .between ((toString n ++ " << 20").toList ++ [',']) =
      some ([.number { value := n }, .shift, .number { value := 20 }, .mark ','], .between) := by
  have digits := (digits_toDigits (by decide : 1 < 10) (by decide) n).1
  have written : (toString n ++ " << 20").toList ++ [','] =
      Nat.toDigits 10 n ++ [' ', '<', '<', ' ', '2', '0', ','] := by
    rw [Nat.toString_eq_ofList_toDigits, String.toList_append, String.toList_ofList,
      List.append_assoc]
    rfl
  have whole : wordToken? (Nat.toDigits 10 n) = some (.number { value := n }) := by
    have number := number?_toDigits n
    cases word : Nat.toDigits 10 n with
    | nil => exact absurd word Nat.toDigits_ne_nil
    | cons first rest =>
      rw [word] at digits number
      rw [wordToken?, if_pos (digits first List.mem_cons_self), number]
      rfl
  have belong : ∀ c ∈ Nat.toDigits 10 n, isWordChar c = true :=
    fun c member => isWordChar_of_isDigitOf (digits c member)
  have ended : step (.word (Nat.toDigits 10 n)) ' ' =
      some ([.number { value := n }], .between) :=
    step_word_of_start whole rfl (by decide) rfl
  rw [written]
  exact run_append (run_between_word belong Nat.toDigits_ne_nil) (run_cons ended rfl)

/-! ## Quoted text -/

/-- Up to a quote or a backslash, the content of a string literal goes on. -/
theorem run_text_of_plain (content : List Char) {text : List Char}
    (plain : ∀ c ∈ text, c ≠ '"' ∧ c ≠ '\\') :
    run (.text content) text = some ([], .text (content ++ text)) := by
  induction text generalizing content with
  | nil => rw [run, List.append_nil]
  | cons c text ih =>
    obtain ⟨⟨quote, backslash⟩, plain⟩ := List.forall_mem_cons.mp plain
    have first : step (.text content) c = some ([], .text (content ++ [c])) := by
      rw [step, if_neg quote, if_neg backslash]
    have rest := ih (content ++ [c]) plain
    rw [List.append_assoc] at rest
    exact run_cons first rest

/-- An escape does not end a string literal, not even one of a quote. -/
theorem run_text_escape (content : List Char) (letter : Char) :
    run (.text content) ['\\', letter] = some ([], .text (content ++ ['\\', letter])) :=
  rfl

theorem run_text_encodeChar (content : List Char) (c : Char) :
    run (.text content) (Quoted.encodeChar c) =
      some ([], .text (content ++ Quoted.encodeChar c)) := by
  unfold Quoted.encodeChar
  split
  case h_7 _ _ _ quote backslash =>
    split
    case isTrue => exact run_text_of_plain content (by simpa using ⟨quote, backslash⟩)
    case isFalse =>
      have plain : ∀ d ∈ '\x7b' :: (Nat.toDigits 16 c.toNat ++ ['\x7d']),
          d ≠ '"' ∧ d ≠ '\\' := by
        intro d member
        rcases List.mem_cons.mp member with rfl | member
        · decide
        · rcases List.mem_append.mp member with digit | last
          · have digit := (digits_toDigits (by decide) (by decide) c.toNat).1 d digit
            exact ⟨Hex.ne_of_isDigitOf digit (by decide), Hex.ne_of_isDigitOf digit (by decide)⟩
          · rw [List.mem_singleton.mp last]
            decide
      have whole := run_append (run_text_escape content 'u')
        (run_text_of_plain (content ++ ['\\', 'u']) plain)
      simpa using whole
  all_goals exact run_text_escape content _

theorem run_text_encode (content text : List Char) :
    run (.text content) (Quoted.encode text) =
      some ([], .text (content ++ Quoted.encode text)) := by
  induction text generalizing content with
  | nil => rw [Quoted.encode, List.flatMap_nil, run, List.append_nil]
  | cons c text ih =>
    rw [Quoted.encode, List.flatMap_cons, ← Quoted.encode, ← List.append_assoc]
    exact run_append (run_text_encodeChar content c) (ih (content ++ Quoted.encodeChar c))

/-- Quoted text is one string literal with the text as its content. -/
theorem run_quote (text : String) :
    run .between (Quoted.quote text).toList = some ([.text text], .between) := by
  have opened : run .between ['"'] = some ([], .text []) := rfl
  have closed : run (.text (Quoted.encode text.toList)) ['"'] = some ([.text text], .between) := by
    have ended : step (.text (Quoted.encode text.toList)) '"' = some ([.text text], .between) := by
      rw [step, if_pos rfl, unescape_encode, Option.map_some, String.ofList_toList]
    exact run_cons ended rfl
  rw [Quoted.quote, String.toList_ofList]
  exact run_append opened (run_append (run_text_encode [] text.toList) closed)

end BoardIdentity.Source
