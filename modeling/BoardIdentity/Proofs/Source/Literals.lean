import BoardIdentity.Config.Generated
import Mathlib.Data.List.TakeWhile

/-!
# Literals of source text

How a compiler reads the literals of a source text.  Behind a backslash, the content of a string
literal names a character by a letter or by its number, or leaves out a line break and the space
behind it (`unescape`).  A number may be written to another base, grouped by underscores and
followed by the name of its type (`number?`).

Generated literals read as what they were generated from: `unescape_encode` for text,
`number?_twoDigits` and `number?_toDigits` for numbers.
-/

namespace BoardIdentity.Source

open Hex (isDigitOf ofDigits)

/-! ## String literals -/

/-- The character that an escape stands for, and how many characters behind the backslash spell
it. -/
structure Escape where
  char : Char
  width : Nat

/-- The character whose number stands between braces, in up to six hexadecimal digits; the text
starts behind the opening brace. -/
def codePoint? (text : List Char) : Option Escape :=
  let spelled := text.takeWhile (· != '\x7d')
  let digits := spelled.filter (· != '_')
  let number := ofDigits 16 digits
  let isNumber := 0 < digits.length ∧ digits.length ≤ 6 ∧ digits.all (isDigitOf 16)
  if spelled.length < text.length ∧ spelled.head? ≠ some '_' ∧ isNumber ∧ number.isValidChar then
    some { char := Char.ofNat number, width := spelled.length + 3 }
  else none

/-- The ASCII character whose number is given by two hexadecimal digits. -/
def asciiCode? (digits : List Char) : Option Escape :=
  let number := ofDigits 16 digits
  if digits.all (isDigitOf 16) ∧ number < 0x80 then some { char := Char.ofNat number, width := 3 }
  else none

/-- The escape that starts behind a backslash. -/
def escape? : List Char → Option Escape
  | 'n' :: _ => some { char := '\n', width := 1 }
  | 'r' :: _ => some { char := '\r', width := 1 }
  | 't' :: _ => some { char := '\t', width := 1 }
  | '0' :: _ => some { char := '\x00', width := 1 }
  | '\\' :: _ => some { char := '\\', width := 1 }
  | '"' :: _ => some { char := '"', width := 1 }
  | '\'' :: _ => some { char := '\'', width := 1 }
  | 'x' :: high :: low :: _ => asciiCode? [high, low]
  | 'u' :: '\x7b' :: text => codePoint? text
  | _ => none

/-- Space at the start of a line, which a line break behind a backslash leaves out. -/
def isSpace (c : Char) : Bool :=
  c ∈ [' ', '\t', '\n', '\r']

/-- The text that the content of a string literal stands for.  A bare carriage return is refused. -/
def unescape (content : List Char) : Option (List Char) :=
  match content with
  | [] => some []
  | '\\' :: '\n' :: rest => unescape (rest.dropWhile isSpace)
  | '\\' :: rest =>
    match escape? rest with
    | some escape => (unescape (rest.drop escape.width)).map (escape.char :: ·)
    | none => none
  | '\r' :: _ => none
  | c :: rest => (unescape rest).map (c :: ·)
termination_by content.length
decreasing_by
  · exact Nat.lt_add_right 1 (Nat.lt_succ_of_le (List.dropWhile_sublist isSpace).length_le)
  · exact Nat.lt_succ_of_le (List.drop_sublist escape.width rest).length_le
  · exact Nat.lt_succ_self _

/-! ## Number literals -/

/-- The names of the types of whole numbers. -/
def numberTypes : List String :=
  ["u8", "u16", "u32", "u64", "u128", "usize", "i8", "i16", "i32", "i64", "i128", "isize"]

/-- A whole number, and the type that its literal names, if it names one. -/
structure Number where
  value : Nat
  type? : Option String := none
  deriving DecidableEq, Repr

/-- The number whose digits to a base and type name are given. -/
def numberTo? (base : Nat) (text : List Char) : Option Number :=
  let belongs (c : Char) := isDigitOf base c || c == '_'
  let digits := (text.takeWhile belongs).filter (· != '_')
  let type := String.ofList (text.dropWhile belongs)
  if digits = [] then none
  else if type = "" then some { value := ofDigits base digits }
  else if type ∈ numberTypes then some { value := ofDigits base digits, type? := some type }
  else none

/-- The number that a word denotes. -/
def number? : List Char → Option Number
  | '0' :: 'x' :: text => numberTo? 16 text
  | '0' :: 'o' :: text => numberTo? 8 text
  | '0' :: 'b' :: text => numberTo? 2 text
  | text => numberTo? 10 text

/-! ## Digits read back -/

/-- The digits of a number are digits to the base, and denote the number. -/
theorem digits_toDigits {base : Nat} (least : 1 < base) (most : base ≤ 16) (n : Nat) :
    (∀ c ∈ Nat.toDigits base n, isDigitOf base c = true) ∧
      ofDigits base (Nat.toDigits base n) = n := by
  induction n using Nat.strongRecOn with
  | ind n ih =>
    rw [Nat.toDigits_eq_if least]
    split
    case isTrue small =>
      refine ⟨fun c member => ?_, ?_⟩
      · rw [List.mem_singleton.mp member]
        exact Hex.isDigitOf_digitChar small most
      · rw [← List.nil_append [n.digitChar], Hex.ofDigits_concat base [] (by omega)]
        exact Nat.zero_add n
    case isFalse large =>
      have last : n % base < base := Nat.mod_lt n (by omega)
      obtain ⟨digits, value⟩ := ih (n / base) (Nat.div_lt_self (by omega) least)
      refine ⟨fun c member => ?_, ?_⟩
      · rcases List.mem_append.mp member with early | late
        · exact digits c early
        · rw [List.mem_singleton.mp late]
          exact Hex.isDigitOf_digitChar last most
      · rw [Hex.ofDigits_concat base _ (by omega), value, Nat.div_add_mod]

/-- The digits of a number, up to a character that is none of them. -/
theorem takeWhile_toDigits {base : Nat} (least : 1 < base) (most : base ≤ 16) {p : Char → Bool}
    (belong : ∀ c, isDigitOf base c = true → p c = true) {stop : Char} (stops : p stop = false)
    (n : Nat) (rest : List Char) :
    (Nat.toDigits base n ++ stop :: rest).takeWhile p = Nat.toDigits base n := by
  have all : ∀ c ∈ Nat.toDigits base n, p c = true :=
    fun c member => belong c ((digits_toDigits least most n).1 c member)
  rw [List.takeWhile_append_of_pos all, List.takeWhile_cons_of_neg (by simp [stops]),
    List.append_nil]

/-- A word of digits alone is the number that they denote. -/
theorem numberTo?_of_digits {base : Nat} {digits : List Char}
    (belong : ∀ c ∈ digits, isDigitOf base c = true) (notEmpty : digits ≠ []) :
    numberTo? base digits = some { value := ofDigits base digits } := by
  have belongs : ∀ c ∈ digits, (isDigitOf base c || c == '_') = true :=
    fun c member => Bool.or_eq_true_iff.mpr (Or.inl (belong c member))
  have ungrouped : digits.filter (· != '_') = digits :=
    List.filter_eq_self.mpr fun c member =>
      bne_iff_ne.mpr (Hex.ne_of_isDigitOf (belong c member) (by decide))
  have nothing : digits.dropWhile (fun c => isDigitOf base c || c == '_') = [] :=
    List.dropWhile_eq_nil_iff.mpr belongs
  have all : digits.takeWhile (fun c => isDigitOf base c || c == '_') = digits :=
    List.takeWhile_eq_self_iff.mpr belongs
  unfold numberTo?
  simp only [all, nothing, ungrouped, if_neg notEmpty]
  rfl

theorem isDigitOf_of_mem_twoDigits {byte : UInt8} {c : Char} (member : c ∈ Hex.twoDigits byte) :
    isDigitOf 16 c = true := by
  obtain ⟨n, rfl⟩ := Hex.exists_digitChar_of_mem_twoDigits member
  exact Hex.isDigitOf_digitChar n.isLt (Nat.le_refl 16)

theorem number?_twoDigits (byte : UInt8) :
    number? ('0' :: 'x' :: Hex.twoDigits byte) = some { value := byte.toNat } := by
  have bound := byte.toNat_lt
  have value : ofDigits 16 (Hex.twoDigits byte) = byte.toNat := by
    have first := Hex.ofDigits_concat 16 [] (show byte.toNat / 16 < 16 by omega)
    have both := Hex.ofDigits_concat 16 [Nat.digitChar (byte.toNat / 16)]
      (show byte.toNat % 16 < 16 by omega)
    rw [List.nil_append] at first
    rw [first] at both
    refine both.trans ?_
    rw [ofDigits, List.foldl_nil]
    omega
  rw [number?, numberTo?_of_digits (fun _ => isDigitOf_of_mem_twoDigits) (List.cons_ne_nil _ _),
    value]

theorem number?_toDigits (n : Nat) : number? (Nat.toDigits 10 n) = some { value := n } := by
  obtain ⟨digits, value⟩ := digits_toDigits (by decide : 1 < 10) (by decide) n
  have decimal : number? (Nat.toDigits 10 n) = numberTo? 10 (Nat.toDigits 10 n) := by
    unfold number?
    -- The letters that announce another base are no decimal digits.
    split
    case h_1 word =>
      have letter := digits 'x' (by rw [word]; simp)
      exact absurd letter (by decide)
    case h_2 word =>
      have letter := digits 'o' (by rw [word]; simp)
      exact absurd letter (by decide)
    case h_3 word =>
      have letter := digits 'b' (by rw [word]; simp)
      exact absurd letter (by decide)
    case h_4 => rfl
  rw [decimal, numberTo?_of_digits digits Nat.toDigits_ne_nil, value]

/-! ## Quoted text read back -/

theorem codePoint?_toDigits (c : Char) (rest : List Char) :
    codePoint? (Nat.toDigits 16 c.toNat ++ '\x7d' :: rest) =
      some { char := c, width := (Nat.toDigits 16 c.toNat).length + 3 } := by
  obtain ⟨digits, value⟩ := digits_toDigits (by decide : 1 < 16) (by decide) c.toNat
  have spelled : (Nat.toDigits 16 c.toNat ++ '\x7d' :: rest).takeWhile (· != '\x7d') =
      Nat.toDigits 16 c.toNat :=
    takeWhile_toDigits (by decide) (by decide)
      (fun d digit => bne_iff_ne.mpr (Hex.ne_of_isDigitOf digit (by decide))) (by decide)
      c.toNat rest
  have ungrouped : (Nat.toDigits 16 c.toNat).filter (· != '_') = Nat.toDigits 16 c.toNat :=
    List.filter_eq_self.mpr fun d member =>
      bne_iff_ne.mpr (Hex.ne_of_isDigitOf (digits d member) (by decide))
  have first : (Nat.toDigits 16 c.toNat).head? ≠ some '_' := fun head =>
    Hex.ne_of_isDigitOf (digits '_' (List.mem_of_head? head)) (by decide) rfl
  have short : (Nat.toDigits 16 c.toNat).length ≤ 6 := by
    rw [Nat.length_toDigits_le_iff (by decide) (by decide)]
    have valid : c.toNat.isValidChar := c.valid
    have small : c.toNat < 0x110000 := by
      unfold Nat.isValidChar at valid
      omega
    exact Nat.lt_trans small (by decide)
  have notEmpty : 0 < (Nat.toDigits 16 c.toNat).length := Nat.length_toDigits_pos
  have closed : (Nat.toDigits 16 c.toNat).length <
      (Nat.toDigits 16 c.toNat ++ '\x7d' :: rest).length := by
    simp
  have number := And.intro notEmpty (And.intro short (List.all_eq_true.mpr digits))
  unfold codePoint?
  simp only [spelled, ungrouped, value]
  rw [if_pos ⟨closed, first, number, c.valid⟩, Char.ofNat_toNat]

/-- What stands behind a backslash is an escape, unless the line ends there. -/
theorem unescape_backslash {text : List Char} (sameLine : ∀ rest, text ≠ '\n' :: rest) :
    unescape ('\\' :: text) = (escape? text).bind fun escape =>
      (unescape (text.drop escape.width)).map (escape.char :: ·) := by
  rw [unescape]
  · cases escape? text <;> rfl
  · exact sameLine

theorem unescape_plain {c : Char} (escapes : c ≠ '\\') (returns : c ≠ '\r') (rest : List Char) :
    unescape (c :: rest) = (unescape rest).map (c :: ·) := by
  rw [unescape]
  · exact fun _ same => absurd same escapes
  · exact escapes
  · exact returns

/-- The written form of a character reads as the character. -/
theorem unescape_encodeChar (c : Char) (rest : List Char) :
    unescape (Quoted.encodeChar c ++ rest) = (unescape rest).map (c :: ·) := by
  unfold Quoted.encodeChar
  split
  case h_7 _ returns _ _ escapes =>
    split
    case isTrue => exact unescape_plain escapes returns rest
    case isFalse =>
      have spelled := codePoint?_toDigits c rest
      have text : ['\\', 'u', '\x7b'] ++ Nat.toDigits 16 c.toNat ++ ['\x7d'] ++ rest =
          '\\' :: 'u' :: '\x7b' :: (Nat.toDigits 16 c.toNat ++ '\x7d' :: rest) := by
        simp
      have unicode : escape? ('u' :: '\x7b' :: (Nat.toDigits 16 c.toNat ++ '\x7d' :: rest)) =
          some { char := c, width := (Nat.toDigits 16 c.toNat).length + 3 } := spelled
      rw [text, unescape_backslash (by simp), unicode]
      simp
  all_goals exact unescape_backslash (by simp)

/-- **Quoted text reads as the text**, whatever characters it holds. -/
theorem unescape_encode (text : List Char) : unescape (Quoted.encode text) = some text := by
  induction text with
  | nil => rw [Quoted.encode, List.flatMap_nil, unescape]
  | cons c text ih =>
    rw [Quoted.encode, List.flatMap_cons, unescape_encodeChar, ← Quoted.encode, ih]
    rfl

end BoardIdentity.Source
