/-!
# Hexadecimal digits

Lower-case digits for writing, either case for reading.  A byte is written with two digits, or with
as few as it needs; a byte string is written two digits a byte.  The digits of smaller bases are the
first of the sixteen (`isDigitOf`, `ofDigits`).
-/

namespace BoardIdentity.Hex

/-! ## Writing -/

/-- The two digits of a byte, a leading zero included. -/
def twoDigits (byte : UInt8) : List Char :=
  [Nat.digitChar (byte.toNat / 16), Nat.digitChar (byte.toNat % 16)]

/-- The digits of a byte without a leading zero; zero itself is one digit. -/
def fewestDigits (byte : UInt8) : List Char :=
  if byte.toNat < 16 then [Nat.digitChar byte.toNat] else twoDigits byte

/-- The text of a byte string, two digits a byte. -/
def ofBytes (bytes : List UInt8) : String :=
  String.ofList (bytes.flatMap twoDigits)

/-! ## Reading -/

def digit? (c : Char) : Option Nat :=
  if '0' ≤ c ∧ c ≤ '9' then some (c.toNat - '0'.toNat)
  else if 'a' ≤ c ∧ c ≤ 'f' then some (c.toNat - 'a'.toNat + 10)
  else if 'A' ≤ c ∧ c ≤ 'F' then some (c.toNat - 'A'.toNat + 10)
  else none

/-- The number that the digits denote, highest first; `none` if one of them is no digit. -/
def number? (digits : List Char) : Option Nat :=
  digits.foldlM (fun value c => (digit? c).map (16 * value + ·)) 0

/-- The byte string that a text of two digits a byte denotes. -/
def bytes? : List Char → Option (List UInt8)
  | [] => some []
  | [_] => none
  | high :: low :: rest => do
    let byte ← number? [high, low]
    let bytes ← bytes? rest
    return UInt8.ofNat byte :: bytes

/-! ## Other bases -/

def isDigitOf (base : Nat) (c : Char) : Bool :=
  (digit? c).any (· < base)

/-- The number that digits denote, highest first.  What is no digit counts as zero. -/
def ofDigits (base : Nat) (digits : List Char) : Nat :=
  digits.foldl (fun value c => base * value + (digit? c).getD 0) 0

/-! ## Digits read back -/

/-- The digit written for a value below sixteen reads back as that value. -/
theorem digit?_digitChar (n : Fin 16) : digit? (Nat.digitChar n) = some n.val := by
  revert n
  decide

theorem number?_twoDigits (byte : UInt8) : number? (twoDigits byte) = some byte.toNat := by
  have bound := byte.toNat_lt
  have high : digit? (Nat.digitChar (byte.toNat / 16)) = some (byte.toNat / 16) :=
    digit?_digitChar ⟨byte.toNat / 16, by omega⟩
  have low : digit? (Nat.digitChar (byte.toNat % 16)) = some (byte.toNat % 16) :=
    digit?_digitChar ⟨byte.toNat % 16, by omega⟩
  simp [number?, twoDigits, high, low, Nat.div_add_mod]

theorem isDigitOf_digitChar {base digit : Nat} (small : digit < base) (most : base ≤ 16) :
    isDigitOf base (Nat.digitChar digit) = true := by
  have read := digit?_digitChar ⟨digit, Nat.lt_of_lt_of_le small most⟩
  simp only at read
  rw [isDigitOf, read, Option.any_some, decide_eq_true small]

theorem ofDigits_concat (base : Nat) (digits : List Char) {digit : Nat} (most : digit < 16) :
    ofDigits base (digits ++ [Nat.digitChar digit]) = base * ofDigits base digits + digit := by
  have read := digit?_digitChar ⟨digit, most⟩
  simp only at read
  rw [ofDigits, List.foldl_append, List.foldl_cons, List.foldl_nil, read]
  rfl

theorem ne_of_isDigitOf {base : Nat} {c other : Char} (digit : isDigitOf base c = true)
    (none : digit? other = none) : c ≠ other := by
  rintro rfl
  rw [isDigitOf, none] at digit
  cases digit

/-! ## Written digits -/

/-- What is written for a byte are digits of values below sixteen. -/
theorem exists_digitChar_of_mem_twoDigits {byte : UInt8} {c : Char} (member : c ∈ twoDigits byte) :
    ∃ n : Fin 16, c = Nat.digitChar n := by
  have bound := byte.toNat_lt
  rcases List.mem_cons.mp member with rfl | member
  · exact ⟨⟨byte.toNat / 16, by omega⟩, rfl⟩
  · exact ⟨⟨byte.toNat % 16, by omega⟩, List.mem_singleton.mp member⟩

end BoardIdentity.Hex
