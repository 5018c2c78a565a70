import BoardIdentity.Text.Hex

/-!
# Escaped bytes

Bytes of unknown origin are shown as printable ASCII: the bytes from space to tilde stand for
themselves, except that quotes and the backslash carry a backslash, as do tab, newline and carriage
return under their usual letters; every other byte is a backslash, an `x` and two digits.
-/

namespace BoardIdentity.Escaped

/-- The written form of one byte. -/
def encodeByte (byte : UInt8) : List Char :=
  let c := Char.ofNat byte.toNat
  match c with
  | '\t' => ['\\', 't']
  | '\r' => ['\\', 'r']
  | '\n' => ['\\', 'n']
  | '\'' | '"' | '\\' => ['\\', c]
  | _ => if 0x20 ≤ byte && byte ≤ 0x7e then [c] else '\\' :: 'x' :: Hex.twoDigits byte

/-- The written form of a byte string. -/
def encode (bytes : List UInt8) : List Char :=
  bytes.flatMap encodeByte

@[simp]
theorem encode_nil : encode [] = [] := rfl

end BoardIdentity.Escaped
