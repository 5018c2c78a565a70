/-!
# Double-precision numbers

A finite double is a whole number of at most 53 bits, the significand, times a power of two that is
at least the one of exponent -1074.  `roundToBits` finds the double nearest to a fraction, ties to
the even significand, by whole-number arithmetic alone.
-/

namespace BoardIdentity.Binary64

/-! ## Rounding -/

/-- The whole number nearest to a fraction; of two equally near, the even one. -/
def roundHalfEven (numerator denominator : Nat) : Nat :=
  let down := numerator / denominator
  let twice := 2 * (numerator % denominator)
  if twice < denominator ∨ (twice = denominator ∧ down % 2 = 0) then down else down + 1

/-- The least significand of 53 bits, which is also where the exponent starts in a double's bits. -/
def leastNormal : Nat := 1 <<< 52

/-- The bit of a double that makes it negative. -/
def signBit : Nat := 1 <<< 63

def infinityBits : Nat := 0x7ff * leastNormal

/-- The bits of the double nearest to a fraction that is not negative.  A fraction beyond the
largest double gives infinity. -/
def roundToBits (numerator denominator : Nat) : Nat :=
  if numerator = 0 then 0
  else
    -- a power of two that leaves the quotient 53 or 54 bits, or the least there is
    let power := max (Int.ofNat numerator.log2 - Int.ofNat denominator.log2 - 53) (-1074)
    let quotient (power : Int) :=
      roundHalfEven (numerator <<< (-power).toNat) (denominator <<< power.toNat)
    let power := if quotient power > 2 * leastNormal then power + 1 else power
    min infinityBits ((power + 1074).toNat * leastNormal + quotient power)

/-! ## Parts of a double -/

/-- The significand and the power of two of a finite double, its sign apart, and whether the next
smaller double is only half as far away as the next larger one. -/
structure Parts where
  significand : Nat
  power : Int
  narrowBelow : Bool
  deriving DecidableEq, Repr

/-- The parts of the finite double with the given bits; the sign bit is ignored. -/
def parts (bits : Nat) : Parts :=
  let fraction := bits % leastNormal
  let exponent := bits / leastNormal % 2048
  if exponent = 0 then
    { significand := fraction, power := -1074, narrowBelow := false }
  else
    { significand := leastNormal + fraction
      power := Int.ofNat exponent - 1075
      narrowBelow := fraction = 0 && exponent > 1 }

end BoardIdentity.Binary64
