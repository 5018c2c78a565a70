import BoardIdentity.Decimal.Binary64

/-!
# Shortest decimals

The shortest decimal of a double is the one of fewest digits among those that read back as the same
double, and of these the nearest to it; of two equally near, the larger.

Decimals of a given precision form a grid.  If any point of a grid reads back, so does one of the
two grid points next to the double, so it is enough to try those two on ever finer grids.
-/

namespace BoardIdentity.Shortest

/-- The number `digits * 10 ^ exponent`. -/
structure Decimal where
  digits : Nat
  exponent : Int
  deriving DecidableEq, Repr

/-- The grid point with the given exponent that reads back as the double and is nearest to it, if
there is one.  All quantities are multiples of a quarter of the double's last place. -/
def onGrid? (parts : Binary64.Parts) (exponent : Int) : Option Decimal :=
  let quarter := parts.power - 2
  let scale := Nat.pow 10 (-exponent).toNat <<< quarter.toNat
  let unit := Nat.pow 10 exponent.toNat <<< (-quarter).toNat
  let value := 4 * parts.significand * scale
  let low := (4 * parts.significand - if parts.narrowBelow then 1 else 2) * scale
  let high := (4 * parts.significand + 2) * scale
  let readsBack (point : Nat) : Bool :=
    let position := point * unit
    if parts.significand % 2 = 0 then low ≤ position && position ≤ high
    else low < position && position < high
  let below := value / unit
  let above := below + 1
  if readsBack above ∧ (¬ readsBack below ∨ above * unit - value ≤ value - below * unit) then
    some { digits := above, exponent }
  else if readsBack below then
    some { digits := below, exponent }
  else
    none

/-- The first grid from `exponent` downwards, at most `grids` of them, that has a point which reads
back. -/
def search (parts : Binary64.Parts) (exponent : Int) : (grids : Nat) → Option Decimal
  | 0 => none
  | grids + 1 =>
    match onGrid? parts exponent with
    | some decimal => some decimal
    | none => search parts (exponent - 1) grids

/-- Drops up to `count` zeros from the end of the digits. -/
def dropZeros (decimal : Decimal) : (count : Nat) → Decimal
  | 0 => decimal
  | count + 1 =>
    if decimal.digits % 10 = 0 then
      dropZeros { digits := decimal.digits / 10, exponent := decimal.exponent + 1 } count
    else
      decimal

/-- The shortest decimal of a finite double other than zero.  Seventeen digits always suffice, and
the first grid tried is at most a few powers of ten too coarse. -/
def ofParts (parts : Binary64.Parts) : Decimal :=
  let bits := Int.ofNat parts.significand.log2 + 1 + parts.power
  let start := bits * 30103 / 100000 + 1
  match search parts start 24 with
  | some decimal => dropZeros decimal 24
  | none => { digits := 0, exponent := 0 }

end BoardIdentity.Shortest
