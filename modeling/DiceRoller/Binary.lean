/-
# Binary numbers of 53 digits

Clocks and real numbers are kept in binary, with 53 digits and a power of two.
What has more digits is rounded to the nearest such number, a tie to the one
whose last digit is even. Near zero the digits get fewer: the last one is never
worth less than `2 ^ -1074`.

Key definitions: `Binary`, `Binary.round`, `Binary.ofDecimal?`,
`Binary.decimal`, `Binary.floor`, `Binary.remainder`, `Decimal.kept`.
-/
import DiceRoller.Rounding
import DiceRoller.Text.Decimal

namespace DiceRoller

/-- The number `mantissa` times two to the power of `exponent`. -/
structure Binary where
  mantissa : Int
  exponent : Int
  deriving DecidableEq, Repr

namespace Binary

/-- The number of digits. -/
def precision : Nat := 53

/-- The last digit is worth at least two to this power. -/
def lowest : Int := -1074

/-- Two to the power, or one if the power is negative. -/
def power (exponent : Int) : Nat := Nat.pow 2 exponent.toNat

/-- The greatest power of two that is at most the quotient of two positive
numbers. The sizes of the two leave one other choice. -/
def magnitude (num den : Nat) : Int :=
  let k : Int := (Nat.log2 num : Int) - Nat.log2 den
  if num * power (-k) < den * power k then k - 1 else k

/-- The quotient, rounded to the digits that there are. -/
def round (num : Int) (den : Nat) : Binary :=
  if num = 0 then ⟨0, 0⟩
  else
    let e := max (magnitude num.natAbs den + 1 - precision) lowest
    ⟨num.sign * Rounding.nearest (num.natAbs * power (-e)) (den * power e), e⟩

/-- The number that a decimal number is rounded to, if it is finite. -/
def ofDecimal? : Decimal → Option Binary
  | .finite m e => some (round (m * Nat.pow 10 e.toNat) (Nat.pow 10 (-e).toNat))
  | _ => none

/-- The number as a decimal one, which has as many digits as it needs. -/
def decimal (b : Binary) : Decimal :=
  .finite (b.mantissa * power b.exponent * Nat.pow 5 (-b.exponent).toNat) (min b.exponent 0)

/-- The number rounded down to a whole one. -/
def floor (b : Binary) : Int := Int.fdiv (b.mantissa * power b.exponent) (power (-b.exponent))

/-- The remainder by a positive number, rounded down to a whole one. The
remainder of a negative number is first taken without its sign; the distance
from there up to the modulus is rounded to the digits that there are, and may
so reach the modulus itself. -/
def remainder (b : Binary) (modulus : Nat) : Int :=
  let unit := power (-b.exponent)
  let r := Int.tmod (b.mantissa * power b.exponent) (modulus * unit)
  if r < 0 then (round (r + modulus * unit) unit).floor else Int.fdiv r unit

end Binary

/-- The number that is kept of a decimal number: the nearest binary one. -/
def Decimal.kept (d : Decimal) : Decimal :=
  match Binary.ofDecimal? d with
  | some b => b.decimal
  | none => d

end DiceRoller
