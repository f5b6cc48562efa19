/-
# Real numbers as they are calculated with

A real number is a sign and a binary number, infinite, or no number at all.
Zero has a sign too. Products are rounded to the digits of binary numbers, and
become infinite from `2 ^ 1024` on.

Key definitions: `RealNumber`, `RealNumber.ofText`, `RealNumber.ofInt?`,
`RealNumber.times`, `RealNumber.text`, `RealNumber.wholePart`.
-/
import DiceRoller.Fault
import DiceRoller.Text.Shortest

namespace DiceRoller

/-- A real number; the size of a finite one is not negative. -/
inductive RealNumber where
  | undefined
  | infinite (negative : Bool)
  | finite (negative : Bool) (size : Binary)
  deriving DecidableEq, Repr

namespace RealNumber

/-- Numbers from two to this power on are infinite. -/
def limit : Int := 1024

/-- Whether a size is too large for a finite number. -/
def isTooLarge (size : Binary) : Bool := Binary.power limit ≤ size.floor

/-- The number of the sign and the size, which may be too large. -/
def ofSize (negative : Bool) (size : Binary) : RealNumber :=
  if isTooLarge size then infinite negative else finite negative size

/-- The number that a text denotes. -/
def ofText (t : String) : RealNumber :=
  let negative := t.toList.head? == some '-'
  match Decimal.ofText t with
  | .undefined => undefined
  | .infinite negative => infinite negative
  | .finite m e =>
    ofSize negative
      (Binary.round (m.natAbs * Nat.pow 10 e.toNat) (Nat.pow 10 (-e).toNat))

/-- The number nearest to a whole one, unless that is too large. -/
def ofInt? (n : Int) : Option RealNumber :=
  match ofSize (n < 0) (Binary.round n.natAbs 1) with
  | finite negative size => some (finite negative size)
  | _ => none

/-- Whether the size is zero. -/
def isZero : RealNumber → Bool
  | finite _ size => size.mantissa == 0
  | _ => false

/-- Whether the sign is a minus. -/
def isNegative : RealNumber → Bool
  | undefined => false
  | infinite negative => negative
  | finite negative _ => negative

/-- The product. -/
def times : RealNumber → RealNumber → RealNumber
  | undefined, _ => undefined
  | _, undefined => undefined
  | finite a x, finite b y =>
    let e := x.exponent + y.exponent
    ofSize (a != b) (Binary.round (x.mantissa * y.mantissa * Binary.power e) (Binary.power (-e)))
  | x, y => if x.isZero || y.isZero then undefined else infinite (x.isNegative != y.isNegative)

/-- The text of the number. -/
def text (x : RealNumber) : String :=
  let sign := if x.isNegative then "-" else ""
  match x with
  | undefined => "nan"
  | infinite _ => sign ++ "inf"
  | finite _ size =>
    sign ++ if size.mantissa = 0 then "0.0" else String.ofList (Shortest.text size)

/-- The number without what stands behind the point. -/
def wholePart : RealNumber → Except Fault Int
  | undefined => .error .notANumber
  | infinite _ => .error .infiniteNumber
  | finite negative size => .ok (if negative then -size.floor else size.floor)

end RealNumber
end DiceRoller
