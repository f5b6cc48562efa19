/-
# Products of data

Numbers are multiplied as numbers, real ones if one of them is real. A text or
a list is repeated as often as a whole number says, not at all if that is
negative. Other data have no product.

Key definitions: `Datum.whole?`, `Datum.repeated`, `Datum.product`.
Key theorem: `Datum.product_number`.
-/
import DiceRoller.Datum
import DiceRoller.RealNumber

namespace DiceRoller
namespace Datum

/-- The whole number that a datum is; a truth value counts as one. -/
def whole? : Datum → Option Int
  | number n => some n
  | truth b => some (if b then 1 else 0)
  | _ => none

/-- The real number that a datum is or that is nearest to it; a whole number
may be too large for one. -/
def real? : Datum → Option (Except Fault RealNumber)
  | real t => some (.ok (RealNumber.ofText t))
  | d => d.whole?.map fun n =>
    match RealNumber.ofInt? n with
    | some x => .ok x
    | none => .error .tooLargeForReal

/-- Whether the datum can be repeated. -/
def isRepeatable : Datum → Bool
  | text _ => true
  | list _ => true
  | _ => false

/-- Counts have 64 bits with a sign: they lie between minus this number and it,
exclusive of the latter. -/
def countLimit : Int := 9223372036854775808

/-- A text or a list repeated as often as the count says. -/
def repeated (d count : Datum) : Except Fault Datum :=
  match count.whole? with
  | none => .error (.misuse (.noMultiple count.kindName))
  | some n =>
    if n < -countLimit ∨ countLimit ≤ n then .error .countTooLarge
    else match d with
      | text s => .ok (text (String.ofList (List.replicate n.toNat s.toList).flatten))
      | list items => .ok (list (List.replicate n.toNat items).flatten)
      | d => .ok d

/-- The product of two data. -/
def product (a b : Datum) : Except Fault Datum :=
  match a.whole?, b.whole? with
  | some m, some n => .ok (number (m * n))
  | _, _ =>
    if a.isRepeatable then a.repeated b
    else if b.isRepeatable then b.repeated a
    else match a.real?, b.real? with
      | some x, some y => do
        let x ← x
        let y ← y
        return real (x.times y).text
      | _, _ => .error (.misuse (.noOperation "*" a.kindName b.kindName))

/-- Whole numbers are multiplied as such. -/
@[simp] theorem product_number (m n : Int) :
    product (number m) (number n) = .ok (number (m * n)) := rfl

end Datum
end DiceRoller
