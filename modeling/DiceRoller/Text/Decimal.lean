/-
# Decimal numbers in text

A real number is kept as its text: digits, a point, more digits, an exponent
after an `e`, a minus sign in front; or infinity, or no number at all. Here it
is read as a whole number times a power of ten, exactly, so that it can be
compared with other numbers.

Key definitions: `Decimal`, `Decimal.ofText`, `Decimal.order?`,
`Decimal.isZero`.
-/
namespace DiceRoller

/-- A real number. -/
inductive Decimal where
  /-- No number at all, which is not ordered. -/
  | undefined
  | infinite (negative : Bool)
  /-- `mantissa` times ten to the power of `exponent`. -/
  | finite (mantissa : Int) (exponent : Int)
  deriving DecidableEq, Repr

namespace Decimal

/-- The number that a run of digits denotes; other characters are passed
over. -/
def digits (s : List Char) : Nat := Nat.ofDigitChars 10 (s.filter Char.isDigit) 0

/-- A number with a minus sign in front of it if it is negative. -/
def signed (negative : Bool) (n : Nat) : Int := if negative then -n else n

/-- The exponent that a text denotes; a sign may stand in front. -/
def exponentOf : List Char → Int
  | '-' :: s => signed true (digits s)
  | s => signed false (digits s)

/-- The number without its sign that a text denotes. -/
def ofUnsigned (negative : Bool) (s : List Char) : Decimal :=
  if s = "nan".toList then undefined
  else if s = "inf".toList then infinite negative
  else
    let body := s.takeWhile (· != 'e')
    let fraction := (body.dropWhile (· != '.')).drop 1
    let power := exponentOf ((s.dropWhile (· != 'e')).drop 1)
    finite (signed negative (digits body)) (power - fraction.length)

/-- The number that a text denotes. -/
def ofText (text : String) : Decimal :=
  match text.toList with
  | '-' :: s => ofUnsigned true s
  | s => ofUnsigned false s

/-- Whether the number is zero. -/
def isZero : Decimal → Bool
  | finite mantissa _ => mantissa == 0
  | _ => false

/-- The order of two whole numbers. -/
def orderInt (m n : Int) : Ordering := if m < n then .lt else if m = n then .eq else .gt

/-- The order of two numbers, if they have one. -/
def order? : Decimal → Decimal → Option Ordering
  | undefined, _ => none
  | _, undefined => none
  | infinite a, infinite b => some (if a = b then .eq else if a then .lt else .gt)
  | infinite a, finite _ _ => some (if a then .lt else .gt)
  | finite _ _, infinite b => some (if b then .gt else .lt)
  | finite m e, finite n f =>
    some (orderInt (m * Nat.pow 10 (e - f).toNat) (n * Nat.pow 10 (f - e).toNat))

/-- Numbers of the same exponent are ordered as their mantissas are. -/
@[simp] theorem order?_finite (m n e : Int) :
    order? (finite m e) (finite n e) = some (orderInt m n) := by
  simp [order?]

end Decimal
end DiceRoller
