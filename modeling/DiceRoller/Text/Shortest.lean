/-
# The shortest text of a binary number

A positive binary number is written with the fewest decimal digits that are
read back as it. For each number of digits the two neighbours on that decimal
grid are tried, the nearer one first; the first that is read back is taken.

Numbers from `10 ^ -4` up to `10 ^ 16`, exclusive, are written with a point,
and with a zero behind it if they are whole; others with one digit before the
point, if there are more, and a power of ten of at least two figures.

Key definitions: `Binary.same`, `Shortest.digits`, `Shortest.text`.
-/
import DiceRoller.Binary

namespace DiceRoller

/-- Whether two binary numbers are equal. -/
def Binary.same (a b : Binary) : Bool :=
  a.mantissa * power (a.exponent - b.exponent) == b.mantissa * power (b.exponent - a.exponent)

namespace Shortest

/-- The number times ten to the power, as a quotient. -/
def scaled (b : Binary) (power : Int) : Nat × Nat :=
  (b.mantissa.natAbs * Binary.power b.exponent * Nat.pow 10 power.toNat,
    Binary.power (-b.exponent) * Nat.pow 10 (-power).toNat)

/-- More than the zeros that can follow the point of a positive number. -/
def depth : Nat := 400

/-- The power of ten of the first digit. -/
def order (b : Binary) : Int :=
  let (num, den) := scaled b depth
  ((Nat.toDigits 10 (num / den)).length : Int) - 1 - depth

/-- Whether `n` times ten to the power is read back as the number. -/
def readsBack (b : Binary) (n : Nat) (power : Int) : Bool :=
  (Binary.round (n * Nat.pow 10 power.toNat) (Nat.pow 10 (-power).toNat)).same b

/-- The neighbours of the number on the grid of a power of ten, the nearer one
first, or the even one of two that are equally near. -/
def neighbours (b : Binary) (power : Int) : List Nat :=
  let (num, den) := scaled b (-power)
  let below := num / den
  if Rounding.nearest num den = below then [below, below + 1] else [below + 1, below]

/-- Digits are enough from this number on. -/
def enough : Nat := 17

/-- The fewest digits, from `enough - more` on, that are read back, as a number
and the power of ten that it is multiplied by. -/
def search (b : Binary) : Nat → Nat × Int
  | 0 => (0, 0)
  | more + 1 =>
    let power := order b + 1 - (enough - more : Nat)
    match (neighbours b power).find? (readsBack b · power) with
    | some n => (n, power)
    | none => search b more

/-- The digits of the number, and the power of ten of the first of them. -/
def digits (b : Binary) : List Char × Int :=
  let (n, power) := search b enough
  let ds := Nat.toDigits 10 n
  ((ds.reverse.dropWhile (· == '0')).reverse, power + ds.length - 1)

/-- The digits with a point. -/
def positional (ds : List Char) (order : Int) : List Char :=
  if order < 0 then ['0', '.'] ++ List.replicate (-order - 1).toNat '0' ++ ds
  else
    let places := order.toNat + 1
    let whole := ds.take places ++ List.replicate (places - ds.length) '0'
    whole ++ '.' :: (if places < ds.length then ds.drop places else ['0'])

/-- The digits with a power of ten. -/
def scientific (ds : List Char) (order : Int) : List Char :=
  let figures := Nat.toDigits 10 order.natAbs
  ds.take 1 ++ (if ds.length ≤ 1 then [] else '.' :: ds.drop 1)
    ++ ['e', if order < 0 then '-' else '+']
    ++ List.replicate (2 - figures.length) '0' ++ figures

/-- The text of a positive number. -/
def text (b : Binary) : List Char :=
  let (ds, order) := digits b
  if -4 ≤ order ∧ order < 16 then positional ds order else scientific ds order

end Shortest
end DiceRoller
