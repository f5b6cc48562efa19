/-
# Whole numbers in figures

A whole number is written with a fixed number of decimals, which are zeros, or
in scientific form: one digit, a point, more digits and a power of ten. The
scientific form may have fewer digits than the number; then these are rounded,
a half to the even digit. The general form is scientific only for numbers with
more digits than asked for.

A form is plain or full. The full one keeps a point that nothing follows and,
in the general form, the zeros at the end.

Key definitions: `Figures.based`, `Figures.fixed`, `Figures.scientific`,
`Figures.general`.
-/
import DiceRoller.Rounding

namespace DiceRoller
namespace Figures

/-- The number in a base up to sixteen, with zeros in front up to the given
number of digits. -/
def based (base least n : Nat) : List Char :=
  let ds := Nat.toDigits base n
  List.replicate (least - ds.length) '0' ++ ds

/-- The digits after a point; a point stands also before none in the full form. -/
def fraction (full : Bool) (digits : List Char) : List Char :=
  if digits.isEmpty && !full then [] else '.' :: digits

/-- The number with so many decimals. -/
def fixed (full : Bool) (decimals n : Nat) : List Char :=
  based 10 1 n ++ fraction full (List.replicate decimals '0')

/-- The first `count` digits of the number, rounded, and the power of ten that
the first of them counts. -/
def leading (count n : Nat) : List Char × Nat :=
  let size := (Nat.toDigits 10 n).length
  if size ≤ count then (based 10 size n ++ List.replicate (count - size) '0', size - 1)
  else
    let q := Rounding.nearest n (Nat.pow 10 (size - count))
    if q < Nat.pow 10 count then (based 10 count q, size - 1)
    else (based 10 count (q / 10), size)

/-- The digits with a point after the first, and the power of ten in at least
two figures. -/
def withPower (full : Bool) (digits : List Char) (power : Nat) : List Char :=
  digits.take 1 ++ fraction full (digits.drop 1) ++ ['e', '+'] ++ based 10 2 power

/-- The number with one digit before the point and so many after it. -/
def scientific (full : Bool) (decimals n : Nat) : List Char :=
  let (digits, power) := leading (decimals + 1) n
  withPower full digits power

/-- The digits without the zeros at the end. -/
def dropZeros (digits : List Char) : List Char :=
  (digits.reverse.dropWhile (· == '0')).reverse

/-- The number in so many digits, but at least one. -/
def general (full : Bool) (count n : Nat) : List Char :=
  let count := count - 1 + 1
  let (digits, power) := leading count n
  if power < count then fixed full (if full then count - 1 - power else 0) n
  else withPower full (if full then digits else dropZeros digits) power

end Figures
end DiceRoller
